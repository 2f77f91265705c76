import LanguageHost.Json.Value
import LanguageHost.Decimal.Shortest
import LanguageHost.Text.Quoted

/-!
# Writing data values

The compact text of a value: no blanks, members in the order of their names, whole numbers in
decimal digits and doubles as their shortest decimal.
-/

namespace LanguageHost.Json

/-- Doubles are positional for decimal exponents from -5 to 15, whole ones end in `.0`, and what
is not finite is `null`. -/
def floatStyle : Decimal.Style :=
  { positionalFrom := -5, positionalTo := 15, wholeMark := ".0", infinity := "null",
    notANumber := "null" }

/-- A character inside a string. -/
def escapeChar (c : Char) : List Char :=
  if c = '"' then ['\\', '"']
  else if c = '\\' then ['\\', '\\']
  else if c = '\n' then ['\\', 'n']
  else if c = '\r' then ['\\', 'r']
  else if c = '\t' then ['\\', 't']
  else if c.toNat = 8 then ['\\', 'b']
  else if c.toNat = 12 then ['\\', 'f']
  else if c.toNat < 0x20 then
    ['\\', 'u', '0', '0', Nat.digitChar (c.toNat / 16), Nat.digitChar (c.toNat % 16)]
  else [c]

/-- The characters of a string value. -/
def writeString (s : String) : List Char := '"' :: s.toList.flatMap escapeChar ++ ['"']

mutual

/-- The compact text of a value. -/
def write : Json → List Char
  | null => ['n', 'u', 'l', 'l']
  | bool true => ['t', 'r', 'u', 'e']
  | bool false => ['f', 'a', 'l', 's', 'e']
  | int n => (toString n).toList
  | float bits => (Decimal.render floatStyle bits).toList
  | str s => writeString s
  | arr items => '[' :: writeItems items ++ [']']
  | obj members => '\x7b' :: writeMembers members ++ ['\x7d']

/-- Items with commas between them. -/
def writeItems : List Json → List Char
  | [] => []
  | [v] => write v
  | v :: rest => write v ++ ',' :: writeItems rest

/-- Members with commas between them. -/
def writeMembers : List (String × Json) → List Char
  | [] => []
  | [(name, v)] => writeString name ++ ':' :: write v
  | (name, v) :: rest => writeString name ++ ':' :: write v ++ ',' :: writeMembers rest

end

/-- The compact text of a value. -/
def render (v : Json) : String := String.ofList (write v)

end LanguageHost.Json
