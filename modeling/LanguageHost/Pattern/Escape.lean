import LanguageHost.Json.Reader
import LanguageHost.Pattern.Basic
import LanguageHost.Pattern.Flags

/-!
# Escapes in patterns

What a backslash stands for: a character, a set of characters or a condition on the place.  In a
verbose pattern, blanks and comments may stand between the parts of an escape as well.
-/

namespace LanguageHost.Pattern

namespace Flags

/-- The text after blanks and comments, inside a comment or not. -/
def skipFrom : Bool → List Char → List Char
  | _, [] => []
  | true, c :: rest => skipFrom (c ≠ '\n') rest
  | false, c :: rest =>
    if Text.isBlank c then skipFrom false rest
    else if c = '#' then skipFrom true rest
    else c :: rest

/-- The text after blanks and comments, where they may stand. -/
def skip (f : Flags) (cs : List Char) : List Char := if f.verbose then skipFrom false cs else cs

end Flags

/-- A part of a pattern that nothing else is in. -/
inductive Primitive where
  /-- A character; `octet` if it is given by two digits, as an octet would be. -/
  | literal (c : Char) (octet : Bool)
  | set (codes : CodeRanges)
  | anchor (a : Anchor)

/-- Characters that have a meaning of their own somewhere in a pattern. -/
def metaChars : List Char :=
  ['\\', '.', '+', '*', '?', '(', ')', '|', '[', ']', '\x7b', '\x7d', '^', '$', '#', '&', '-', '~']

/-- Whether a backslash in front of a character leaves it as it is. -/
def isEscapable (c : Char) : Bool :=
  metaChars.contains c || (c.toNat < 128 && !c.isAlphanum && c ≠ '<' && c ≠ '>')

/-! ### Code points -/

/-- Exactly `n` hexadecimal digits. -/
def hexDigits? (f : Flags) : Nat → List Char → Option (List Char × List Char)
  | 0, cs => some ([], cs)
  | n + 1, cs => do
    match cs with
    | c :: rest =>
      let _ ← Json.hexValue? c
      let (ds, rest) ← hexDigits? f n (f.skip rest)
      return (c :: ds, rest)
    | [] => none

/-- Hexadecimal digits up to a closing brace. -/
def hexInBraces? (f : Flags) : Nat → List Char → Option (List Char × List Char)
  | 0, _ => none
  | fuel + 1, cs => do
    match cs with
    | '\x7d' :: rest => return ([], f.skip rest)
    | c :: rest =>
      let _ ← Json.hexValue? c
      let (ds, rest) ← hexInBraces? f fuel (f.skip rest)
      return (c :: ds, rest)
    | [] => none

/-- The character of hexadecimal digits. -/
def codePoint? (digits : List Char) : Option Char :=
  if digits.isEmpty then none else (Json.hexValues? digits).bind Json.scalar?

/-- A character given by its code point, after the letter `x`, `u` or `U`. -/
def codeEscape? (f : Flags) (letter : Char) (cs : List Char) : Option (Primitive × List Char) := do
  match f.skip cs with
  | '\x7b' :: rest =>
    let (ds, rest) ← hexInBraces? f (rest.length + 1) (f.skip rest)
    return (.literal (← codePoint? ds) false, rest)
  | cs =>
    let n := if letter = 'x' then 2 else if letter = 'u' then 4 else 8
    let (ds, rest) ← hexDigits? f n cs
    return (.literal (← codePoint? ds) (n = 2), rest)

/-! ### Properties -/

/-- The characters up to a closing brace. -/
def upToBrace? (f : Flags) : Nat → List Char → Option (List Char × List Char)
  | 0, _ => none
  | fuel + 1, cs => do
    match cs with
    | '\x7d' :: rest => return ([], rest)
    | c :: rest =>
      let (name, rest) ← upToBrace? f fuel (f.skip rest)
      return (c :: name, rest)
    | [] => none

/-- The two sides of `!=`, if it stands in a text. -/
def splitUnequal? : List Char → Option (List Char × List Char)
  | '!' :: '=' :: rest => some ([], rest)
  | c :: rest => (splitUnequal? rest).map fun (a, b) => (c :: a, b)
  | [] => none

/-- The two sides of a character, if it stands in a text. -/
def splitAt? (mark : Char) (cs : List Char) : Option (List Char × List Char) :=
  match cs.dropWhile (· ≠ mark) with
  | _ :: rest => some (cs.takeWhile (· ≠ mark), rest)
  | [] => none

/-- The set of a property, given as a name or as a name with a value. -/
def propertyOf? (cs : List Char) : Option CodeRanges :=
  match splitUnequal? cs <|> splitAt? ':' cs <|> splitAt? '=' cs with
  | some (property, value) => propertyValue? property value
  | none => property? cs

/-- A set of characters with a property, after the letter `p` or `P`. -/
def propertyEscape? (f : Flags) (negated : Bool) (cs : List Char) :
    Option (Primitive × List Char) := do
  let (name, rest) ←
    match f.skip cs with
    | '\x7b' :: rest => upToBrace? f (rest.length + 1) (f.skip rest)
    | '\\' :: _ => none
    | c :: rest => some ([c], f.skip rest)
    | [] => none
  if f.unicode then
    return (.set (← f.finish? negated (← propertyOf? name)), rest)
  else none

/-! ### Edges of words -/

/-- Whether a character may stand in the name of an edge. -/
def isEdgeChar (c : Char) : Bool := c.isAlpha || c = '-'

/-- The name of an edge up to a closing brace. -/
def edgeName? (f : Flags) : Nat → List Char → Option (List Char × List Char)
  | 0, _ => none
  | fuel + 1, cs => do
    match cs with
    | '\x7d' :: rest => return ([], rest)
    | c :: rest =>
      if isEdgeChar c then
        let (name, rest) ← edgeName? f fuel (f.skip rest)
        return (c :: name, rest)
      else none
    | [] => none

/-- The edge of a name. -/
def edgeOf? (name : List Char) : Option WordEdge :=
  match String.ofList name with
  | "start" => some .start
  | "end" => some .stop
  | "start-half" => some .startHalf
  | "end-half" => some .stopHalf
  | _ => none

/-- An edge of a word after the letter `b`: one that is named between braces, or any.  Braces that
do not begin like a name are left alone. -/
def boundary? (f : Flags) (cs : List Char) : Option (WordEdge × List Char) := do
  match cs with
  | '\x7b' :: rest =>
    match f.skip rest with
    | [] => none
    | c :: inside =>
      if isEdgeChar c then
        let (name, after) ← edgeName? f (rest.length + 1) (c :: inside)
        return (← edgeOf? name, after)
      else return (.boundary, cs)
  | _ => return (.boundary, cs)

/-- What a backslash stands for, after it. -/
def escape? (f : Flags) (cs : List Char) : Option (Primitive × List Char) := do
  match cs with
  | [] => none
  | c :: rest =>
    if c.isDigit then none
    else if c = 'x' ∨ c = 'u' ∨ c = 'U' then codeEscape? f c rest
    else if c = 'p' ∨ c = 'P' then propertyEscape? f (c = 'P') rest
    else if ['d', 's', 'w', 'D', 'S', 'W'].contains c then
      return (.set (← f.classLetter? c), rest)
    else if isEscapable c then return (.literal c false, rest)
    else
      let edge := fun (e : WordEdge) (rest : List Char) => (.anchor (.wordEdge e f.word), rest)
      match c with
      | 'a' => return (.literal '\x07' false, rest)
      | 'f' => return (.literal '\x0c' false, rest)
      | 't' => return (.literal '\t' false, rest)
      | 'n' => return (.literal '\n' false, rest)
      | 'r' => return (.literal '\r' false, rest)
      | 'v' => return (.literal '\x0b' false, rest)
      | 'A' => return (.anchor .textStart, rest)
      | 'z' => return (.anchor .textEnd, rest)
      | 'b' =>
        let (e, rest) ← boundary? f rest
        return edge e rest
      | 'B' => return edge .inside rest
      | '<' => return edge .start rest
      | '>' => return edge .stop rest
      | _ => none

end LanguageHost.Pattern
