import LanguageHost.Text.Age
import LanguageHost.Text.Blank
import LanguageHost.Text.Category
import LanguageHost.Text.Folding
import LanguageHost.Text.Property
import LanguageHost.Text.Script
import LanguageHost.Text.Segment

/-!
# Flags of patterns and the sets that depend on them

The flags that are set at a place of a pattern decide which characters a set contains there:
whether case counts, and whether sets are about all characters or about ASCII only.  Without
Unicode a set may not contain anything beyond ASCII.
-/

namespace LanguageHost.Pattern

/-- The flags that are set at a place of a pattern. -/
structure Flags where
  ignoreCase : Bool
  multiLine : Bool
  dotAll : Bool
  unicode : Bool
  anyNewline : Bool
  /-- Whether blanks and comments may stand between the parts of the pattern. -/
  verbose : Bool
  deriving Repr, DecidableEq

namespace Flags

/-- The flags at the start of a pattern. -/
def usual : Flags := ⟨false, false, false, true, false, false⟩

/-- Sets or clears the flag of a letter. -/
def set? (f : Flags) (letter : Char) (on : Bool) : Option Flags :=
  match letter with
  | 'i' => some { f with ignoreCase := on }
  | 'm' => some { f with multiLine := on }
  | 's' => some { f with dotAll := on }
  | 'u' => some { f with unicode := on }
  | 'R' => some { f with anyNewline := on }
  | 'x' => some { f with verbose := on }
  | 'U' => some f
  | _ => none

/-! ### Sets -/

/-- The ASCII letters of a set in both cases. -/
def foldAscii (codes : CodeRanges) : CodeRanges :=
  let upper := CodeRanges.within (65, 90) codes
  let lower := CodeRanges.within (97, 122) codes
  codes.union ((upper.map fun r => (r.1 + 32, r.2 + 32)) ++ lower.map fun r => (r.1 - 32, r.2 - 32))

/-- A set with what differs in case only, where case does not count. -/
def fold (f : Flags) (codes : CodeRanges) : CodeRanges :=
  if !f.ignoreCase then codes
  else if f.unicode then Text.Folding.close codes
  else foldAscii codes

/-- Everything outside a set. -/
def complement (f : Flags) (codes : CodeRanges) : CodeRanges :=
  if f.unicode then codes.complement else CodeRanges.within (0, 255) codes.complement

/-- A set, or none if it goes beyond what the flags allow. -/
def allowed? (f : Flags) (codes : CodeRanges) : Option CodeRanges :=
  if f.unicode || codes.all fun r => r.2 < 128 then some codes else none

/-- A set or everything outside of it, after taking case into account. -/
def finish? (f : Flags) (negated : Bool) (codes : CodeRanges) : Option CodeRanges :=
  let codes := f.fold codes
  f.allowed? (if negated then f.complement codes else codes)

/-- The characters of words. -/
def word (f : Flags) : CodeRanges :=
  if f.unicode then Text.Property.word else [(48, 57), (65, 90), (95, 95), (97, 122)]

/-- The set of a class letter, one of `d`, `s` and `w` in either case. -/
def classLetter? (f : Flags) (letter : Char) : Option CodeRanges :=
  let digit := if f.unicode then (Text.Category.find? "nd").getD [] else [(48, 57)]
  let space := if f.unicode then Text.Property.space else [(9, 13), (32, 32)]
  match letter with
  | 'd' => some digit
  | 's' => some space
  | 'w' => some f.word
  | 'D' => f.allowed? (f.complement digit)
  | 'S' => f.allowed? (f.complement space)
  | 'W' => f.allowed? (f.complement f.word)
  | _ => none

/-- All characters but the ends of lines, or all characters. -/
def dot? (f : Flags) : Option CodeRanges :=
  if !f.unicode then none
  else if f.dotAll then some [(0, CodeRanges.maxCode)]
  else if f.anyNewline then some [(0, 9), (11, 12), (14, CodeRanges.maxCode)]
  else some [(0, 9), (11, CodeRanges.maxCode)]

end Flags

/-- The sets of ASCII characters with a name. -/
def asciiClasses : List (String × CodeRanges) := [
  ("alnum", [(48, 57), (65, 90), (97, 122)]),
  ("alpha", [(65, 90), (97, 122)]),
  ("ascii", [(0, 127)]),
  ("blank", [(9, 9), (32, 32)]),
  ("cntrl", [(0, 31), (127, 127)]),
  ("digit", [(48, 57)]),
  ("graph", [(33, 126)]),
  ("lower", [(97, 122)]),
  ("print", [(32, 126)]),
  ("punct", [(33, 47), (58, 64), (91, 96), (123, 126)]),
  ("space", [(9, 13), (32, 32)]),
  ("upper", [(65, 90)]),
  ("word", [(48, 57), (65, 90), (95, 95), (97, 122)]),
  ("xdigit", [(48, 57), (65, 70), (97, 102)])]

/-! ### Properties by name -/

/-- The characters of a name that count: in lower case, without separators and what is not ASCII. -/
def looseChars (cs : List Char) : List Char :=
  (cs.filter fun c => c ≠ ' ' && c ≠ '_' && c ≠ '-' && c.toNat < 128).map Char.toLower

/-- A name as it is looked up; an `is` in front of it does not count. -/
def looseName (cs : List Char) : String :=
  match cs with
  | i :: s :: rest =>
    if i.toLower = 'i' ∧ s.toLower = 's' then
      let name := looseChars rest
      if name = ['c'] then "isc" else String.ofList name
    else String.ofList (looseChars cs)
  | _ => String.ofList (looseChars cs)

/-- The code points of a general category, or of one of three sets beside them. -/
def category? (name : String) : Option CodeRanges :=
  match name with
  | "any" => some [(0, CodeRanges.maxCode)]
  | "ascii" => some [(0, 127)]
  | "assigned" => (Text.Category.find? "cn").map CodeRanges.complement
  | _ => Text.Category.find? name

/-- Names of categories that are also short names of properties without a set. -/
def categoriesFirst : List String := ["cf", "sc", "lc"]

/-- The set of a property, a general category or a script. -/
def property? (name : List Char) : Option CodeRanges :=
  let name := looseName name
  let byProperty := if name ∈ categoriesFirst then none else Text.Property.find? name
  byProperty <|> category? name <|> Text.Script.find? name

/-- The set of a value of a property with several values. -/
def propertyValue? (property value : List Char) : Option CodeRanges :=
  let value := looseName value
  match looseName property with
  | "gc" | "generalcategory" | "category" => category? value
  | "sc" | "script" => Text.Script.find? value
  | "scx" | "scriptextensions" => Text.Script.extended? value
  | "age" => Text.Age.find? value
  | "gcb" | "graphemeclusterbreak" => Text.Segment.find? Text.Segment.graphemeTable value
  | "wb" | "wordbreak" => Text.Segment.find? Text.Segment.wordTable value
  | "sb" | "sentencebreak" => Text.Segment.find? Text.Segment.sentenceTable value
  | _ => none

end LanguageHost.Pattern
