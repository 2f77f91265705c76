import LanguageHost.Toml.Scalar
import LanguageHost.Toml.Table

/-!
# Reading TOML documents

A document is read line by line into a `Draft`.  Values are read by descent on the depth of
nesting that is still allowed, with the items of an array and the entries of an inline table read
in a loop over the rest of the text.
-/

namespace LanguageHost.Toml

/-- How many arrays and inline tables may stand inside each other, and how many parts a key may
have. -/
def maxDepth : Nat := 79

/-! ### Keys -/

/-- Whether a character may stand in a key without quotes. -/
def isBareChar (c : Char) : Bool := c.isAlphanum || c = '_' || c = '-'

/-- One part of a key. -/
def keyPart? (cs : List Char) : Option (String × List Char) :=
  match cs with
  | '"' :: _ | '\'' :: _ => (lineString? cs).map fun (s, rest) => (String.ofList s, rest)
  | _ =>
    match cs.takeWhile isBareChar with
    | [] => none
    | name => some (String.ofList name, cs.dropWhile isBareChar)

/-- The parts of a key between dots. -/
def keyParts? : Nat → List Char → Option (List String × List Char)
  | 0, _ => none
  | fuel + 1, cs => do
    let (part, rest) ← keyPart? (skipBlanks cs)
    match skipBlanks rest with
    | '.' :: rest =>
      let (parts, after) ← keyParts? fuel rest
      return (part :: parts, after)
    | rest => return ([part], rest)

/-- A key: the parts in front of the last dot, and the last one. -/
def key? (cs : List Char) : Option ((List String × String) × List Char) := do
  let (parts, rest) ← keyParts? (cs.length + 1) cs
  if maxDepth < parts.length then none
  else return ((parts.dropLast, ← parts.getLast?), rest)

/-! ### Values -/

/-- The items of an array up to its end; a comma may follow the last one. -/
def items? (value? : List Char → Option (Json × List Char)) :
    Nat → List Char → Option (List Json × List Char)
  | 0, _ => none
  | fuel + 1, cs => do
    match skipLines (cs.length + 1) cs with
    | ']' :: rest => return ([], rest)
    | cs =>
      let (v, rest) ← value? cs
      match skipLines (rest.length + 1) rest with
      | ',' :: rest =>
        let (vs, after) ← items? value? fuel rest
        return (v :: vs, after)
      | ']' :: rest => return ([v], rest)
      | _ => none

/-- The entries of an inline table from an entry on up to its end, added to what it has so far. -/
def entries? (value? : List Char → Option (Json × List Char)) :
    Nat → Table → List Char → Option (Table × List Char)
  | 0, _, _ => none
  | fuel + 1, t, cs => do
    let ((path, key), rest) ← key? cs
    let rest ← mark? '=' rest
    let (v, rest) ← value? (skipBlanks rest)
    let t ← t.addValue? path key v
    match skipBlanks rest with
    | ',' :: rest => entries? value? fuel t rest
    | '\x7d' :: rest => return (t, rest)
    | _ => none

/-- A value that does not nest. -/
def scalar? (cs : List Char) : Option (Json × List Char) :=
  match cs with
  | '"' :: _ | '\'' :: _ => (string? cs).map fun (s, rest) => (.str (String.ofList s), rest)
  | 't' :: 'r' :: 'u' :: 'e' :: rest => some (.bool true, rest)
  | 'f' :: 'a' :: 'l' :: 's' :: 'e' :: rest => some (.bool false, rest)
  | _ => numeric? cs

/-- A value, with at most so many arrays and inline tables inside each other. -/
def value? : Nat → List Char → Option (Json × List Char)
  | 0, cs =>
    match cs with
    | '[' :: _ | '\x7b' :: _ => none
    | _ => scalar? cs
  | depth + 1, cs =>
    match cs with
    | '[' :: rest =>
      (items? (value? depth) (rest.length + 1) rest).map fun (vs, after) => (.arr vs, after)
    | '\x7b' :: rest =>
      match skipBlanks rest with
      | '\x7d' :: after => some (.obj [], after)
      | _ =>
        (entries? (value? depth) (rest.length + 1) .empty rest).map fun (t, after) =>
          (t.toJson, after)
    | _ => scalar? cs

/-! ### Lines -/

/-- A header or a key with its value, up to the end of the line. -/
def line? (d : Draft) (cs : List Char) : Option (Draft × List Char) :=
  match cs with
  | '[' :: '[' :: rest => do
    let ((path, key), rest) ← key? rest
    let rest ← mark? ']' rest
    let rest ← mark? ']' rest
    return (← d.beginRepeated? path key, ← endOfLine? rest)
  | '[' :: rest => do
    let ((path, key), rest) ← key? rest
    let rest ← mark? ']' rest
    return (← d.begin? path key, ← endOfLine? rest)
  | _ => do
    let ((path, key), rest) ← key? cs
    let rest ← mark? '=' rest
    let (v, rest) ← value? maxDepth (skipBlanks rest)
    return (← d.addValue? path key v, ← endOfLine? rest)

/-- All lines from here on; every turn of the loop uses up at least one character. -/
def lines? : Nat → Draft → List Char → Option Draft
  | 0, _, _ => none
  | fuel + 1, d, cs =>
    match skipLines (cs.length + 1) cs with
    | [] => some d
    | cs => do
      let (d, rest) ← line? d cs
      lines? fuel d rest

/-- The value of a document; a byte order mark in front of it is left out. -/
def read? (cs : List Char) : Option Json := do
  let cs := match cs with
    | c :: rest => if c.toNat = 0xFEFF then rest else cs
    | [] => cs
  let d ← lines? (cs.length + 1) .start cs
  return (← d.finish?).toJson

end LanguageHost.Toml
