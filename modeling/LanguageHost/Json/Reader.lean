import LanguageHost.Json.Value
import LanguageHost.Word

/-!
# Reading data values

A text is read by descent on the depth of nesting that is still allowed, with the items of an
array and the members of an object read in a loop over the rest of the text.  Of two members with
one name the later one counts.

A number without fraction and exponent that fits 64 bits is a whole number, except `-0`.  Any
other number is the double of its leading digits, as many as fit 64 bits, multiplied or divided by
a power of ten; a number too large for a double is refused.
-/

namespace LanguageHost.Json

/-- How many arrays and objects may stand inside each other. -/
def maxDepth : Nat := 127

/-- Whether a character may stand between the parts of a text. -/
def isSpace (c : Char) : Bool := c = ' ' || c = '\n' || c = '\t' || c = '\r'

/-- The text from its first part on. -/
def skipSpace (cs : List Char) : List Char := cs.dropWhile isSpace

/-- The value of a decimal digit. -/
def digitValue (c : Char) : Nat := c.toNat - '0'.toNat

/-- The value of a hexadecimal digit. -/
def hexValue? (c : Char) : Option Nat :=
  if '0' ≤ c ∧ c ≤ '9' then some (c.toNat - '0'.toNat)
  else if 'a' ≤ c ∧ c ≤ 'f' then some (c.toNat - 'a'.toNat + 10)
  else if 'A' ≤ c ∧ c ≤ 'F' then some (c.toNat - 'A'.toNat + 10)
  else none

/-- The value of hexadecimal digits. -/
def hexValues? (cs : List Char) : Option Nat :=
  cs.foldl (fun acc c => do return (← acc) * 16 + (← hexValue? c)) (some 0)

/-! ### Numbers -/

/-- Leading digits as a word of 64 bits, and how many digits were left out. -/
def significand (read : Nat) : List Char → Nat × Nat
  | [] => (read, 0)
  | c :: rest =>
    if read * 10 + digitValue c < Word.count then significand (read * 10 + digitValue c) rest
    else (read, rest.length + 1)

/-- `significand · 10 ^ exponent` as a double, `none` where it is too large; the fuel bounds the
divisions of a very small number. -/
def scaled (f : Float) (exponent : Int) : Nat → Option Float
  | 0 => some 0
  | fuel + 1 =>
    if exponent.natAbs ≤ 308 then
      let power := Float.ofScientific 1 false exponent.natAbs
      if 0 ≤ exponent then
        let g := f * power
        if g.isInf then none else some g
      else some (f / power)
    else if f == 0 then some f
    else if 0 ≤ exponent then none
    else scaled (f / Float.ofScientific 1 false 308) (exponent + 308) fuel

/-- The parts of a number as it is written. -/
structure Numeral where
  negative : Bool
  whole : List Char
  fraction : List Char
  exponent : Option (Bool × List Char)

/-- Digits at the front of a text. -/
def digits (cs : List Char) : List Char × List Char :=
  (cs.takeWhile Char.isDigit, cs.dropWhile Char.isDigit)

/-- The fraction of a number, if one follows; `none` for a point without digits. -/
def fraction? (cs : List Char) : Option (List Char × List Char) :=
  match cs with
  | '.' :: rest =>
    match digits rest with
    | ([], _) => none
    | ds => some ds
  | _ => some ([], cs)

/-- The digits of an exponent after its sign. -/
def exponentDigits? (negative : Bool) (cs : List Char) :
    Option (Option (Bool × List Char) × List Char) :=
  match digits cs with
  | ([], _) => none
  | (ds, rest) => some (some (negative, ds), rest)

/-- The exponent of a number, if one follows; `none` for one without digits. -/
def exponent? (cs : List Char) : Option (Option (Bool × List Char) × List Char) :=
  match cs with
  | 'e' :: '+' :: rest | 'E' :: '+' :: rest => exponentDigits? false rest
  | 'e' :: '-' :: rest | 'E' :: '-' :: rest => exponentDigits? true rest
  | 'e' :: rest | 'E' :: rest => exponentDigits? false rest
  | _ => some (none, cs)

/-- The whole part of a number: a zero, or digits that do not begin with one. -/
def whole? (cs : List Char) : Option (List Char × List Char) :=
  match cs with
  | '0' :: rest =>
    match rest with
    | c :: _ => if c.isDigit then none else some (['0'], rest)
    | [] => some (['0'], rest)
  | _ =>
    match digits cs with
    | ([], _) => none
    | ds => some ds

/-- A number at the front of a text. -/
def numeral? (cs : List Char) : Option (Numeral × List Char) := do
  let (negative, cs) :=
    match cs with
    | '-' :: rest => (true, rest)
    | _ => (false, cs)
  let (whole, cs) ← whole? cs
  let (fraction, cs) ← fraction? cs
  let (exponent, cs) ← exponent? cs
  return (⟨negative, whole, fraction, exponent⟩, cs)

/-- A decimal number of digits. -/
def natOfDigits (cs : List Char) : Nat := cs.foldl (fun n c => n * 10 + digitValue c) 0

/-- The largest exponent that is not taken for infinite. -/
def maxExponent : Nat := 2147483647

/-- The double of a number. -/
def Numeral.float? (n : Numeral) : Option Json :=
  let (head, dropped) := significand 0 n.whole
  let (all, unread) := significand head n.fraction
  let kept := n.fraction.length - unread
  let base : Int := (dropped : Int) - (kept : Int)
  let value? : Option Float :=
    match n.exponent with
    | none => scaled all.toUInt64.toFloat base 8
    | some (negative, ds) =>
      let e := natOfDigits ds
      if maxExponent < e then if all ≠ 0 ∧ !negative then none else some 0
      else scaled all.toUInt64.toFloat (if negative then base - e else base + e) 8
  value?.map fun f => float (if n.negative then -f else f).toBits

/-- The value of a number. -/
def Numeral.value? (n : Numeral) : Option Json :=
  let k := natOfDigits n.whole
  if n.fraction.isEmpty && n.exponent.isNone then
    if n.negative then
      if 0 < k ∧ k ≤ Word.half then some (int (-(k : Int))) else n.float?
    else if k < Word.count then some (int k)
    else n.float?
  else n.float?

/-! ### Strings -/

/-- The character of a code point, unless it is a surrogate. -/
def scalar? (code : Nat) : Option Char :=
  if code < 0xD800 ∨ (0xDFFF < code ∧ code < 0x110000) then some (Char.ofNat code) else none

/-- The characters of a string after its opening quote, and the text after its closing quote. -/
def string? : List Char → Option (List Char × List Char)
  | [] => none
  | '"' :: rest => some ([], rest)
  | '\\' :: 'u' :: a :: b :: c :: d :: '\\' :: 'u' :: e :: f :: g :: h :: rest => do
    let first ← hexValues? [a, b, c, d]
    if 0xD800 ≤ first ∧ first < 0xDC00 then
      let second ← hexValues? [e, f, g, h]
      if 0xDC00 ≤ second ∧ second < 0xE000 then
        let (cs, after) ← string? rest
        return (Char.ofNat (0x10000 + (first - 0xD800) * 0x400 + (second - 0xDC00)) :: cs, after)
      else none
    else
      let x ← scalar? first
      let (cs, after) ← string? ('\\' :: 'u' :: e :: f :: g :: h :: rest)
      return (x :: cs, after)
  | '\\' :: 'u' :: a :: b :: c :: d :: rest => do
    let x ← scalar? (← hexValues? [a, b, c, d])
    let (cs, after) ← string? rest
    return (x :: cs, after)
  | '\\' :: e :: rest => do
    let x ←
      match e with
      | '"' => some '"'
      | '\\' => some '\\'
      | '/' => some '/'
      | 'b' => some '\x08'
      | 'f' => some '\x0c'
      | 'n' => some '\n'
      | 'r' => some '\r'
      | 't' => some '\t'
      | _ => none
    let (cs, after) ← string? rest
    return (x :: cs, after)
  | c :: rest =>
    if c.toNat < 0x20 then none
    else do
      let (cs, after) ← string? rest
      return (c :: cs, after)

/-! ### Arrays and objects -/

/-- The items of an array up to its end, after an item's place has begun; every turn of the loop
uses up at least one character. -/
def items? (value? : List Char → Option (Json × List Char)) :
    Nat → List Char → Option (List Json × List Char)
  | 0, _ => none
  | fuel + 1, cs => do
    let (v, rest) ← value? cs
    match skipSpace rest with
    | ',' :: rest =>
      let (vs, after) ← items? value? fuel rest
      return (v :: vs, after)
    | ']' :: rest => return ([v], rest)
    | _ => none

/-- The members of an object up to its end, after a member's place has begun. -/
def members? (value? : List Char → Option (Json × List Char)) :
    Nat → List Char → Option (List (String × Json) × List Char)
  | 0, _ => none
  | fuel + 1, cs => do
    match skipSpace cs with
    | '"' :: cs =>
      let (name, rest) ← string? cs
      match skipSpace rest with
      | ':' :: rest =>
        let (v, rest) ← value? rest
        match skipSpace rest with
        | ',' :: rest =>
          let (vs, after) ← members? value? fuel rest
          return ((String.ofList name, v) :: vs, after)
        | '\x7d' :: rest => return ([(String.ofList name, v)], rest)
        | _ => none
      | _ => none
    | _ => none

/-- A value that is neither an array nor an object, or the end of one without contents. -/
def scalarValue? (cs : List Char) : Option (Json × List Char) :=
  match cs with
  | 'n' :: 'u' :: 'l' :: 'l' :: rest => some (null, rest)
  | 't' :: 'r' :: 'u' :: 'e' :: rest => some (bool true, rest)
  | 'f' :: 'a' :: 'l' :: 's' :: 'e' :: rest => some (bool false, rest)
  | '"' :: rest => (string? rest).map fun (s, after) => (str (String.ofList s), after)
  | _ => do
    let (n, rest) ← numeral? cs
    return (← n.value?, rest)

/-- A value at the front of a text, with at most so many arrays and objects inside each other. -/
def value? : Nat → List Char → Option (Json × List Char)
  | 0, cs =>
    match skipSpace cs with
    | '[' :: _ | '\x7b' :: _ => none
    | cs => scalarValue? cs
  | depth + 1, cs =>
    match skipSpace cs with
    | '[' :: rest =>
      match skipSpace rest with
      | ']' :: after => some (arr [], after)
      | _ => (items? (value? depth) (rest.length + 1) rest).map fun (vs, after) => (arr vs, after)
    | '\x7b' :: rest =>
      match skipSpace rest with
      | '\x7d' :: after => some (obj [], after)
      | _ =>
        (members? (value? depth) (rest.length + 1) rest).map fun (ms, after) =>
          (ofMembers ms, after)
    | cs => scalarValue? cs

/-- The value of a whole text, nested at most so deeply. -/
def readNested? (depth : Nat) (cs : List Char) : Option Json := do
  let (v, rest) ← value? depth cs
  if (skipSpace rest).isEmpty then some v else none

/-- The value of a whole text. -/
def read? (cs : List Char) : Option Json := readNested? maxDepth cs

end LanguageHost.Json
