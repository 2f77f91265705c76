import LanguageHost.Decimal.Nearest
import LanguageHost.Json.Reader
import LanguageHost.Word

/-!
# Blanks, strings, numbers and dates of a TOML document

Every reader takes the text from its place on and gives what it read together with the text after
it.  A date or time is a text of its own in the one form in which it is written back.
-/

namespace LanguageHost.Toml

/-! ### Blanks and comments -/

/-- Whether a character is blank within a line. -/
def isBlank (c : Char) : Bool := c = ' ' || c = '\t'

/-- The text after blanks. -/
def skipBlanks (cs : List Char) : List Char := cs.dropWhile isBlank

/-- The text after an end of line, if one stands here. -/
def newline? : List Char → Option (List Char)
  | '\n' :: rest => some rest
  | '\r' :: '\n' :: rest => some rest
  | _ => none

/-- Whether a character may stand in a comment. -/
def isCommentChar (c : Char) : Bool := c = '\t' || (0x20 ≤ c.toNat && c.toNat ≠ 0x7F)

/-- The text after a comment, if one begins here. -/
def skipComment : List Char → List Char
  | '#' :: rest => rest.dropWhile isCommentChar
  | cs => cs

/-- The text after the rest of a line: blanks, a comment and the end of the line or the text. -/
def endOfLine? (cs : List Char) : Option (List Char) :=
  match skipComment (skipBlanks cs) with
  | [] => some []
  | cs => newline? cs

/-- The text after blanks, comments and ends of lines. -/
def skipLines : Nat → List Char → List Char
  | 0, cs => cs
  | fuel + 1, cs =>
    let after := skipComment (skipBlanks cs)
    match newline? after with
    | some rest => skipLines fuel rest
    | none => after

/-! ### Strings -/

/-- Whether a character may stand in a string as it is, line ends and quotes aside. -/
def isStringChar (c : Char) : Bool := c = '\t' || (0x20 ≤ c.toNat && c.toNat ≠ 0x7F)

/-- The character of `n` hexadecimal digits at the front of a text. -/
def codePoint? (n : Nat) (cs : List Char) : Option (Char × List Char) :=
  if (cs.take n).length = n then do
    let c ← Json.scalar? (← Json.hexValues? (cs.take n))
    return (c, cs.drop n)
  else none

/-- The character that an escape stands for, after its backslash. -/
def escape? : List Char → Option (Char × List Char)
  | 'b' :: rest => some ('\x08', rest)
  | 'f' :: rest => some ('\x0c', rest)
  | 'n' :: rest => some ('\n', rest)
  | 'r' :: rest => some ('\r', rest)
  | 't' :: rest => some ('\t', rest)
  | '"' :: rest => some ('"', rest)
  | '\\' :: rest => some ('\\', rest)
  | 'u' :: rest => codePoint? 4 rest
  | 'U' :: rest => codePoint? 8 rest
  | _ => none

/-- A string within one line up to its closing double quote. -/
def basic? : Nat → List Char → Option (List Char × List Char)
  | 0, _ => none
  | fuel + 1, cs => do
    match cs with
    | '"' :: rest => return ([], rest)
    | '\\' :: rest =>
      let (c, rest) ← escape? rest
      let (s, after) ← basic? fuel rest
      return (c :: s, after)
    | c :: rest =>
      if isStringChar c then
        let (s, after) ← basic? fuel rest
        return (c :: s, after)
      else none
    | [] => none

/-- A string without escapes within one line up to its closing single quote. -/
def literal? (cs : List Char) : Option (List Char × List Char) :=
  let inside := fun c => isStringChar c && c ≠ '\''
  match cs.dropWhile inside with
  | '\'' :: rest => some (cs.takeWhile inside, rest)
  | _ => none

/-- How many copies of a quote stand at the front of a text, and the text after them. -/
def quoteRun (quote : Char) (cs : List Char) : Nat × List Char :=
  ((cs.takeWhile (· = quote)).length, cs.dropWhile (· = quote))

/-- The text after a backslash at the end of a line: all blanks and ends of lines are left out. -/
def joinLines? (cs : List Char) : Option (List Char) :=
  (newline? (skipBlanks cs)).map fun rest =>
    rest.dropWhile fun c => isBlank c || c = '\n' || c = '\r'

/-- A string of several lines up to its three closing quotes, in front of which up to two quotes
belong to the string; escapes count between double quotes only. -/
def multiline? (quote : Char) : Nat → List Char → Option (List Char × List Char)
  | 0, _ => none
  | fuel + 1, cs => do
    match newline? cs with
    | some rest =>
      let (s, after) ← multiline? quote fuel rest
      return ('\n' :: s, after)
    | none =>
      match cs with
      | [] => none
      | c :: rest =>
        if c = quote then
          let (n, rest) := quoteRun quote cs
          if 3 ≤ n then
            let own := min (n - 3) 2
            return (List.replicate own quote, List.replicate (n - 3 - own) quote ++ rest)
          else
            let (s, after) ← multiline? quote fuel rest
            return (List.replicate n quote ++ s, after)
        else if c = '\\' ∧ quote = '"' then
          match joinLines? rest with
          | some rest => multiline? quote fuel rest
          | none =>
            let (e, rest) ← escape? rest
            let (s, after) ← multiline? quote fuel rest
            return (e :: s, after)
        else if isStringChar c then
          let (s, after) ← multiline? quote fuel rest
          return (c :: s, after)
        else none

/-- The text after an end of line that directly follows opening quotes. -/
def dropFirstNewline (cs : List Char) : List Char := (newline? cs).getD cs

/-- A string of one line, as it may be used for a key. -/
def lineString? : List Char → Option (List Char × List Char)
  | '"' :: rest => basic? (rest.length + 1) rest
  | '\'' :: rest => literal? rest
  | _ => none

/-- A string of any form. -/
def string? (cs : List Char) : Option (List Char × List Char) :=
  match cs with
  | '"' :: '"' :: '"' :: rest => multiline? '"' (rest.length + 1) (dropFirstNewline rest)
  | '\'' :: '\'' :: '\'' :: rest => multiline? '\'' (rest.length + 1) (dropFirstNewline rest)
  | _ => lineString? cs

/-! ### Numbers -/

/-- Digits with single underscores between them, given without the underscores; a digit is owed at
the front and after an underscore. -/
def digitsFrom? (isDigit : Char → Bool) : Bool → List Char → Option (List Char × List Char)
  | owed, [] => if owed then none else some ([], [])
  | owed, c :: rest =>
    if isDigit c then (digitsFrom? isDigit false rest).map fun (ds, after) => (c :: ds, after)
    else if owed then none
    else if c = '_' then digitsFrom? isDigit true rest
    else some ([], c :: rest)

/-- One digit or more with single underscores between them. -/
def digitRun? (isDigit : Char → Bool) (cs : List Char) : Option (List Char × List Char) :=
  digitsFrom? isDigit true cs

/-- An optional sign: whether it is a minus. -/
def sign (cs : List Char) : Bool × List Char :=
  match cs with
  | '-' :: rest => (true, rest)
  | '+' :: rest => (false, rest)
  | _ => (false, cs)

/-- The digits of a whole number that does not begin with a zero, unless it is one. -/
def decimal? : List Char → Option (List Char × List Char)
  | '0' :: rest => some (['0'], rest)
  | cs => digitRun? Char.isDigit cs

/-- The exponent of a number, if one is written: zero if none is. -/
def exponent? (cs : List Char) : Option (Int × List Char) :=
  let read := fun rest => do
    let (negative, rest) := sign rest
    let (ds, rest) ← digitRun? Char.isDigit rest
    let e : Int := Json.natOfDigits ds
    return (if negative then -e else e, rest)
  match cs with
  | 'e' :: rest | 'E' :: rest => read rest
  | _ => some (0, cs)

/-- A number with a fraction or an exponent; none is as large as infinity. -/
def float? (cs : List Char) : Option (Json × List Char) := do
  let (negative, cs) := sign cs
  match cs with
  | 'i' :: 'n' :: 'f' :: rest =>
    return (.float (if negative then 0xFFF0000000000000 else 0x7FF0000000000000), rest)
  | 'n' :: 'a' :: 'n' :: rest =>
    return (.float (if negative then 0xFFF8000000000000 else 0x7FF8000000000000), rest)
  | _ =>
    let (whole, cs) ← decimal? cs
    let (fraction, cs) ←
      match cs with
      | '.' :: rest => digitRun? Char.isDigit rest
      | 'e' :: _ | 'E' :: _ => some ([], cs)
      | _ => none
    let (e, cs) ← exponent? cs
    let bits :=
      Decimal.nearest negative (Json.natOfDigits (whole ++ fraction)) (e - fraction.length)
    if bits = 0x7FF0000000000000 then none else return (.float bits, cs)

/-- A whole number with 64 bits. -/
def int64? (n : Int) : Option Json :=
  if -(Word.half : Int) ≤ n ∧ n < Word.half then some (.int n) else none

/-- Whether a character is a digit of a base up to sixteen. -/
def isDigitOf (base : Nat) (c : Char) : Bool := (Json.hexValue? c).any (· < base)

/-- A whole number in another base, after the letter for the base. -/
def based? (base : Nat) (cs : List Char) : Option (Json × List Char) := do
  let (ds, rest) ← digitRun? (isDigitOf base) cs
  let n := ds.foldl (fun n c => n * base + (Json.hexValue? c).getD 0) 0
  return (← int64? n, rest)

/-- A whole number. -/
def integer? (cs : List Char) : Option (Json × List Char) :=
  match cs with
  | '0' :: 'x' :: rest => based? 16 rest
  | '0' :: 'o' :: rest => based? 8 rest
  | '0' :: 'b' :: rest => based? 2 rest
  | _ => do
    let (negative, cs) := sign cs
    let (ds, rest) ← decimal? cs
    let n : Int := Json.natOfDigits ds
    return (← int64? (if negative then -n else n), rest)

/-! ### Dates and times -/

/-- A number of exactly `n` digits within bounds, given as its digits. -/
def field? (n least most : Nat) (cs : List Char) : Option (List Char × List Char) :=
  let ds := cs.take n
  let v := Json.natOfDigits ds
  if ds.length = n ∧ ds.all Char.isDigit ∧ least ≤ v ∧ v ≤ most then some (ds, cs.drop n) else none

/-- The text after a given character. -/
def mark? (c : Char) : List Char → Option (List Char)
  | d :: rest => if c = d then some rest else none
  | [] => none

/-- How many days a month has. -/
def daysOf (year month : Nat) : Nat :=
  if month = 2 then
    if year % 4 = 0 ∧ (year % 100 ≠ 0 ∨ year % 400 = 0) then 29 else 28
  else if month ∈ [4, 6, 9, 11] then 30
  else 31

/-- A date. -/
def date? (cs : List Char) : Option (List Char × List Char) := do
  let (year, cs) ← field? 4 0 9999 cs
  let cs ← mark? '-' cs
  let (month, cs) ← field? 2 1 12 cs
  let cs ← mark? '-' cs
  let (day, cs) ← field? 2 1 (daysOf (Json.natOfDigits year) (Json.natOfDigits month)) cs
  return (year ++ '-' :: month ++ '-' :: day, cs)

/-- A fraction of a second as it is written back: nine places at most, no zeros at the end. -/
def fractionText (ds : List Char) : List Char :=
  match ((ds.take 9).reverse.dropWhile (· = '0')).reverse with
  | [] => []
  | ds => '.' :: ds

/-- A time of day. -/
def time? (cs : List Char) : Option (List Char × List Char) := do
  let (hour, cs) ← field? 2 0 23 cs
  let cs ← mark? ':' cs
  let (minute, cs) ← field? 2 0 59 cs
  let cs ← mark? ':' cs
  let (second, cs) ← field? 2 0 60 cs
  let whole := hour ++ ':' :: minute ++ ':' :: second
  match cs with
  | '.' :: d :: rest =>
    if d.isDigit then
      let ds := (d :: rest).takeWhile Char.isDigit
      return (whole ++ fractionText ds, (d :: rest).dropWhile Char.isDigit)
    else return (whole, cs)
  | _ => return (whole, cs)

/-- An offset from universal time; none is written with a minus sign. -/
def offset? (cs : List Char) : Option (List Char × List Char) :=
  let read := fun (sign : Char) (rest : List Char) => do
    let (hour, rest) ← field? 2 0 23 rest
    let rest ← mark? ':' rest
    let (minute, rest) ← field? 2 0 59 rest
    let sign := if (hour ++ minute).all (· = '0') then '+' else sign
    return (sign :: hour ++ ':' :: minute, rest)
  match cs with
  | 'Z' :: rest | 'z' :: rest => some (['Z'], rest)
  | '+' :: rest => read '+' rest
  | '-' :: rest => read '-' rest
  | _ => none

/-- A time of day after a date, and perhaps its offset. -/
def timeAfterDate? (cs : List Char) : Option (List Char × List Char) := do
  let (time, cs) ←
    match cs with
    | 'T' :: rest | 't' :: rest | ' ' :: rest => time? rest
    | _ => none
  match offset? cs with
  | some (offset, cs) => return ('T' :: time ++ offset, cs)
  | none => return ('T' :: time, cs)

/-- A date, a time of day, or both. -/
def dateTime? (cs : List Char) : Option (List Char × List Char) :=
  match date? cs with
  | some (date, cs) =>
    match timeAfterDate? cs with
    | some (time, cs) => some (date ++ time, cs)
    | none => some (date, cs)
  | none => time? cs

/-- A date, a time of day or a number. -/
def numeric? (cs : List Char) : Option (Json × List Char) :=
  match dateTime? cs with
  | some (t, rest) => some (.str (String.ofList t), rest)
  | none => float? cs <|> integer? cs

end LanguageHost.Toml
