/-!
# Sets of code points

A set of code points is a list of inclusive ranges in increasing order, no two of which touch.
Large sets are written down compactly: every range as the distance from the end of the range
before it and its length less one, each number in base 32 with the last digit from `0` to `v` and
the digits before it from `A`.
-/

namespace LanguageHost

/-- Inclusive ranges of code points. -/
abbrev CodeRanges := List (Nat × Nat)

namespace CodeRanges

/-- The largest code point. -/
def maxCode : Nat := 0x10FFFF

/-- Whether a code point lies in one of the ranges. -/
def contains (ranges : CodeRanges) (code : Nat) : Bool :=
  ranges.any fun r => r.1 ≤ code && code ≤ r.2

/-- A range put in front of ranges that start no earlier, joined with those it touches. -/
def push (r : Nat × Nat) : CodeRanges → CodeRanges
  | [] => [r]
  | s :: rest => if s.1 ≤ r.2 + 1 then push (r.1, max r.2 s.2) rest else r :: s :: rest

/-- Ranges in increasing order, none touching the next. -/
def normalize (ranges : CodeRanges) : CodeRanges :=
  (ranges.mergeSort fun a b => a.1 ≤ b.1).foldr push []

/-- The code points of either set. -/
def union (a b : CodeRanges) : CodeRanges := normalize (a ++ b)

/-- What of a set lies within one range. -/
def within (r : Nat × Nat) (ranges : CodeRanges) : CodeRanges :=
  ranges.filterMap fun s =>
    let lo := max r.1 s.1
    let hi := min r.2 s.2
    if lo ≤ hi then some (lo, hi) else none

/-- The code points of both sets. -/
def inter (a b : CodeRanges) : CodeRanges := normalize (a.flatMap fun r => within r b)

/-- The gaps between increasing ranges, from a code point on. -/
def gapsFrom (start : Nat) : CodeRanges → CodeRanges
  | [] => if start ≤ maxCode then [(start, maxCode)] else []
  | r :: rest =>
    if start < r.1 then (start, r.1 - 1) :: gapsFrom (r.2 + 1) rest
    else gapsFrom (max start (r.2 + 1)) rest

/-- The code points outside the set. -/
def complement (ranges : CodeRanges) : CodeRanges := gapsFrom 0 (normalize ranges)

/-- The code points of the first set that are not in the second. -/
def diff (a b : CodeRanges) : CodeRanges := inter a (complement b)

/-- The code points of exactly one of the two sets. -/
def symmDiff (a b : CodeRanges) : CodeRanges := union (diff a b) (diff b a)

/-! ### Compact notation -/

/-- A digit of the compact notation: its value, and whether it ends its number. -/
def digit? (c : Char) : Option (Nat × Bool) :=
  if '0' ≤ c ∧ c ≤ '9' then some (c.toNat - '0'.toNat, true)
  else if 'a' ≤ c ∧ c ≤ 'v' then some (c.toNat - 'a'.toNat + 10, true)
  else if 'A' ≤ c ∧ c ≤ 'Z' then some (c.toNat - 'A'.toNat, false)
  else if 'w' ≤ c ∧ c ≤ 'z' then some (c.toNat - 'w'.toNat + 26, false)
  else if c = '+' then some (30, false)
  else if c = '-' then some (31, false)
  else none

/-- The numbers of a compact text, after the digits of the first number read so far. -/
def numbersFrom (read : Nat) : List Char → List Nat
  | [] => []
  | c :: rest =>
    match digit? c with
    | none => numbersFrom read rest
    | some (d, true) => (read * 32 + d) :: numbersFrom 0 rest
    | some (d, false) => numbersFrom (read * 32 + d) rest

/-- The numbers of a compact text. -/
def numbers (text : String) : List Nat := numbersFrom 0 text.toList

/-- The ranges of distances and lengths, after a code point. -/
def rangesFrom (start : Nat) : List Nat → CodeRanges
  | gap :: len :: rest =>
    let first := start + gap
    (first, first + len) :: rangesFrom (first + len + 1) rest
  | _ => []

/-- The ranges of a compact text. -/
def ofCompact (text : String) : CodeRanges := rangesFrom 0 (numbers text)

/-- The code point changes of a compact text: distances from one code point to the next, each
with a signed amount, the even numbers for increases and the odd ones for decreases. -/
def shiftsFrom (start : Nat) : List Nat → List (Nat × Int)
  | gap :: shift :: rest =>
    let amount : Int := if shift % 2 = 0 then (shift / 2 : Nat) else -((shift + 1) / 2 : Nat)
    (start + gap, amount) :: shiftsFrom (start + gap) rest
  | _ => []

end CodeRanges

end LanguageHost
