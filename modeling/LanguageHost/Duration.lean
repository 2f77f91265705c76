/-!
# Lengths of time

A duration is a whole number of nanoseconds.  It is written in the largest of the units `s`,
`ms`, `µs` and `ns` that makes it at least one, with a decimal fraction that ends in no zero.
-/

namespace LanguageHost

/-- A length of time in nanoseconds. -/
structure Duration where
  nanos : Nat
  deriving DecidableEq, Repr, Inhabited

namespace Duration

/-- Whole seconds and nanoseconds together. -/
def ofParts (secs nanos : Nat) : Duration := ⟨secs * 1000000000 + nanos⟩

/-- Whole seconds. -/
def ofSecs (secs : Nat) : Duration := ofParts secs 0

/-- Whole milliseconds. -/
def ofMillis (ms : Nat) : Duration := ⟨ms * 1000000⟩

/-- The whole milliseconds of a duration. -/
def toMillis (d : Duration) : Nat := d.nanos / 1000000

/-- The digits of a fraction with `width` places, without the zeros at its end. -/
def fractionDigits (fraction width : Nat) : List Char :=
  let digits := Nat.toDigits 10 fraction
  let padded := List.replicate (width - digits.length) '0' ++ digits
  (padded.reverse.dropWhile (· == '0')).reverse

/-- An amount of nanoseconds in a unit of `10 ^ width` nanoseconds. -/
def inUnit (nanos width : Nat) (unit : String) : String :=
  let fraction := fractionDigits (nanos % Nat.pow 10 width) width
  let tail := if fraction.isEmpty then "" else "." ++ String.ofList fraction
  toString (nanos / Nat.pow 10 width) ++ tail ++ unit

/-- The text of a duration, such as `1.5ms` or `30s`. -/
def render (d : Duration) : String :=
  if 1000000000 ≤ d.nanos then inUnit d.nanos 9 "s"
  else if 1000000 ≤ d.nanos then inUnit d.nanos 6 "ms"
  else if 1000 ≤ d.nanos then inUnit d.nanos 3 "µs"
  else inUnit d.nanos 0 "ns"

end Duration

end LanguageHost
