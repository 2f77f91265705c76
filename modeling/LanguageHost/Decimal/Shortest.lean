import LanguageHost.Decimal.Binary64

/-!
# The shortest decimal of a double

Among the decimals that are read back as a given double, the shortest one has the fewest digits,
and of those with equally many it is the nearest to the double.  For one digit, two digits and so
on up to seventeen, the two decimals next to the double on the grid of that many digits are
tried in exact arithmetic.
-/

namespace LanguageHost.Decimal

/-- A positive fraction. -/
structure Fraction where
  num : Nat
  den : Nat
  deriving Repr, DecidableEq

namespace Fraction

/-- The fraction times a power of ten. -/
def scale (q : Fraction) (k : Int) : Fraction :=
  if 0 ≤ k then ⟨q.num * Nat.pow 10 k.toNat, q.den⟩
  else ⟨q.num, q.den * Nat.pow 10 (-k).toNat⟩

/-- The number of places to move the point so that the fraction lies between a tenth and one,
counting from `places`. -/
def placesFrom (q : Fraction) : Nat → Int → Int
  | 0, places => places
  | fuel + 1, places =>
    if q.den ≤ q.num then placesFrom ⟨q.num, q.den * 10⟩ fuel (places + 1)
    else if q.num * 10 < q.den then placesFrom ⟨q.num * 10, q.den⟩ fuel (places - 1)
    else places

end Fraction

/-- The reals that are read as a double: its exact value, the bounds on both sides, and whether
the bounds themselves are among them. -/
structure Rounding where
  value : Fraction
  low : Fraction
  high : Fraction
  closed : Bool

namespace Rounding

/-- The rounding interval of `mantissa · 2 ^ exponent`. -/
def of (mantissa : Nat) (exponent : Int) (atPowerOfTwo : Bool) : Rounding :=
  let unit := if 0 ≤ exponent then Nat.pow 2 exponent.toNat else 1
  let den := if 0 ≤ exponent then 4 else 4 * Nat.pow 2 (-exponent).toNat
  let below := if atPowerOfTwo then unit else 2 * unit
  { value := ⟨4 * mantissa * unit, den⟩
    low := ⟨4 * mantissa * unit - below, den⟩
    high := ⟨4 * mantissa * unit + 2 * unit, den⟩
    closed := mantissa % 2 = 0 }

/-- Whether a decimal `digits · 10 ^ k` is read as the double. -/
def holds (r : Rounding) (digits : Nat) (k : Int) : Bool :=
  let low := r.low.scale (-k)
  let high := r.high.scale (-k)
  if r.closed then low.num ≤ digits * low.den && digits * high.den ≤ high.num
  else low.num < digits * low.den && digits * high.den < high.num

/-- The decimal with the last digit at the place `k` that is read as the double and lies nearest
to it, if there is one. -/
def nearest? (r : Rounding) (k : Int) : Option Nat :=
  let v := r.value.scale (-k)
  let d := v.num / v.den
  let rest := v.num % v.den
  match r.holds d k, r.holds (d + 1) k with
  | true, true => some (if 2 * rest < v.den ∨ (2 * rest = v.den ∧ d % 2 = 0) then d else d + 1)
  | true, false => some d
  | false, true => some (d + 1)
  | false, false => none

/-- Tries `n` digits, then one more, as often as the fuel allows. -/
def search (r : Rounding) (places : Int) : Nat → Nat → Nat × Int
  | 0, n => (r.value.num / r.value.den, places - n)
  | fuel + 1, n =>
    match r.nearest? (places - n) with
    | some d => (d, places - n)
    | none => search r places fuel (n + 1)

end Rounding

/-- A decimal without the zeros at its end. -/
def dropZeros : Nat → Nat × Int → Nat × Int
  | 0, d => d
  | fuel + 1, (d, k) => if d ≠ 0 ∧ d % 10 = 0 then dropZeros fuel (d / 10, k + 1) else (d, k)

/-- The digits and the exponent of the shortest decimal of a positive double. -/
def shortest (mantissa : Nat) (exponent : Int) (atPowerOfTwo : Bool) : Nat × Int :=
  let r := Rounding.of mantissa exponent atPowerOfTwo
  dropZeros 20 (r.search (r.value.placesFrom 400 0) 17 1)

/-! ### Writing decimals -/

/-- `digits · 10 ^ k` with a point and no exponent; `wholeMark` follows a whole number. -/
def positional (digits : List Char) (k : Int) (wholeMark : String) : String :=
  if 0 ≤ k then String.ofList (digits ++ List.replicate k.toNat '0') ++ wholeMark
  else
    let places := (-k).toNat
    let padded := List.replicate (places + 1 - digits.length) '0' ++ digits
    let whole := padded.take (padded.length - places)
    String.ofList (whole ++ '.' :: padded.drop (padded.length - places))

/-- `digits · 10 ^ k` with one digit before the point and a signed exponent. -/
def scientific (digits : List Char) (k : Int) : String :=
  let e := k + digits.length - 1
  let mantissa :=
    match digits with
    | [] => []
    | [d] => [d]
    | d :: rest => d :: '.' :: rest
  String.ofList mantissa ++ "e" ++ (if 0 ≤ e then "+" else "-") ++ toString e.natAbs

/-- How doubles are written: in which decimal exponents without an exponent of their own, what
follows a whole number, and the texts of values that are not finite. -/
structure Style where
  positionalFrom : Int
  positionalTo : Int
  wholeMark : String
  infinity : String
  notANumber : String

/-- The text of a double in a style. -/
def render (style : Style) (bits : UInt64) : String :=
  match Binary64.ofBits bits with
  | .notANumber => style.notANumber
  | .infinite negative => (if negative then "-" else "") ++ style.infinity
  | .finite negative mantissa exponent atPowerOfTwo =>
    let sign := if negative then "-" else ""
    if mantissa = 0 then sign ++ "0" ++ style.wholeMark
    else
      let (d, k) := shortest mantissa exponent atPowerOfTwo
      let digits := Nat.toDigits 10 d
      let e := k + digits.length - 1
      if style.positionalFrom ≤ e ∧ e ≤ style.positionalTo then
        sign ++ positional digits k style.wholeMark
      else sign ++ scientific digits k

/-- Doubles written without an exponent at all. -/
def plain : Style :=
  { positionalFrom := -400, positionalTo := 400, wholeMark := "", infinity := "inf",
    notANumber := "NaN" }

end LanguageHost.Decimal
