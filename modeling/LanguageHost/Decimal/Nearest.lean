import LanguageHost.Decimal.Binary64

/-!
# The nearest double of a decimal

A positive fraction is rounded to the nearest double, a tie going to the even mantissa.  What lies
half a unit or more above the largest double becomes infinite.
-/

namespace LanguageHost.Decimal

/-- The quotient of two numbers, rounded to the nearest, a tie going to the even one. -/
def divNearest (num den : Nat) : Nat :=
  let q := num / den
  let rest := num % den
  if 2 * rest < den ∨ (2 * rest = den ∧ q % 2 = 0) then q else q + 1

/-- The least exponent of a double whose mantissa is a whole number. -/
def leastExponent : Int := -1074

/-- The fraction in units of `2 ^ exponent`, as a fraction. -/
def inUnits (num den : Nat) (exponent : Int) : Nat × Nat :=
  if 0 ≤ exponent then (num, den * Nat.pow 2 exponent.toNat)
  else (num * Nat.pow 2 (-exponent).toNat, den)

/-- The exponent of the doubles around a fraction. -/
def exponentAround (num den : Nat) : Int :=
  let guess : Int := (num.log2 : Int) - (den.log2 : Int) - 52
  let (n, d) := inUnits num den guess
  let exact := if n / d < Binary64.leadingBit then guess - 1 else guess
  max exact leastExponent

/-- The bits of the double nearest to a positive fraction. -/
def nearestBits (num den : Nat) : Nat :=
  let exponent := exponentAround num den
  let (n, d) := inUnits num den exponent
  let mantissa := divNearest n d
  let bits := (exponent - leastExponent).toNat * Binary64.leadingBit + mantissa
  min bits Binary64.infinityBits

/-- The bits of the double nearest to `± digits · 10 ^ exponent`. -/
def nearest (negative : Bool) (digits : Nat) (exponent : Int) : UInt64 :=
  let sign : Nat := if negative then Word.half else 0
  let magnitude :=
    if digits = 0 then 0
    else
      let places := (Nat.toDigits 10 digits).length + exponent
      if 310 < places then Binary64.infinityBits
      else if places < -330 then 0
      else if 0 ≤ exponent then nearestBits (digits * Nat.pow 10 exponent.toNat) 1
      else nearestBits digits (Nat.pow 10 (-exponent).toNat)
  (sign + magnitude).toUInt64

end LanguageHost.Decimal
