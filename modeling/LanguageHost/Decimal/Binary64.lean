import LanguageHost.Word

/-!
# Doubles as bits

A double is kept as its 64 bits, which determine it completely, signed zeros and all.  A finite
one is `± mantissa · 2 ^ exponent`.
-/

namespace LanguageHost.Decimal

/-- The parts of a double. -/
inductive Binary64 where
  /-- A finite value; `atPowerOfTwo` when the next smaller double is half as far away as the next
  larger one. -/
  | finite (negative : Bool) (mantissa : Nat) (exponent : Int) (atPowerOfTwo : Bool)
  | infinite (negative : Bool)
  | notANumber
  deriving Repr, DecidableEq

namespace Binary64

/-- The value of the leading bit of a mantissa, and of the lowest bit of the exponent's field. -/
def leadingBit : Nat := 0x10000000000000

/-- The bits of the positive infinite double. -/
def infinityBits : Nat := 0x7FF0000000000000

/-- Takes the bits of a double apart. -/
def ofBits (bits : UInt64) : Binary64 :=
  let n := bits.toNat
  let negative := Word.half ≤ n
  let field : Nat := n / leadingBit % 2048
  let fraction : Nat := n % leadingBit
  if field = 2047 then if fraction = 0 then infinite negative else notANumber
  else if field = 0 then finite negative fraction (-1074) false
  else finite negative (leadingBit + fraction) ((field : Int) - 1075) (fraction = 0 ∧ 1 < field)

/-- Whether the bits are those of a number, neither infinite nor undefined. -/
def isFinite (bits : UInt64) : Bool :=
  match ofBits bits with
  | finite .. => true
  | _ => false

end Binary64

end LanguageHost.Decimal
