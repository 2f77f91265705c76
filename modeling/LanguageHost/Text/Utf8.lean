/-!
# Decoding octets as UTF-8

Octets are read as UTF-8 one at a time.  Where they cannot be continued to a character, the
longest part that could have begun one becomes U+FFFD, and the octet that was refused is read
again as the start of the next character.
-/

namespace LanguageHost.Text.Utf8

/-- The character written for octets that are not UTF-8. -/
def replacement : Char := Char.ofNat 0xFFFD

/-- Within a character: the value of its octets so far, how many octets are still owed, and the
bounds of the next one. -/
structure Open where
  value : Nat
  owed : Nat
  low : Nat
  high : Nat
  deriving Repr, DecidableEq

/-- What the first octet of a character begins: a whole character, an open one, or nothing. -/
inductive First where
  | whole (c : Char)
  | opens (o : Open)
  | refused

/-- Reads the first octet of a character. -/
def first (b : Nat) : First :=
  if b ≤ 0x7F then .whole (Char.ofNat b)
  else if 0xC2 ≤ b ∧ b ≤ 0xDF then .opens ⟨b - 0xC0, 1, 0x80, 0xBF⟩
  else if b = 0xE0 then .opens ⟨0, 2, 0xA0, 0xBF⟩
  else if b = 0xED then .opens ⟨0xD, 2, 0x80, 0x9F⟩
  else if 0xE1 ≤ b ∧ b ≤ 0xEF then .opens ⟨b - 0xE0, 2, 0x80, 0xBF⟩
  else if b = 0xF0 then .opens ⟨0, 3, 0x90, 0xBF⟩
  else if b = 0xF4 then .opens ⟨4, 3, 0x80, 0x8F⟩
  else if 0xF1 ≤ b ∧ b ≤ 0xF3 then .opens ⟨b - 0xF0, 3, 0x80, 0xBF⟩
  else .refused

/-- The characters of octets, in the middle of a character or between two. -/
def decodeFrom : Option Open → List UInt8 → List Char
  | none, [] => []
  | some _, [] => [replacement]
  | none, b :: rest =>
    match first b.toNat with
    | .whole c => c :: decodeFrom none rest
    | .opens o => decodeFrom (some o) rest
    | .refused => replacement :: decodeFrom none rest
  | some o, b :: rest =>
    if o.low ≤ b.toNat ∧ b.toNat ≤ o.high then
      let value := o.value * 64 + (b.toNat - 0x80)
      if o.owed ≤ 1 then Char.ofNat value :: decodeFrom none rest
      else decodeFrom (some ⟨value, o.owed - 1, 0x80, 0xBF⟩) rest
    else
      match first b.toNat with
      | .whole c => replacement :: c :: decodeFrom none rest
      | .opens p => replacement :: decodeFrom (some p) rest
      | .refused => replacement :: replacement :: decodeFrom none rest

/-- The characters of octets, U+FFFD where they are not UTF-8. -/
def decodeLossy (octets : List UInt8) : List Char := decodeFrom none octets

/-- The octets of a character. -/
def encodeChar (c : Char) : List UInt8 :=
  let n := c.toNat
  if n ≤ 0x7F then [n.toUInt8]
  else if n ≤ 0x7FF then [(0xC0 + n / 64).toUInt8, (0x80 + n % 64).toUInt8]
  else if n ≤ 0xFFFF then
    [(0xE0 + n / 4096).toUInt8, (0x80 + n / 64 % 64).toUInt8, (0x80 + n % 64).toUInt8]
  else
    [(0xF0 + n / 262144).toUInt8, (0x80 + n / 4096 % 64).toUInt8, (0x80 + n / 64 % 64).toUInt8,
      (0x80 + n % 64).toUInt8]

/-- The octets of characters. -/
def encode (cs : List Char) : List UInt8 := cs.flatMap encodeChar

end LanguageHost.Text.Utf8
