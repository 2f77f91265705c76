/-!
# Words of 64 bits

Bounds of machine words as natural numbers, and how counters that are words go up and down.
-/

namespace LanguageHost.Word

/-- How many words there are. -/
def count : Nat := 0x10000000000000000

/-- The largest word. -/
def largest : Nat := 0xFFFFFFFFFFFFFFFF

/-- How many words have their first bit clear: the bound of the signed words. -/
def half : Nat := 0x8000000000000000

theorem largest_add_one : largest + 1 = count := rfl

theorem eq_zero_of_not_pos {w : UInt64} (h : ¬ 0 < w) : w = 0 := by
  rw [UInt64.lt_iff_toNat_lt] at h
  exact UInt64.toNat_inj.mp (Nat.eq_zero_of_not_pos h)

theorem pos_of_ne_zero {w : UInt64} (h : w ≠ 0) : 0 < w :=
  Decidable.by_contra fun hpos => h (eq_zero_of_not_pos hpos)

/-- A counter goes up by one as long as it is not the largest word. -/
theorem toNat_add_one {w : UInt64} (h : w.toNat + 1 < count) : (w + 1).toNat = w.toNat + 1 := by
  rw [UInt64.toNat_add]
  exact Nat.mod_eq_of_lt h

/-- A counter goes down by one as long as it is not zero. -/
theorem toNat_sub_one {w : UInt64} (h : w ≠ 0) : (w - 1).toNat + 1 = w.toNat := by
  have hpos : 0 < w.toNat := UInt64.lt_iff_toNat_lt.mp (pos_of_ne_zero h)
  have hle : 1 ≤ w := UInt64.le_iff_toNat_le.mpr hpos
  rw [UInt64.toNat_sub_of_le _ _ hle]
  exact Nat.sub_add_cancel hpos

/-- What may become of a counter at once: it goes up or down by one, and passes neither end. -/
inductive Counts (w : UInt64) : UInt64 → Prop where
  | kept : Counts w w
  | up (h : w.toNat < largest) : Counts w (w + 1)
  | down (h : 0 < w) : Counts w (w - 1)

namespace Counts

theorem of_eq {w w' : UInt64} (h : w' = w) : Counts w w' := h ▸ .kept

theorem toNat_le {w w' : UInt64} (h : Counts w w') : w'.toNat ≤ w.toNat + 1 := by
  cases h with
  | kept => exact Nat.le_succ _
  | up h => exact Nat.le_of_eq (toNat_add_one (Nat.succ_lt_succ h))
  | down h =>
    have hdown := toNat_sub_one (UInt64.ne_of_lt h).symm
    omega

end Counts

end LanguageHost.Word
