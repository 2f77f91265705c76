import LanguageHost.Text.Blank
import LanguageHost.Text.Utf8

/-!
# Texts that are printed and read again

The octets of a text are decoded to the text (`decodeLossy_encode`): no octet of it is refused, so
nothing is replaced.  The proof follows the machine through the octets of one character.  Its first
octet opens it with bounds for the next one that hold whatever the character is (`first_three`,
`first_four`), because a character is neither a surrogate nor written with more octets than it
needs; every later octet adds six bits (`decodeFrom_open`).

Blanks around a text that has none at its ends are taken off and nothing else
(`stripBlanks_surrounded`).
-/

namespace LanguageHost.Text

namespace Utf8

theorem toNat_toUInt8 {n : Nat} (h : n < 256) : n.toUInt8.toNat = n := by
  rw [Nat.toUInt8_eq, UInt8.toNat_ofNat', Nat.mod_eq_of_lt h]

/-- An octet within its bounds is the next one of an open character. -/
theorem decodeFrom_open {value owed low high x : Nat} (hx : x < 64) (hlow : low ≤ 0x80 + x)
    (hhigh : 0x80 + x ≤ high) (rest : List UInt8) :
    decodeFrom (some ⟨value, owed, low, high⟩) ((0x80 + x).toUInt8 :: rest) =
      if owed ≤ 1 then Char.ofNat (value * 64 + x) :: decodeFrom none rest
      else decodeFrom (some ⟨value * 64 + x, owed - 1, 0x80, 0xBF⟩) rest := by
  have hoctet : (0x80 + x).toUInt8.toNat = 0x80 + x := toNat_toUInt8 (by omega)
  rw [decodeFrom]
  simp only [hoctet, hlow, hhigh, and_self, if_true, Nat.add_sub_cancel_left]

/-- The first octet of a character of three. -/
theorem first_three {n : Nat} (hmin : 0x7FF < n) (hmax : n ≤ 0xFFFF)
    (hscalar : n < 0xD800 ∨ 0xDFFF < n) :
    ∃ low high, first (0xE0 + n / 4096) = .opens ⟨n / 4096, 2, low, high⟩ ∧
      low ≤ 0x80 + n / 64 % 64 ∧ 0x80 + n / 64 % 64 ≤ high := by
  by_cases hzero : n / 4096 = 0
  · exact ⟨0xA0, 0xBF, by simp [first, hzero], by omega, by omega⟩
  · by_cases hsurrogate : n / 4096 = 0xD
    · exact ⟨0x80, 0x9F, by simp [first, hsurrogate], by omega, by omega⟩
    · refine ⟨0x80, 0xBF, ?_, by omega, by omega⟩
      unfold first
      rw [if_neg (by omega), if_neg (by omega), if_neg (by omega), if_neg (by omega),
        if_pos (by omega), Nat.add_sub_cancel_left]

/-- The first octet of a character of four. -/
theorem first_four {n : Nat} (hmin : 0xFFFF < n) (hmax : n < 0x110000) :
    ∃ low high, first (0xF0 + n / 262144) = .opens ⟨n / 262144, 3, low, high⟩ ∧
      low ≤ 0x80 + n / 4096 % 64 ∧ 0x80 + n / 4096 % 64 ≤ high := by
  by_cases hzero : n / 262144 = 0
  · exact ⟨0x90, 0xBF, by simp [first, hzero], by omega, by omega⟩
  · by_cases hlast : n / 262144 = 4
    · exact ⟨0x80, 0x8F, by simp [first, hlast], by omega, by omega⟩
    · refine ⟨0x80, 0xBF, ?_, by omega, by omega⟩
      unfold first
      rw [if_neg (by omega), if_neg (by omega), if_neg (by omega), if_neg (by omega),
        if_neg (by omega), if_neg (by omega), if_neg (by omega), if_pos (by omega),
        Nat.add_sub_cancel_left]

/-- The octets of a character are that character. -/
theorem decodeFrom_encodeChar (c : Char) (rest : List UInt8) :
    decodeFrom none (encodeChar c ++ rest) = c :: decodeFrom none rest := by
  have hscalar : c.toNat < 0xD800 ∨ 0xDFFF < c.toNat := by
    rcases c.valid with h | h
    · exact .inl h
    · exact .inr h.1
  have hmax : c.toNat < 0x110000 := by
    rcases c.valid with h | h
    · exact Nat.lt_trans h (by decide)
    · exact h.2
  have hchar : ∀ n, n = c.toNat → Char.ofNat n = c := by
    rintro n rfl
    exact Char.ofNat_toNat c
  unfold encodeChar
  simp only
  split
  · next hone =>
    rw [List.singleton_append, decodeFrom, toNat_toUInt8 (by omega), first, if_pos hone]
    rw [hchar _ rfl]
  · split
    · next htwo =>
      have hfirst : first (0xC0 + c.toNat / 64) = .opens ⟨c.toNat / 64, 1, 0x80, 0xBF⟩ := by
        unfold first
        rw [if_neg (by omega), if_pos (by omega), Nat.add_sub_cancel_left]
      rw [List.cons_append, decodeFrom, toNat_toUInt8 (by omega), hfirst]
      simp only [List.singleton_append]
      rw [decodeFrom_open (by omega) (by omega) (by omega), if_pos (by decide),
        hchar _ (by omega)]
    · split
      · next hthree =>
        obtain ⟨low, high, hfirst, hlow, hhigh⟩ := first_three (by omega) hthree hscalar
        rw [List.cons_append, decodeFrom, toNat_toUInt8 (by omega), hfirst]
        simp only [List.cons_append, List.nil_append]
        rw [decodeFrom_open (by omega) hlow hhigh, if_neg (by decide),
          decodeFrom_open (by omega) (by omega) (by omega), if_pos (by decide),
          hchar _ (by omega)]
      · obtain ⟨low, high, hfirst, hlow, hhigh⟩ := first_four (by omega) hmax
        rw [List.cons_append, decodeFrom, toNat_toUInt8 (by omega), hfirst]
        simp only [List.cons_append, List.nil_append]
        rw [decodeFrom_open (by omega) hlow hhigh, if_neg (by decide),
          decodeFrom_open (by omega) (by omega) (by omega), if_neg (by decide),
          decodeFrom_open (by omega) (by omega) (by omega), if_pos (by decide),
          hchar _ (by omega)]

/-- A text is what its octets are decoded to. -/
theorem decodeLossy_encode (cs : List Char) : decodeLossy (encode cs) = cs := by
  induction cs with
  | nil => rfl
  | cons c cs ih =>
    rw [decodeLossy, encode, List.flatMap_cons, decodeFrom_encodeChar]
    exact congrArg (c :: ·) ih

end Utf8

theorem dropBlanks_append {blanks : List Char} (h : ∀ c ∈ blanks, isBlank c = true)
    (cs : List Char) : dropBlanks (blanks ++ cs) = dropBlanks cs := by
  induction blanks with
  | nil => rfl
  | cons b blanks ih =>
    obtain ⟨hb, hrest⟩ := List.forall_mem_cons.mp h
    rw [dropBlanks, List.cons_append, List.dropWhile_cons_of_pos hb]
    exact ih hrest

/-- A text that begins with no blank is kept from its first character on. -/
theorem dropBlanks_of_head {cs : List Char} (h : ∀ c ∈ cs.head?, isBlank c = false) :
    dropBlanks cs = cs := by
  cases cs with
  | nil => rfl
  | cons c cs => exact List.dropWhile_cons_of_neg (by simp [h c rfl])

/-- The blanks around a text are taken off, and no more. -/
theorem stripBlanks_surrounded {before after cs : List Char}
    (hbefore : ∀ c ∈ before, isBlank c = true) (hafter : ∀ c ∈ after, isBlank c = true)
    (hhead : ∀ c ∈ cs.head?, isBlank c = false) (hlast : ∀ c ∈ cs.getLast?, isBlank c = false)
    (hne : cs ≠ []) : stripBlanks (before ++ cs ++ after) = cs := by
  have hfront : ∀ c ∈ (cs ++ after).head?, isBlank c = false := by
    obtain ⟨c, cs, rfl⟩ := List.exists_cons_of_ne_nil hne
    exact hhead
  have hback : ∀ c ∈ cs.reverse.head?, isBlank c = false := by
    rw [List.head?_reverse]
    exact hlast
  have hblank : ∀ c ∈ after.reverse, isBlank c = true := fun c hc =>
    hafter c (List.mem_reverse.mp hc)
  rw [stripBlanks, List.append_assoc, dropBlanks_append hbefore, dropBlanks_of_head hfront,
    List.reverse_append, dropBlanks_append hblank, dropBlanks_of_head hback, List.reverse_reverse]

end LanguageHost.Text
