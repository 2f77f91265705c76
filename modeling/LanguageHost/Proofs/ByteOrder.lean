import LanguageHost.Dict
import Mathlib.Data.List.Basic

/-!
# The order of names

Names are ordered by their characters.  The octets of a text in UTF-8 are ordered in the same way,
because the first octet of a character tells how many there are, and more octets and larger digits
stand for larger characters: `octets_lt_iff`.
-/

namespace LanguageHost

/-- The octets of a text in UTF-8. -/
def octets (s : String) : List UInt8 := s.toUTF8.data.toList

theorem octets_eq (s : String) : octets s = s.toList.flatMap String.utf8EncodeChar := by
  have hbytes : s.toUTF8 = (s.toList.flatMap String.utf8EncodeChar).toByteArray := by
    have hlist := String.toByteArray_ofList (l := s.toList)
    rw [String.ofList_toList] at hlist
    exact hlist
  rw [octets, hbytes, List.data_toByteArray]

section

variable {m n : Nat} {s t : List UInt8}

/-- The first digit that differs decides. -/
theorem lt_of_digit (hn : n < 256) (h : m < n) : UInt8.ofNat m :: s < UInt8.ofNat n :: t := by
  rw [List.cons_lt_cons_iff, UInt8.lt_iff_toNat_lt, UInt8.toNat_ofNat', UInt8.toNat_ofNat']
  exact .inl (by omega)

/-- Where the first digits may agree, the rest decides. -/
theorem lt_of_digits (hn : n < 256) (h : m ≤ n) (hst : m = n → s < t) :
    UInt8.ofNat m :: s < UInt8.ofNat n :: t := by
  rcases Nat.lt_or_eq_of_le h with hlt | rfl
  · exact lt_of_digit hn hlt
  · exact List.cons_lt_cons_iff.mpr (.inr ⟨rfl, hst rfl⟩)

/-- Whatever follows, a smaller character has smaller octets. -/
theorem encodeChar_lt {c d : Char} (h : c < d) (s t : List UInt8) :
    String.utf8EncodeChar c ++ s < String.utf8EncodeChar d ++ t := by
  have hlt : c.val.toNat < d.val.toNat := h
  have hmax : d.val.toNat < 1114112 := by
    rcases d.valid with hd | ⟨-, hd⟩
    · exact Nat.lt_trans hd (by decide)
    · exact hd
  unfold String.utf8EncodeChar
  generalize c.val.toNat = m at hlt
  generalize d.val.toNat = n at hlt hmax
  by_cases hone : m ≤ 127
  · simp only [if_pos hone]
    split
    · exact lt_of_digit (by omega) hlt
    · split
      · exact lt_of_digit (by omega) (by omega)
      · split <;> exact lt_of_digit (by omega) (by omega)
  by_cases htwo : m ≤ 2047
  · simp only [if_neg hone, if_pos htwo, if_neg (show ¬ n ≤ 127 by omega)]
    split
    · exact lt_of_digits (by omega) (by omega) fun _ => lt_of_digit (by omega) (by omega)
    · split <;> exact lt_of_digit (by omega) (by omega)
  by_cases hthree : m ≤ 65535
  · simp only [if_neg hone, if_neg htwo, if_pos hthree, if_neg (show ¬ n ≤ 127 by omega),
      if_neg (show ¬ n ≤ 2047 by omega)]
    split
    · exact lt_of_digits (by omega) (by omega) fun hfirst =>
        lt_of_digits (by omega) (by omega) fun hsecond => lt_of_digit (by omega) (by omega)
    · exact lt_of_digit (by omega) (by omega)
  · simp only [if_neg hone, if_neg htwo, if_neg hthree, if_neg (show ¬ n ≤ 127 by omega),
      if_neg (show ¬ n ≤ 2047 by omega), if_neg (show ¬ n ≤ 65535 by omega)]
    exact lt_of_digits (by omega) (by omega) fun hfirst =>
      lt_of_digits (by omega) (by omega) fun hsecond =>
        lt_of_digits (by omega) (by omega) fun hthird => lt_of_digit (by omega) (by omega)

/-- A text in front of another one has the smaller octets. -/
theorem encode_lt {a b : List Char} (h : a < b) :
    a.flatMap String.utf8EncodeChar < b.flatMap String.utf8EncodeChar := by
  induction a generalizing b with
  | nil =>
    cases b with
    | nil => exact absurd h (List.lt_irrefl _)
    | cons d b =>
      have hpos : String.utf8EncodeChar d ≠ [] := by
        rw [← List.length_pos_iff, String.length_utf8EncodeChar]
        exact d.utf8Size_pos
      obtain ⟨u, rest, hfirst⟩ := List.exists_cons_of_ne_nil hpos
      rw [List.flatMap_nil, List.flatMap_cons, hfirst, List.cons_append]
      exact List.nil_lt_cons _ _
  | cons c a ih =>
    cases b with
    | nil => cases h
    | cons d b =>
      rw [List.flatMap_cons, List.flatMap_cons]
      rcases List.cons_lt_cons_iff.mp h with hlt | ⟨rfl, hlt⟩
      · exact encodeChar_lt hlt _ _
      · exact List.append_left_lt (ih hlt)

end

/-- Texts are ordered as their octets are. -/
theorem octets_lt_iff (a b : String) : octets a < octets b ↔ a < b := by
  have hlt : ∀ {a b : String}, a < b → octets a < octets b := by
    intro a b h
    rw [octets_eq, octets_eq]
    exact encode_lt h
  refine ⟨fun h => ?_, hlt⟩
  by_contra hnot
  rcases eq_or_ne a b with rfl | hne
  · exact List.lt_irrefl _ h
  · exact List.lt_asymm h (hlt (SortedByName.lt_of_not_lt_of_ne hnot hne))

end LanguageHost
