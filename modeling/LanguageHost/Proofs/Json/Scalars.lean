import LanguageHost.Json.Reader
import LanguageHost.Json.Writer
import LanguageHost.Proofs.Text.Printed

/-!
# Numbers and strings that are read from their own text

The text of a whole number is its decimal digits, which the reader finds where no digit, point or
exponent follows (`Ends`), and which it puts together to the number again (`scalarValue?_int`).  A
string is written one character at a time, and each of its escapes is read back whatever comes next
(`string?_escapeChar`); the escape of a control character is the one that could be taken for the
first half of a pair, and its code is none of these (`string?_code`).
-/

namespace LanguageHost

namespace Json

/-- A text goes on, or ends, in a way in which no number does. -/
def Ends (rest : List Char) : Prop :=
  ∀ c ∈ rest.head?, c.isDigit = false ∧ c ≠ '.' ∧ c ≠ 'e' ∧ c ≠ 'E'

theorem ends_nil : Ends [] := nofun

theorem ends_cons {c : Char} (hdigit : c.isDigit = false) (hpoint : c ≠ '.') (he : c ≠ 'e')
    (hE : c ≠ 'E') (rest : List Char) : Ends (c :: rest) := by
  rintro d hd
  obtain rfl : c = d := Option.some.inj hd
  exact ⟨hdigit, hpoint, he, hE⟩

/-! ### Whole numbers -/

theorem natOfDigits_toDigits (k : Nat) : natOfDigits (Nat.toDigits 10 k) = k := by
  have h := Nat.ofDigitChars_ten_toDigits (n := k)
  rw [Nat.ofDigitChars_eq_foldl] at h
  rw [natOfDigits]
  simpa only [digitValue, Nat.mul_comm] using h

/-- A number from one on does not begin with a zero. -/
theorem head?_toDigits {k : Nat} (hk : 0 < k) : '0' ∉ (Nat.toDigits 10 k).head? := by
  have hdigit : ∀ d < 10, 0 < d → '0' ∉ [Nat.digitChar d].head? := by decide
  induction k using Nat.strongRecOn with
  | ind k ih =>
    by_cases hlt : k < 10
    · rw [Nat.toDigits_of_lt_base hlt]
      exact hdigit k hlt hk
    · have hmore : 0 < k / 10 := by omega
      have hfirst := ih (k / 10) (by omega) hmore
      rw [Nat.toDigits_of_base_le (by decide) (by omega)]
      cases hds : Nat.toDigits 10 (k / 10) with
      | nil => exact absurd hds Nat.toDigits_ne_nil
      | cons d ds =>
        rw [hds] at hfirst
        exact hfirst

/-- All digits at the front of a text are found. -/
theorem digits_append {ds rest : List Char} (hds : ∀ c ∈ ds, c.isDigit = true) (h : Ends rest) :
    digits (ds ++ rest) = (ds, rest) := by
  have hrest : rest.takeWhile Char.isDigit = [] ∧ rest.dropWhile Char.isDigit = rest := by
    cases rest with
    | nil => exact ⟨rfl, rfl⟩
    | cons c rest =>
      have hc : ¬ c.isDigit = true := by simp [(h c rfl).1]
      exact ⟨List.takeWhile_cons_of_neg hc, List.dropWhile_cons_of_neg hc⟩
  rw [digits, List.takeWhile_append_of_pos hds, List.dropWhile_append_of_pos hds, hrest.1,
    hrest.2, List.append_nil]

theorem whole?_toDigits (k : Nat) {rest : List Char} (h : Ends rest) :
    whole? (Nat.toDigits 10 k ++ rest) = some (Nat.toDigits 10 k, rest) := by
  rcases Nat.eq_zero_or_pos k with rfl | hk
  · rw [Nat.toDigits_zero]
    cases rest with
    | nil => rfl
    | cons c rest =>
      exact if_neg (by simp [(h c rfl).1])
  · have hdigit : ∀ c ∈ Nat.toDigits 10 k, c.isDigit = true := fun c hc =>
      Nat.isDigit_of_mem_toDigits (by decide) (by decide) hc
    have hall := digits_append hdigit h
    obtain ⟨d, ds, hds⟩ := List.exists_cons_of_ne_nil (Nat.toDigits_ne_nil (n := k) (b := 10))
    have hzero := head?_toDigits hk
    rw [hds] at hall hzero ⊢
    unfold whole?
    split
    · next hcons =>
      obtain ⟨rfl, -⟩ := List.cons.inj hcons
      exact absurd rfl hzero
    · rw [hall]

theorem fraction?_of_ends {rest : List Char} (h : Ends rest) :
    fraction? rest = some ([], rest) := by
  unfold fraction?
  split
  · exact absurd rfl (h '.' rfl).2.1
  · rfl

theorem exponent?_of_ends {rest : List Char} (h : Ends rest) :
    exponent? rest = some (none, rest) := by
  unfold exponent?
  split
  · exact absurd rfl (h 'e' rfl).2.2.1
  · exact absurd rfl (h 'E' rfl).2.2.2
  · exact absurd rfl (h 'e' rfl).2.2.1
  · exact absurd rfl (h 'E' rfl).2.2.2
  · exact absurd rfl (h 'e' rfl).2.2.1
  · exact absurd rfl (h 'E' rfl).2.2.2
  · rfl

theorem isDigit_of_toDigits {d : Char} {ds : List Char} {k : Nat}
    (h : Nat.toDigits 10 k = d :: ds) : d.isDigit = true :=
  Nat.isDigit_of_mem_toDigits (by decide) (by decide) (h ▸ List.mem_cons_self)

theorem numeral?_toDigits (k : Nat) {rest : List Char} (h : Ends rest) :
    numeral? (Nat.toDigits 10 k ++ rest) = some (⟨false, Nat.toDigits 10 k, [], none⟩, rest) := by
  have hwhole := whole?_toDigits k h
  obtain ⟨d, ds, hds⟩ := List.exists_cons_of_ne_nil (Nat.toDigits_ne_nil (n := k) (b := 10))
  have hdigit := isDigit_of_toDigits hds
  have hsign : d ≠ '-' := by
    rintro rfl
    cases hdigit
  rw [hds, List.cons_append] at hwhole ⊢
  simp [numeral?, hsign, hwhole, fraction?_of_ends h, exponent?_of_ends h]

theorem numeral?_neg_toDigits (k : Nat) {rest : List Char} (h : Ends rest) :
    numeral? ('-' :: Nat.toDigits 10 k ++ rest) =
      some (⟨true, Nat.toDigits 10 k, [], none⟩, rest) := by
  simp [numeral?, whole?_toDigits k h, fraction?_of_ends h, exponent?_of_ends h]

/-- What begins as a number is read as one. -/
theorem scalarValue?_of_numeral {c : Char} {cs rest : List Char} {n : Numeral} {v : Json}
    (hc : c.isDigit = true ∨ c = '-') (hn : numeral? (c :: cs) = some (n, rest))
    (hv : n.value? = some v) : scalarValue? (c :: cs) = some (v, rest) := by
  have hne : ∀ {d : Char}, d.isDigit = false → d ≠ '-' → c ≠ d := by
    rintro d hdigit hsign rfl
    rcases hc with hc | rfl
    · cases hdigit.symm.trans hc
    · exact hsign rfl
  unfold scalarValue?
  split
  · next hcons => exact absurd (List.cons.inj hcons).1 (hne (by decide) (by decide))
  · next hcons => exact absurd (List.cons.inj hcons).1 (hne (by decide) (by decide))
  · next hcons => exact absurd (List.cons.inj hcons).1 (hne (by decide) (by decide))
  · next hcons => exact absurd (List.cons.inj hcons).1 (hne (by decide) (by decide))
  · simp [hn, hv]

theorem toList_toString_ofNat (k : Nat) : (toString (Int.ofNat k)).toList = Nat.toDigits 10 k :=
  String.toList_ofList

theorem toList_toString_negSucc (k : Nat) :
    (toString (Int.negSucc k)).toList = '-' :: Nat.toDigits 10 (k + 1) := by
  show ("-" ++ String.ofList (Nat.toDigits 10 (k + 1))).toList = _
  rw [String.toList_append]
  exact congrArg ('-' :: ·) String.toList_ofList

/-- A whole number of 64 bits is read from its text. -/
theorem scalarValue?_int {n : Int} (hlow : -(Word.half : Int) ≤ n) (hhigh : n < Word.count)
    {rest : List Char} (h : Ends rest) :
    scalarValue? ((toString n).toList ++ rest) = some (.int n, rest) := by
  cases n with
  | ofNat k =>
    have hread := numeral?_toDigits k h
    have hcount : k < Word.count := Int.ofNat_lt.mp hhigh
    have hvalue : (⟨false, Nat.toDigits 10 k, [], none⟩ : Numeral).value? = some (.int k) := by
      simp [Numeral.value?, natOfDigits_toDigits, hcount]
    obtain ⟨d, ds, hds⟩ := List.exists_cons_of_ne_nil (Nat.toDigits_ne_nil (n := k) (b := 10))
    rw [toList_toString_ofNat]
    rw [hds, List.cons_append] at hread ⊢
    exact scalarValue?_of_numeral (.inl (isDigit_of_toDigits hds)) hread (hds ▸ hvalue)
  | negSucc k =>
    have hhalf : k + 1 ≤ Word.half := by omega
    have hvalue : (⟨true, Nat.toDigits 10 (k + 1), [], none⟩ : Numeral).value? =
        some (.int (.negSucc k)) := by
      simp [Numeral.value?, natOfDigits_toDigits, hhalf, Int.negSucc_eq]
    rw [toList_toString_negSucc]
    exact scalarValue?_of_numeral (.inr rfl) (numeral?_neg_toDigits (k + 1) h) hvalue

/-! ### Strings -/

/-- A character of a string that is written as its code is read back, whatever comes next. -/
theorem string?_code {x y : Char} {n : Nat} (hn : hexValues? ['0', '0', x, y] = some n)
    (hlt : n < 0x20) (rest : List Char) :
    string? ('\\' :: 'u' :: '0' :: '0' :: x :: y :: rest) =
      (string? rest).map fun r => (Char.ofNat n :: r.1, r.2) := by
  have hscalar : scalar? n = some (Char.ofNat n) := if_pos (.inl (by omega))
  have hnot : ¬ (0xD800 ≤ n ∧ n < 0xDC00) := by omega
  rw [string?.eq_def]
  split
  · next h => cases h
  · next h => cases h
  · next h =>
    simp only [List.cons.injEq, true_and] at h
    obtain ⟨rfl, rfl, rfl, rfl, rfl⟩ := h
    simp only [hn, hscalar, hnot, Option.bind_eq_bind, Option.bind_some, if_false]
    cases string? _ <;> rfl
  · next h =>
    simp only [List.cons.injEq, true_and] at h
    obtain ⟨rfl, rfl, rfl, rfl, rfl⟩ := h
    simp only [hn, hscalar, Option.bind_eq_bind, Option.bind_some]
    cases string? _ <;> rfl
  · next hcode h =>
    simp only [List.cons.injEq, true_and] at h
    obtain ⟨rfl, rfl⟩ := h
    exact (hcode '0' '0' x y rest rfl rfl).elim
  · next hescape h =>
    obtain ⟨rfl, rfl⟩ := List.cons.inj h
    exact (hescape 'u' _ rfl rfl).elim

theorem hexValues?_code : ∀ n < 0x20,
    hexValues? ['0', '0', Nat.digitChar (n / 16), Nat.digitChar (n % 16)] = some n := by
  decide

/-- A character that is neither a quote nor begins an escape stands for itself. -/
theorem string?_of_plain {c : Char} (hquote : c ≠ '"') (hslash : c ≠ '\\') (rest : List Char) :
    string? (c :: rest) = if c.toNat < 0x20 then none else do
      let (cs, after) ← string? rest
      return (c :: cs, after) := by
  rw [string?.eq_def]
  split
  · next h => cases h
  · next h => exact absurd (List.cons.inj h).1 hquote
  · next h => exact absurd (List.cons.inj h).1 hslash
  · next h => exact absurd (List.cons.inj h).1 hslash
  · next h => exact absurd (List.cons.inj h).1 hslash
  · next h =>
    obtain ⟨rfl, rfl⟩ := List.cons.inj h
    rfl

/-- A character of a string is read back, whatever comes next. -/
theorem string?_escapeChar (c : Char) (rest : List Char) :
    string? (escapeChar c ++ rest) = (string? rest).map fun r => (c :: r.1, r.2) := by
  have hcons : ∀ x : Char, ((string? rest).bind fun r => some (x :: r.1, r.2)) =
      (string? rest).map fun r => (x :: r.1, r.2) := fun x => by cases string? rest <;> rfl
  have hchar : ∀ n, c.toNat = n → Char.ofNat n = c := by
    rintro n rfl
    exact Char.ofNat_toNat c
  unfold escapeChar
  split
  · next h => simp [string?, h, hcons]
  next hquote =>
  split
  · next h => simp [string?, h, hcons]
  next hslash =>
  split
  · next h => simp [string?, h, hcons]
  split
  · next h => simp [string?, h, hcons]
  split
  · next h => simp [string?, h, hcons]
  split
  · next h => simp [string?, ← hchar 8 h, hcons]
  split
  · next h => simp [string?, ← hchar 12 h, hcons]
  split
  · next h =>
    simp only [List.cons_append, List.nil_append]
    rw [string?_code (hexValues?_code c.toNat h) h, hchar _ rfl]
  next hplain =>
  rw [List.singleton_append, string?_of_plain hquote hslash, if_neg hplain]
  simp [hcons]

/-- A string is read back from its text, whatever comes next. -/
theorem string?_flatMap_escapeChar (cs rest : List Char) :
    string? (cs.flatMap escapeChar ++ '"' :: rest) = some (cs, rest) := by
  induction cs with
  | nil => rfl
  | cons c cs ih =>
    rw [List.flatMap_cons, List.append_assoc, string?_escapeChar, ih, Option.map_some]

/-! ### Blanks -/

theorem isBlank_of_isDigit {c : Char} (h : c.isDigit = true) : Text.isBlank c = false := by
  obtain ⟨hlow, hhigh⟩ : '0'.val ≤ c.val ∧ c.val ≤ '9'.val := by
    simpa only [Char.isDigit, Bool.and_eq_true, decide_eq_true_eq] using h
  have hlow : 48 ≤ c.toNat := UInt32.le_iff_toNat_le.mp hlow
  have hhigh : c.toNat ≤ 57 := UInt32.le_iff_toNat_le.mp hhigh
  simp only [Text.isBlank, Bool.or_eq_false_iff, Bool.and_eq_false_iff, decide_eq_false_iff_not,
    beq_eq_false_iff_ne]
  omega

theorem isSpace_of_not_isBlank {c : Char} (h : Text.isBlank c = false) : isSpace c = false := by
  refine Bool.eq_false_iff.mpr fun hspace => ?_
  have hcases : ((c = ' ' ∨ c = '\n') ∨ c = '\t') ∨ c = '\r' := by
    simpa only [isSpace, Bool.or_eq_true, decide_eq_true_eq] using hspace
  rcases hcases with ((rfl | rfl) | rfl) | rfl <;> cases h

theorem skipSpace_cons {c : Char} (h : isSpace c = false) (cs : List Char) :
    skipSpace (c :: cs) = c :: cs := List.dropWhile_cons_of_neg (by simp [h])

end Json

end LanguageHost
