import LanguageHost.Pattern.Basic

/-!
# Searching a text

The bits of a set of places are followed through a pattern.  `testBit_ends`: from a set of places,
`ends` gets to where stretches of the pattern end that begin in the set.  It is an induction on the
pattern; a repetition is a walk of so many stretches, and the search for the longest one may stop
after as many as there are places, because a walk needs no stretches of length nothing
(`SpansTimes.shorten`).  So `occursIn` tells whether a text contains a stretch of a pattern.

This holds for patterns whose repetitions have their bounds in order.  For others `Spans` knows no
stretches, while the search looks for as many as the lower bound says.
-/

namespace LanguageHost.Pattern

variable {text : Array Char} {p q : Pattern} {i j k m n : Nat} {places : Nat}

/-- The bounds of all repetitions of a pattern are in order. -/
def InOrder : Pattern → Prop
  | empty | oneOf _ | anchor _ => True
  | seq p q | either p q => p.InOrder ∧ q.InOrder
  | times p least most => p.InOrder ∧ ∀ m, most = some m → least ≤ m

/-! ### Stretches -/

mutual

/-- A stretch lies inside its text. -/
theorem Spans.bounds : {p : Pattern} → {i j : Nat} → Spans text p i j → i ≤ j ∧ j ≤ text.size
  | _, _, _, .empty h => ⟨Nat.le_refl _, h⟩
  | _, _, _, .oneOf h _ => ⟨Nat.le_succ _, (Array.getElem?_eq_some_iff.mp h).1⟩
  | _, _, _, .anchor h _ => ⟨Nat.le_refl _, h⟩
  | _, _, _, .seq hp hq => ⟨Nat.le_trans hp.bounds.1 hq.bounds.1, hq.bounds.2⟩
  | _, _, _, .left h => h.bounds
  | _, _, _, .right h => h.bounds
  | _, _, _, .times _ _ h => h.bounds

theorem SpansTimes.bounds :
    {p : Pattern} → {n i j : Nat} → SpansTimes text p n i j → i ≤ j ∧ j ≤ text.size
  | _, _, _, _, .none h => ⟨Nat.le_refl _, h⟩
  | _, _, _, _, .more h hs => ⟨Nat.le_trans h.bounds.1 hs.bounds.1, hs.bounds.2⟩

end

namespace SpansTimes

/-- Two walks, one after the other. -/
theorem append (h : SpansTimes text p m i j) (h' : SpansTimes text p n j k) :
    SpansTimes text p (m + n) i k := by
  induction m generalizing i with
  | zero =>
    cases h
    rw [Nat.zero_add]
    exact h'
  | succ m ih =>
    cases h with
    | more hfirst hrest =>
      rw [Nat.succ_add]
      exact .more hfirst (ih hrest)

/-- A walk stops on its way after any number of stretches. -/
theorem split (h : SpansTimes text p (m + n) i k) :
    ∃ j, SpansTimes text p m i j ∧ SpansTimes text p n j k := by
  induction m generalizing i with
  | zero =>
    rw [Nat.zero_add] at h
    exact ⟨i, .none (Nat.le_trans h.bounds.1 h.bounds.2), h⟩
  | succ m ih =>
    rw [Nat.succ_add] at h
    cases h with
    | more hfirst hrest =>
      obtain ⟨j, hj, hk⟩ := ih hrest
      exact ⟨j, .more hfirst hj, hk⟩

/-- A walk needs at most one stretch for each character that it passes. -/
theorem shorten (h : SpansTimes text p n i j) : ∃ m, m ≤ j - i ∧ SpansTimes text p m i j := by
  induction n generalizing i with
  | zero =>
    cases h with
    | none hi => exact ⟨0, Nat.zero_le _, .none hi⟩
  | succ n ih =>
    cases h with
    | @more _ _ _ k _ hfirst hrest =>
      obtain ⟨m, hm, hshort⟩ := ih hrest
      have hik : i ≤ k := hfirst.bounds.1
      have hkj : k ≤ j := hshort.bounds.1
      rcases Nat.eq_or_lt_of_le hik with rfl | hlt
      · exact ⟨m, hm, hshort⟩
      · exact ⟨m + 1, by omega, .more hfirst hshort⟩

/-- A set of places that no stretch leaves is not left by a walk. -/
theorem closed (hclosed : ∀ i j, places.testBit i = true → Spans text p i j →
    places.testBit j = true) (h : SpansTimes text p n i j) (hi : places.testBit i = true) :
    places.testBit j = true := by
  induction n generalizing i with
  | zero =>
    cases h
    exact hi
  | succ n ih =>
    cases h with
    | more hfirst hrest => exact ih hrest (hclosed _ _ hi hfirst)

end SpansTimes

/-! ### Sets of places -/

theorem testBit_placesWhere {size : Nat} {f : Nat → Bool} :
    (placesWhere size f).testBit i = true ↔ i ≤ size ∧ f i = true := by
  have hrange (n : Nat) : ((List.range n).foldl (fun s i => if f i then s ||| 1 <<< i else s)
      0).testBit i = true ↔ i < n ∧ f i = true := by
    induction n with
    | zero => simp
    | succ n ih =>
      rw [List.range_succ, List.foldl_append, List.foldl_cons, List.foldl_nil]
      have hlast : i < n + 1 ↔ i < n ∨ i = n := by omega
      by_cases hfn : f n = true
      · rw [if_pos hfn, Nat.testBit_or, Bool.or_eq_true, ih, Nat.one_shiftLeft, Nat.testBit_two_pow,
          decide_eq_true_iff, hlast]
        constructor
        · rintro (⟨hlt, hf⟩ | rfl)
          · exact ⟨.inl hlt, hf⟩
          · exact ⟨.inr rfl, hfn⟩
        · rintro ⟨hlt | rfl, hf⟩
          · exact .inl ⟨hlt, hf⟩
          · exact .inr rfl
      · rw [if_neg hfn, ih, hlast]
        constructor
        · exact fun ⟨hlt, hf⟩ => ⟨.inl hlt, hf⟩
        · rintro ⟨hlt | rfl, hf⟩
          · exact ⟨hlt, hf⟩
          · exact absurd hf hfn
  rw [placesWhere, hrange, Nat.lt_succ_iff]

/-- What going on from places once gets to, told by the stretches of a pattern. -/
def Follows (text : Array Char) (p : Pattern) (step : Nat → Nat) : Prop :=
  ∀ places : Nat, (∀ i, places.testBit i = true → i ≤ text.size) →
    ∀ j, (step places).testBit j = true ↔ ∃ i, places.testBit i = true ∧ Spans text p i j

variable {step : Nat → Nat}

/-- Going on from places of a text gets to places of the text. -/
theorem Follows.inside (h : Follows text p step)
    (hplaces : ∀ i, places.testBit i = true → i ≤ text.size) (j : Nat)
    (hj : (step places).testBit j = true) : j ≤ text.size := by
  obtain ⟨i, -, hspan⟩ := (h places hplaces j).mp hj
  exact hspan.bounds.2

theorem testBit_follow (h : Follows text p step)
    (hplaces : ∀ i, places.testBit i = true → i ≤ text.size) :
    (follow step n places).testBit j = true ↔
      ∃ i, places.testBit i = true ∧ SpansTimes text p n i j := by
  induction n generalizing places with
  | zero =>
    constructor
    · exact fun hj => ⟨j, hj, .none (hplaces j hj)⟩
    · rintro ⟨i, hi, hspans⟩
      cases hspans
      exact hi
  | succ n ih =>
    rw [follow]
    split
    · next hnone =>
      subst hnone
      simp
    · rw [ih (h.inside hplaces)]
      constructor
      · rintro ⟨k, hk, hrest⟩
        obtain ⟨i, hi, hfirst⟩ := (h places hplaces k).mp hk
        exact ⟨i, hi, .more hfirst hrest⟩
      · rintro ⟨i, hi, hspans⟩
        cases hspans with
        | more hfirst hrest => exact ⟨_, (h places hplaces _).mpr ⟨i, hi, hfirst⟩, hrest⟩

theorem testBit_followUpTo (h : Follows text p step)
    (hplaces : ∀ i, places.testBit i = true → i ≤ text.size) :
    (followUpTo step n places).testBit j = true ↔
      ∃ i m, places.testBit i = true ∧ m ≤ n ∧ SpansTimes text p m i j := by
  induction n generalizing places with
  | zero =>
    constructor
    · exact fun hj => ⟨j, 0, hj, Nat.le_refl _, .none (hplaces j hj)⟩
    · rintro ⟨i, m, hi, hm, hspans⟩
      obtain rfl : m = 0 := Nat.le_zero.mp hm
      cases hspans
      exact hi
  | succ n ih =>
    have hmore (k : Nat) : (places ||| step places).testBit k = true ↔
        places.testBit k = true ∨ ∃ i, places.testBit i = true ∧ Spans text p i k := by
      rw [Nat.testBit_or, Bool.or_eq_true, h places hplaces k]
    rw [followUpTo]
    split
    · next hfound =>
      -- Nothing new was found, so no walk leaves the places.
      constructor
      · exact fun hj => ⟨j, 0, hj, Nat.zero_le _, .none (hplaces j hj)⟩
      · rintro ⟨i, m, hi, -, hspans⟩
        refine hspans.closed (fun a b ha hspan => ?_) hi
        rw [← hfound]
        exact (hmore b).mpr (.inr ⟨a, ha, hspan⟩)
    · have hinside (k : Nat) (hk : (places ||| step places).testBit k = true) : k ≤ text.size := by
        rcases (hmore k).mp hk with hk | ⟨i, -, hspan⟩
        · exact hplaces k hk
        · exact hspan.bounds.2
      rw [ih hinside]
      constructor
      · rintro ⟨k, m, hk, hm, hspans⟩
        rcases (hmore k).mp hk with hk | ⟨i, hi, hfirst⟩
        · exact ⟨k, m, hk, Nat.le_succ_of_le hm, hspans⟩
        · exact ⟨i, m + 1, hi, Nat.succ_le_succ hm, .more hfirst hspans⟩
      · rintro ⟨i, m, hi, hm, hspans⟩
        cases hspans with
        | none hbound => exact ⟨_, 0, (hmore _).mpr (.inl hi), Nat.zero_le _, .none hbound⟩
        | more hfirst hrest =>
          exact ⟨_, _, (hmore _).mpr (.inr ⟨i, hi, hfirst⟩), Nat.le_of_succ_le_succ hm, hrest⟩

/-! ### The search -/

/-- A repetition is followed by as many stretches as it has to have, and then by as many more as
it may have. -/
theorem follows_times {least : Nat} {most : Option Nat} (hp : Follows text p (ends text p))
    (hbounds : ∀ m, most = some m → least ≤ m) :
    Follows text (.times p least most) (ends text (.times p least most)) := by
  intro places hplaces j
  have hreached (k : Nat) : (follow (ends text p) least places).testBit k = true ↔
      ∃ i, places.testBit i = true ∧ SpansTimes text p least i k := testBit_follow hp hplaces
  have hinside (k : Nat) (hk : (follow (ends text p) least places).testBit k = true) :
      k ≤ text.size := by
    obtain ⟨i, -, hspans⟩ := (hreached k).mp hk
    exact hspans.bounds.2
  cases most with
  | some m =>
    have hle : least ≤ m := hbounds m rfl
    rw [ends, testBit_followUpTo hp hinside]
    constructor
    · rintro ⟨k, n, hk, hn, hrest⟩
      obtain ⟨i, hi, hfirst⟩ := (hreached k).mp hk
      refine ⟨i, hi, .times (Nat.le_add_right least n) (fun l hl => ?_) (hfirst.append hrest)⟩
      obtain rfl : m = l := Option.some.inj hl
      omega
    · rintro ⟨i, hi, hspan⟩
      cases hspan with
      | @times _ _ _ n _ _ hleast hmost hspans =>
        have hn : n ≤ m := hmost m rfl
        rw [← Nat.add_sub_cancel' hleast] at hspans
        obtain ⟨k, hfirst, hrest⟩ := hspans.split
        exact ⟨k, n - least, (hreached k).mpr ⟨i, hi, hfirst⟩, by omega, hrest⟩
  | none =>
    rw [ends, testBit_followUpTo hp hinside]
    constructor
    · rintro ⟨k, n, hk, -, hrest⟩
      obtain ⟨i, hi, hfirst⟩ := (hreached k).mp hk
      exact ⟨i, hi, .times (Nat.le_add_right least n) nofun (hfirst.append hrest)⟩
    · rintro ⟨i, hi, hspan⟩
      cases hspan with
      | @times _ _ _ n _ _ hleast _ hspans =>
        rw [← Nat.add_sub_cancel' hleast] at hspans
        obtain ⟨k, hfirst, hrest⟩ := hspans.split
        obtain ⟨m, hm, hshort⟩ := hrest.shorten
        have hj : j ≤ text.size := hrest.bounds.2
        exact ⟨k, m, (hreached k).mpr ⟨i, hi, hfirst⟩, by omega, hshort⟩

/-- The places that a search gets to are those where stretches end. -/
theorem testBit_ends (hp : p.InOrder) : Follows text p (ends text p) := by
  induction p with
  | empty =>
    intro places hplaces j
    constructor
    · exact fun hj => ⟨j, hj, .empty (hplaces j hj)⟩
    · rintro ⟨i, hi, hspan⟩
      cases hspan
      exact hi
  | oneOf codes =>
    intro places hplaces j
    rw [ends, Nat.testBit_shiftLeft, Bool.and_eq_true, decide_eq_true_iff, Nat.testBit_and,
      Bool.and_eq_true, testBit_placesWhere]
    constructor
    · rintro ⟨hj, hplace, -, hchar⟩
      obtain ⟨i, rfl⟩ : ∃ i, j = i + 1 := ⟨j - 1, (Nat.sub_add_cancel hj).symm⟩
      rw [Nat.add_sub_cancel] at hplace hchar
      cases hc : text[i]? with
      | none =>
        rw [hc] at hchar
        cases hchar
      | some c =>
        rw [hc] at hchar
        exact ⟨i, hplace, .oneOf hc hchar⟩
    · rintro ⟨i, hi, hspan⟩
      cases hspan with
      | oneOf hc hcode =>
        have hbound := (Array.getElem?_eq_some_iff.mp hc).1
        refine ⟨Nat.le_add_left _ _, ?_, ?_, ?_⟩ <;> rw [Nat.add_sub_cancel]
        · exact hi
        · exact Nat.le_of_lt hbound
        · rw [hc]
          exact hcode
  | anchor a =>
    intro places hplaces j
    rw [ends, Nat.testBit_and, Bool.and_eq_true, testBit_placesWhere]
    constructor
    · exact fun ⟨hj, hbound, ha⟩ => ⟨j, hj, .anchor hbound ha⟩
    · rintro ⟨i, hi, hspan⟩
      cases hspan with
      | anchor hbound ha => exact ⟨hi, hbound, ha⟩
  | seq p q ihp ihq =>
    intro places hplaces j
    have hfirst := ihp hp.1
    rw [ends, ihq hp.2 _ (hfirst.inside hplaces)]
    constructor
    · rintro ⟨k, hk, hq⟩
      obtain ⟨i, hi, hp⟩ := (hfirst places hplaces k).mp hk
      exact ⟨i, hi, .seq hp hq⟩
    · rintro ⟨i, hi, hspan⟩
      cases hspan with
      | seq hp hq => exact ⟨_, (hfirst places hplaces _).mpr ⟨i, hi, hp⟩, hq⟩
  | either p q ihp ihq =>
    intro places hplaces j
    rw [ends, Nat.testBit_or, Bool.or_eq_true, ihp hp.1 places hplaces, ihq hp.2 places hplaces]
    constructor
    · rintro (⟨i, hi, hspan⟩ | ⟨i, hi, hspan⟩)
      · exact ⟨i, hi, .left hspan⟩
      · exact ⟨i, hi, .right hspan⟩
    · rintro ⟨i, hi, hspan⟩
      cases hspan with
      | left hspan => exact .inl ⟨i, hi, hspan⟩
      | right hspan => exact .inr ⟨i, hi, hspan⟩
  | times p least most ih => exact follows_times (ih hp.1) hp.2

/-- The search finds out whether a text contains a stretch of a pattern. -/
theorem occursIn_iff {s : String} (hp : p.InOrder) :
    p.occursIn s = true ↔ ∃ i j, Spans s.toList.toArray p i j := by
  have hall (i : Nat) : (allPlaces s.toList.toArray.size).testBit i = true ↔
      i ≤ s.toList.toArray.size := by
    rw [allPlaces, testBit_placesWhere]
    exact and_iff_left rfl
  have hfollows : Follows s.toList.toArray p (ends s.toList.toArray p) := testBit_ends hp
  have hends := hfollows _ fun i => (hall i).mp
  rw [occursIn, bne_iff_ne]
  constructor
  · intro hne
    obtain ⟨j, hj⟩ := Nat.exists_testBit_of_ne_zero hne
    obtain ⟨i, -, hspan⟩ := (hends j).mp hj
    exact ⟨i, j, hspan⟩
  · rintro ⟨i, j, hspan⟩ hzero
    have hi : i ≤ s.toList.toArray.size := Nat.le_trans hspan.bounds.1 hspan.bounds.2
    have hj := (hends j).mpr ⟨i, (hall i).mpr hi, hspan⟩
    rw [hzero, Nat.zero_testBit] at hj
    cases hj

end LanguageHost.Pattern
