import LanguageHost.Dict
import Mathlib.Data.List.Perm.Subperm
import Mathlib.Data.List.Induction
import Mathlib.Data.List.Nodup

/-!
# Lists with distinct keys

In a list whose entries have distinct keys, the entry of a key can be taken out and put back: the
list is that entry together with the entries of all other keys, in some order.  The entries of a
dictionary are such a list; put in their places one after the other, they are the same dictionary
again (`Dict.entries_ofList`).  A table that keeps no order of its own lists its entries in any
order, and sorted they are always the same list (`Dict.sort_eq`).
-/

namespace LanguageHost

variable {α κ : Type} [DecidableEq κ] {f : α → κ} {l : List α} {a : α}

/-- Leaving out a key that does not occur changes nothing. -/
theorem filter_key_ne_eq_self {k : κ} (h : k ∉ l.map f) : (l.filter fun x => f x ≠ k) = l := by
  refine List.filter_eq_self.mpr fun x hx => decide_eq_true ?_
  rintro rfl
  exact h (List.mem_map_of_mem hx)

theorem filter_ne_eq_self {l : List κ} {k : κ} (h : k ∉ l) : l.filter (· ≠ k) = l :=
  filter_key_ne_eq_self (f := id) (by simpa using h)

/-- Where a key is left out, no entry is found for it, and every other entry is found as before. -/
theorem find?_filter_key_ne (l : List α) (f : α → κ) (j k : κ) :
    ((l.filter fun x => f x ≠ j).find? fun x => f x = k) =
      if j = k then none else l.find? fun x => f x = k := by
  split
  · next hjk =>
    subst hjk
    refine List.find?_eq_none.mpr fun x hx => ?_
    simpa using (List.mem_filter.mp hx).2
  · next hjk =>
    rw [List.find?_filter]
    congr 1
    funext x
    by_cases hx : f x = k
    · simp [hx, Ne.symm hjk]
    · simp [hx]

/-- A list with distinct keys is any of its entries and the entries of the other keys. -/
theorem perm_cons_filter_key (h : (l.map f).Nodup) (ha : a ∈ l) :
    l.Perm (a :: l.filter fun x => f x ≠ f a) := by
  induction l with
  | nil => cases ha
  | cons b l ih =>
    obtain ⟨hb, hl⟩ := List.nodup_cons.mp h
    rcases List.mem_cons.mp ha with rfl | ha
    · rw [List.filter_cons_of_neg (by simp), filter_key_ne_eq_self hb]
    · have hne : f b ≠ f a := fun he => hb (he ▸ List.mem_map_of_mem ha)
      rw [List.filter_cons_of_pos (by simpa using hne)]
      exact ((ih hl ha).cons b).trans (.swap a b _)

theorem perm_cons_filter_ne {l : List κ} {k : κ} (h : l.Nodup) (hk : k ∈ l) :
    l.Perm (k :: l.filter (· ≠ k)) :=
  perm_cons_filter_key (f := id) (by simpa using h) hk

/-- Changing the entry of a key changes that entry and no other. -/
theorem map_key_perm (g : α → α) (h : (l.map f).Nodup) (ha : a ∈ l) :
    (l.map fun x => if f x = f a then g x else x).Perm (g a :: l.filter fun x => f x ≠ f a) := by
  refine ((perm_cons_filter_key h ha).map _).trans ?_
  rw [List.map_cons, if_pos rfl]
  refine .cons _ (.of_eq ?_)
  refine (List.map_congr_left fun x hx => ?_).trans (List.map_id _)
  rw [if_neg (by simpa using (List.mem_filter.mp hx).2), id]

/-- What is left of a list without repetitions, in any order, has none either. -/
theorem nodup_of_subperm {l l' : List α} (h : l.Subperm l') (hl : l'.Nodup) : l.Nodup := by
  obtain ⟨k, hk, hsub⟩ := h
  exact hk.nodup_iff.mp (hsub.nodup hl)

theorem SortedByName.perm_insert {entries : List (String × α)} {name : String}
    (h : get? name entries = none) (a : α) :
    (insert name a entries).Perm ((name, a) :: entries) := by
  induction entries with
  | nil => exact .refl _
  | cons e rest ih =>
    obtain ⟨k, b⟩ := e
    simp only [insert]
    split
    · exact .refl _
    · split
      · next hk => simp [get?, hk] at h
      · next hk =>
        have hrest : get? name rest = none := by simpa [get?, Ne.symm hk] using h
        exact ((ih hrest).cons _).trans (.swap _ _ _)

theorem SortedByName.mem_insert {name : String} {entries : List (String × α)} {e : String × α}
    (h : e ∈ insert name a entries) : e = (name, a) ∨ e ∈ entries := by
  induction entries with
  | nil => exact .inl (List.mem_singleton.mp h)
  | cons b rest ih =>
    obtain ⟨k, b⟩ := b
    simp only [insert] at h
    split at h
    · exact List.mem_cons.mp h
    · split at h
      · rcases List.mem_cons.mp h with hnew | hold
        · exact .inl hnew
        · exact .inr (List.mem_cons_of_mem _ hold)
      · rcases List.mem_cons.mp h with hfirst | hrest
        · exact .inr (hfirst ▸ List.mem_cons_self)
        · exact (ih hrest).imp_right (List.mem_cons_of_mem _)

/-- The last entry that a name was given is the one that counts. -/
theorem SortedByName.insert_insert (name : String) (a b : α) (entries : List (String × α)) :
    insert name b (insert name a entries) = insert name b entries := by
  induction entries with
  | nil => simp [insert]
  | cons e rest ih =>
    obtain ⟨k, c⟩ := e
    by_cases hlt : name < k
    · simp [insert, hlt]
    · by_cases heq : name = k
      · simp [insert, heq]
      · simp [insert, hlt, heq, ih]

/-- Entries in the order of their names, put in their places one after the other, are these
entries. -/
theorem SortedByName.foldl_insert {entries : List (String × α)} (h : SortedByName entries) :
    entries.foldl (fun d e => insert e.1 e.2 d) [] = entries := by
  have hlast : ∀ {name : String} {b : α} {before : List (String × α)},
      (∀ k ∈ before.map Prod.fst, k < name) → insert name b before = before ++ [(name, b)] := by
    intro name b before hbefore
    induction before with
    | nil => rfl
    | cons e before ih =>
      obtain ⟨he, hrest⟩ := List.forall_mem_cons.mp hbefore
      rw [insert, if_neg (String.lt_asymm he), if_neg (String.ne_of_lt he).symm, ih hrest]
      rfl
  have hall : ∀ after before : List (String × α), SortedByName (before ++ after) →
      after.foldl (fun d e => insert e.1 e.2 d) before = before ++ after := by
    intro after
    induction after with
    | nil => exact fun before _ => (List.append_nil before).symm
    | cons e after ih =>
      intro before hsorted
      have hbefore : ∀ k ∈ before.map Prod.fst, k < e.1 := fun k hk => by
        rw [SortedByName, List.map_append] at hsorted
        exact (List.pairwise_append.mp hsorted).2.2 k hk e.1 List.mem_cons_self
      rw [List.foldl_cons, hlast hbefore, ih _ (by rwa [List.append_assoc]), List.append_assoc]
      rfl
  exact hall entries [] h

theorem SortedByName.get?_eq_none {name : String} {entries : List (String × α)}
    (h : name ∉ entries.map Prod.fst) : get? name entries = none := by
  refine Option.map_eq_none_iff.mpr (List.find?_eq_none.mpr fun e he heq => h ?_)
  exact of_decide_eq_true heq ▸ List.mem_map_of_mem he

/-- A sort leaves no entry out and adds none. -/
theorem SortedByName.perm_sort {entries : List (String × α)} (h : (entries.map Prod.fst).Nodup) :
    (sort entries).Perm entries := by
  induction entries with
  | nil => exact .refl _
  | cons e rest ih =>
    obtain ⟨hnew, hrest⟩ := List.nodup_cons.mp h
    have hperm := ih hrest
    have hnone : get? e.1 (sort rest) = none :=
      get?_eq_none fun hmem => hnew ((hperm.map Prod.fst).mem_iff.mp hmem)
    exact (perm_insert hnone e.2).trans (hperm.cons e)

/-- There is one list of some entries in the order of their names. -/
theorem SortedByName.eq_of_perm {entries entries' : List (String × α)}
    (h : SortedByName entries) (h' : SortedByName entries') (hperm : entries.Perm entries') :
    entries = entries' :=
  hperm.eq_of_pairwise (fun _ _ _ _ hlt hgt => absurd hgt (String.lt_asymm hlt))
    ((List.pairwise_map (f := Prod.fst)).mp h) ((List.pairwise_map (f := Prod.fst)).mp h')

theorem SortedByName.map {β : Type} {entries : List (String × α)} (h : SortedByName entries)
    (g : String × α → β) : SortedByName (entries.map fun e => (e.1, g e)) := by
  rw [SortedByName, List.map_map]
  exact h

theorem SortedByName.get?_map {β : Type} (name : String) (entries : List (String × α))
    (g : α → β) :
    get? name (entries.map fun e => (e.1, g e.2)) = (get? name entries).map g := by
  rw [get?, get?, List.find?_map, Option.map_map, Option.map_map]
  rfl

theorem SortedByName.erase_insert (name : String) (a : α) (entries : List (String × α)) :
    erase name (insert name a entries) = erase name entries := by
  induction entries with
  | nil => simp [insert, erase]
  | cons e rest ih =>
    obtain ⟨k, b⟩ := e
    simp only [erase] at ih
    by_cases hlt : name < k
    · simp [insert, erase, hlt]
    · by_cases heq : name = k
      · simp [insert, erase, heq]
      · simp only [insert, if_neg hlt, if_neg heq, erase, List.filter_cons, ih]

namespace Dict

variable {d : Dict α} {name : String}

theorem get?_map {β : Type} (d : Dict α) (f : String → α → β) (name : String) :
    (d.map f).get? name = (d.get? name).map (f name) := by
  simp only [Dict.get?, Dict.map, SortedByName.get?]
  induction d.entries with
  | nil => rfl
  | cons e rest ih =>
    by_cases h : e.1 = name
    · simp [h]
    · simpa [h] using ih

theorem get?_modify (d : Dict α) (name other : String) (f : α → α) :
    (d.modify name f).get? other = if other = name then (d.get? other).map f else d.get? other := by
  rw [modify, get?_map]
  by_cases h : other = name
  · simp [h]
  · simp [h]

theorem keys_nodup (d : Dict α) : d.keys.Nodup := by
  refine d.keys_pairwise.imp fun {j k} hlt => ?_
  rintro rfl
  exact String.lt_irrefl j hlt

/-- In whatever order the entries of a dictionary come, they are sorted into the dictionary. -/
theorem sort_eq {entries : List (String × α)} (h : entries.Perm d.entries) :
    SortedByName.sort entries = d.entries := by
  have hnodup : (entries.map Prod.fst).Nodup := (h.map Prod.fst).nodup_iff.mpr d.keys_nodup
  exact (SortedByName.sorted_sort entries).eq_of_perm d.sorted
    ((SortedByName.perm_sort hnodup).trans h)

theorem sortedNames_eq {entries : List (String × α)} (h : entries.Perm d.entries) :
    SortedByName.sortedNames entries = d.keys :=
  congrArg (List.map Prod.fst) (sort_eq h)

@[simp] theorem sort_entries (d : Dict α) : SortedByName.sort d.entries = d.entries :=
  sort_eq (.refl _)

@[simp] theorem sortedNames_entries (d : Dict α) :
    SortedByName.sortedNames d.entries = d.keys :=
  sortedNames_eq (.refl _)

theorem mem_entries_of_get? (h : d.get? name = some a) : (name, a) ∈ d.entries := by
  obtain ⟨⟨k, b⟩, hfind, rfl⟩ := Option.map_eq_some_iff.mp h
  have hk : k = name := by simpa using List.find?_some hfind
  exact hk ▸ List.mem_of_find?_eq_some hfind

/-- The names are those that have an entry. -/
theorem mem_keys : name ∈ d.keys ↔ ∃ a, d.get? name = some a := by
  constructor
  · intro h
    refine Option.isSome_iff_exists.mp ?_
    obtain ⟨e, he, rfl⟩ := List.mem_map.mp h
    rw [get?, SortedByName.get?, Option.isSome_map, List.find?_isSome]
    exact ⟨e, he, decide_eq_true rfl⟩
  · rintro ⟨a, h⟩
    exact List.mem_map_of_mem (f := Prod.fst) (mem_entries_of_get? h)

/-- The entries are what the look-ups find. -/
theorem mem_entries_iff : (name, a) ∈ d.entries ↔ d.get? name = some a := by
  refine ⟨fun h => ?_, mem_entries_of_get?⟩
  obtain ⟨b, hb⟩ := mem_keys.mp (List.mem_map_of_mem (f := Prod.fst) h)
  have hsame := List.inj_on_of_nodup_map d.keys_nodup h (mem_entries_of_get? hb) rfl
  rw [hb, (Prod.mk.inj hsame).2]

theorem entries_ofList {entries : List (String × α)} (h : SortedByName entries) :
    (ofList entries).entries = entries := by
  have hall : ∀ (entries : List (String × α)) (d : Dict α),
      (entries.foldl (fun d e => d.insert e.1 e.2) d).entries =
        entries.foldl (fun l e => SortedByName.insert e.1 e.2 l) d.entries := by
    intro entries
    induction entries with
    | nil => exact fun d => rfl
    | cons e rest ih => exact fun d => ih _
  exact (hall entries empty).trans h.foldl_insert

theorem insert_insert (d : Dict α) (name : String) (a b : α) :
    (d.insert name a).insert name b = d.insert name b :=
  ext (SortedByName.insert_insert name a b d.entries)

/-- A name without an entry gets one beside all others. -/
theorem perm_insert (h : d.get? name = none) (a : α) :
    (d.insert name a).entries.Perm ((name, a) :: d.entries) :=
  SortedByName.perm_insert h a

/-- Taking a name out takes its entry out. -/
theorem perm_erase (h : d.get? name = some a) :
    d.entries.Perm ((name, a) :: (d.erase name).entries) :=
  perm_cons_filter_key (f := Prod.fst) d.keys_nodup (mem_entries_of_get? h)

end Dict

end LanguageHost
