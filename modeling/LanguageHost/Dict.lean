/-!
# Dictionaries in name order

A dictionary maps names to entries and keeps them in increasing order of the name, each name at
most once.  Entries that come in any order are put in that order by `SortedByName.sort`, which is
how the names of a table that keeps no order of its own are listed.

Main facts: `keys_pairwise` (the names strictly increase), `get?_insert` and `get?_erase` (what a
look-up sees after a change).
-/

namespace LanguageHost

/-- The names of a list of named entries strictly increase. -/
def SortedByName {α : Type} (entries : List (String × α)) : Prop :=
  (entries.map Prod.fst).Pairwise (· < ·)

namespace SortedByName

/-- Puts a name's entry in its place, in front of the first larger name. -/
def insert {α : Type} (name : String) (a : α) : List (String × α) → List (String × α)
  | [] => [(name, a)]
  | (k, b) :: rest =>
    if name < k then (name, a) :: (k, b) :: rest
    else if name = k then (name, a) :: rest
    else (k, b) :: insert name a rest

/-- Takes a name out. -/
def erase {α : Type} (name : String) (entries : List (String × α)) : List (String × α) :=
  entries.filter fun e => e.1 ≠ name

/-- The entry of a name. -/
def get? {α : Type} (name : String) (entries : List (String × α)) : Option α :=
  (entries.find? fun e => e.1 = name).map Prod.snd

/-- Sorts entries of distinct names, which come in any order, by their names. -/
def sort {α : Type} : List (String × α) → List (String × α)
  | [] => []
  | (name, a) :: rest => insert name a (sort rest)

/-- The names, sorted, of entries that come in any order. -/
def sortedNames {α : Type} (entries : List (String × α)) : List String :=
  (sort entries).map Prod.fst

theorem mem_keys_insert {α : Type} {name k : String} {a : α} {entries : List (String × α)} :
    k ∈ (insert name a entries).map Prod.fst ↔ k = name ∨ k ∈ entries.map Prod.fst := by
  induction entries with
  | nil => simp [insert]
  | cons e rest ih =>
    obtain ⟨j, b⟩ := e
    simp only [insert]
    split
    · simp
    · split
      · next h => subst h; simp
      · simp only [List.map_cons, List.mem_cons, ih]
        constructor
        · rintro (h | h | h) <;> simp [h]
        · rintro (h | h | h) <;> simp [h]

/-- A name that is neither smaller than nor equal to another one is larger. -/
theorem lt_of_not_lt_of_ne {a b : String} (h : ¬ a < b) (hne : a ≠ b) : b < a :=
  String.not_le.mp fun hab => hne (String.le_antisymm hab (String.not_lt.mp h))

theorem sorted_insert {α : Type} (name : String) (a : α) {entries : List (String × α)}
    (h : SortedByName entries) : SortedByName (insert name a entries) := by
  induction entries with
  | nil => simp [insert, SortedByName]
  | cons e rest ih =>
    obtain ⟨j, b⟩ := e
    have hj : ∀ k ∈ rest.map Prod.fst, j < k := (List.pairwise_cons.mp h).1
    have hrest : SortedByName rest := (List.pairwise_cons.mp h).2
    simp only [insert]
    split
    · next hlt =>
      refine List.pairwise_cons.mpr ⟨?_, h⟩
      intro k hk
      rcases List.mem_cons.mp hk with rfl | hk
      · exact hlt
      · exact String.lt_trans hlt (hj k hk)
    · next hlt =>
      split
      · next heq =>
        subst heq
        exact List.pairwise_cons.mpr ⟨hj, hrest⟩
      · next hne =>
        refine List.pairwise_cons.mpr ⟨?_, ih hrest⟩
        intro k hk
        rcases mem_keys_insert.mp hk with rfl | hk
        · exact lt_of_not_lt_of_ne hlt hne
        · exact hj k hk

theorem sorted_sort {α : Type} (entries : List (String × α)) : SortedByName (sort entries) := by
  induction entries with
  | nil => exact List.Pairwise.nil
  | cons e rest ih => exact sorted_insert e.1 e.2 ih

theorem sorted_erase {α : Type} (name : String) {entries : List (String × α)}
    (h : SortedByName entries) : SortedByName (erase name entries) :=
  List.Pairwise.sublist (List.filter_sublist.map Prod.fst) h

theorem get?_insert {α : Type} {name k : String} {a : α} {entries : List (String × α)} :
    get? k (insert name a entries) = if k = name then some a else get? k entries := by
  induction entries with
  | nil =>
    by_cases hk : k = name
    · simp [insert, get?, hk]
    · simp [insert, get?, hk, Ne.symm hk]
  | cons e rest ih =>
    obtain ⟨j, b⟩ := e
    simp only [insert]
    split
    · by_cases hk : k = name
      · simp [get?, hk]
      · simp [get?, hk, Ne.symm hk]
    · split
      · next h =>
        subst h
        by_cases hk : k = name
        · simp [get?, hk]
        · simp [get?, hk, Ne.symm hk]
      · next hne =>
        by_cases hjk : j = k
        · subst hjk
          simp [get?, Ne.symm hne]
        · have := ih
          simp only [get?] at this
          simp [get?, hjk, this]

theorem get?_erase {α : Type} {name k : String} {entries : List (String × α)} :
    get? k (erase name entries) = if k = name then none else get? k entries := by
  induction entries with
  | nil => simp [erase, get?]
  | cons e rest ih =>
    obtain ⟨j, b⟩ := e
    by_cases hj : j = name
    · subst hj
      have : erase j ((j, b) :: rest) = erase j rest := by simp [erase]
      rw [this, ih]
      by_cases hk : k = j
      · simp [hk]
      · simp [hk, get?, Ne.symm hk]
    · have : erase name ((j, b) :: rest) = (j, b) :: erase name rest := by simp [erase, hj]
      rw [this]
      by_cases hjk : j = k
      · subst hjk
        simp [get?, hj]
      · simpa [get?, hjk] using ih

end SortedByName

/-- Named entries in strictly increasing order of their names. -/
structure Dict (α : Type) where
  entries : List (String × α)
  sorted : SortedByName entries

namespace Dict

variable {α β : Type}

@[ext] theorem ext {d e : Dict α} (h : d.entries = e.entries) : d = e := by
  cases d; cases e; cases h; rfl

instance [DecidableEq α] : DecidableEq (Dict α) := fun d e =>
  if h : d.entries = e.entries then isTrue (ext h) else isFalse fun he => h (he ▸ rfl)

/-- The dictionary without entries. -/
def empty : Dict α := ⟨[], List.Pairwise.nil⟩

instance : Inhabited (Dict α) := ⟨empty⟩

/-- The entry of a name. -/
def get? (d : Dict α) (name : String) : Option α := SortedByName.get? name d.entries

/-- Whether a name has an entry. -/
def contains (d : Dict α) (name : String) : Bool := (d.get? name).isSome

/-- Adds an entry, or replaces the entry of that name. -/
def insert (d : Dict α) (name : String) (a : α) : Dict α :=
  ⟨SortedByName.insert name a d.entries, SortedByName.sorted_insert name a d.sorted⟩

/-- Takes a name out. -/
def erase (d : Dict α) (name : String) : Dict α :=
  ⟨SortedByName.erase name d.entries, SortedByName.sorted_erase name d.sorted⟩

/-- The names, in increasing order. -/
def keys (d : Dict α) : List String := d.entries.map Prod.fst

/-- The number of entries. -/
def size (d : Dict α) : Nat := d.entries.length

/-- A dictionary of a list of entries; the last entry of a name counts. -/
def ofList (entries : List (String × α)) : Dict α :=
  entries.foldl (fun d e => d.insert e.1 e.2) empty

/-- Changes every entry and keeps the names. -/
def map (f : String → α → β) (d : Dict α) : Dict β :=
  ⟨d.entries.map fun e => (e.1, f e.1 e.2), by
    simpa [SortedByName, Function.comp_def] using d.sorted⟩

/-- Changes the entry of one name, if there is one. -/
def modify (d : Dict α) (name : String) (f : α → α) : Dict α :=
  d.map fun k a => if k = name then f a else a

theorem keys_pairwise (d : Dict α) : d.keys.Pairwise (· < ·) := d.sorted

@[simp] theorem get?_empty (name : String) : (empty : Dict α).get? name = none := rfl

theorem get?_insert (d : Dict α) (name k : String) (a : α) :
    (d.insert name a).get? k = if k = name then some a else d.get? k :=
  SortedByName.get?_insert

theorem get?_erase (d : Dict α) (name k : String) :
    (d.erase name).get? k = if k = name then none else d.get? k :=
  SortedByName.get?_erase

end Dict

end LanguageHost
