import LanguageHost.Proofs.Config.Ordered
import LanguageHost.Proofs.Json.RoundTrip

/-!
# The tree of a file

A file is put on an empty tree entry by entry, and every name outside arrays that is merged on the
way is put in lower case.  What comes of a value is the same value with all these names in lower
case (`Json.lowered`), unless two names of one table become the same (`Json.Apart`): then no table
is merged into another one, and `Path.setKey` sets the whole value (`Path.setKey_of_apart`, by
induction on the value).  A name of a file may also be read as a path; a name with dots or brackets
stays one with dots or brackets in lower case, so it is never the name of a part of the
configuration (`Path.ofString_of_lower`).
-/

namespace LanguageHost

namespace Text

/-- A character without another lower case, other than a sigma, is kept. -/
theorem mem_lowerFrom {c : Char} (hlower : lowerChar c = [c]) (hsigma : c ≠ 'Σ')
    {before cs : List Char} (h : c ∈ cs) : c ∈ lowerFrom before cs := by
  induction cs generalizing before with
  | nil => cases h
  | cons d rest ih =>
    unfold lowerFrom
    rcases List.mem_cons.mp h with rfl | hrest
    · rw [if_neg hsigma, hlower]
      exact List.mem_cons_self
    · exact List.mem_append_right _ (ih hrest)

end Text

namespace Json

mutual

/-- The value with every name outside arrays in lower case; of two members of an object that have
one name then the later one counts. -/
def lowered : Json → Json
  | obj members => ofMembers (loweredMembers members)
  | v => v

/-- Members with all names in lower case. -/
def loweredMembers : List (String × Json) → List (String × Json)
  | [] => []
  | (name, v) :: rest => (Text.lower name, lowered v) :: loweredMembers rest

end

/-- A value in which no two names of one object outside arrays are the same in lower case. -/
inductive Apart : Json → Prop where
  | leaf {v : Json} (h : v.isLeaf = true) : Apart v
  | arr (items : List Json) : Apart (.arr items)
  | obj {members : List (String × Json)}
      (hnodup : (members.map fun m => Text.lower m.1).Nodup)
      (h : ∀ m ∈ members, Apart m.2) : Apart (.obj members)

mutual

/-- The names outside arrays. -/
def names : Json → List String
  | obj members => memberNames members
  | _ => []

/-- The names of members, and those in the members. -/
def memberNames : List (String × Json) → List String
  | [] => []
  | (name, v) :: rest => name :: (names v ++ memberNames rest)

end

/-- A value in which all names outside arrays are in lower case. -/
def LowerCase (v : Json) : Prop := ∀ name ∈ v.names, Text.lower name = name

instance (v : Json) : Decidable v.LowerCase :=
  inferInstanceAs (Decidable (∀ name ∈ v.names, Text.lower name = name))

variable {v : Json} {members : List (String × Json)}

theorem loweredMembers_eq_map (members : List (String × Json)) :
    loweredMembers members = members.map fun m => (Text.lower m.1, m.2.lowered) := by
  induction members with
  | nil => rfl
  | cons m rest ih => rw [loweredMembers, List.map_cons, ih]

theorem lowered_of_isLeaf (h : v.isLeaf = true) : v.lowered = v := by
  cases v with
  | obj members => cases h
  | _ => rfl

/-- Names in lower case stand in their order again. -/
theorem Ordered.lowered (h : v.Ordered) : v.lowered.Ordered := by
  induction h with
  | leaf hleaf => exact (lowered_of_isLeaf hleaf).symm ▸ .leaf hleaf
  | arr h => exact .arr h
  | obj _ _ ih =>
    refine ordered_ofMembers fun m hm => ?_
    rw [loweredMembers_eq_map] at hm
    obtain ⟨m', hm', rfl⟩ := List.mem_map.mp hm
    exact ih m' hm'

theorem Apart.nodup (h : (Json.obj members).Apart) :
    (members.map fun m => Text.lower m.1).Nodup := by
  cases h with
  | leaf h => cases h
  | obj hnodup => exact hnodup

theorem Apart.member (h : (Json.obj members).Apart) {m : String × Json} (hm : m ∈ members) :
    m.2.Apart := by
  cases h with
  | leaf h => cases h
  | obj _ hmembers => exact hmembers m hm

theorem memberNames_eq_flatMap (members : List (String × Json)) :
    memberNames members = members.flatMap fun m => m.1 :: m.2.names := by
  induction members with
  | nil => rfl
  | cons m rest ih => rw [memberNames, List.flatMap_cons, ih, List.cons_append]

theorem LowerCase.member (h : (Json.obj members).LowerCase) {m : String × Json}
    (hm : m ∈ members) : Text.lower m.1 = m.1 ∧ m.2.LowerCase := by
  have hall : ∀ name ∈ m.1 :: m.2.names, Text.lower name = name := fun name hname => by
    refine h name ?_
    rw [names, memberNames_eq_flatMap]
    exact List.mem_flatMap.mpr ⟨m, hm, hname⟩
  exact List.forall_mem_cons.mp hall

/-- Different names in lower case are different in lower case. -/
theorem LowerCase.apart (hordered : v.Ordered) (h : v.LowerCase) : v.Apart := by
  induction hordered with
  | leaf hleaf => exact .leaf hleaf
  | arr => exact .arr _
  | @obj members hsorted _ ih =>
    refine .obj ?_ fun m hm => ih m hm (h.member hm).2
    have hsame : (members.map fun m => Text.lower m.1) = members.map Prod.fst :=
      List.map_congr_left fun m hm => (h.member hm).1
    rw [hsame]
    exact hsorted.imp String.ne_of_lt

/-- Nothing changes where all names are in lower case. -/
theorem LowerCase.lowered_eq (hordered : v.Ordered) (h : v.LowerCase) : v.lowered = v := by
  induction hordered with
  | leaf hleaf => exact lowered_of_isLeaf hleaf
  | arr => rfl
  | @obj members hsorted _ ih =>
    have hsame : loweredMembers members = members := by
      rw [loweredMembers_eq_map]
      refine (List.map_congr_left fun m hm => ?_).trans (List.map_id members)
      obtain ⟨hname, hvalue⟩ := h.member hm
      exact Prod.ext hname (ih m hm hvalue)
    rw [Json.lowered, hsame, ofMembers_of_sorted hsorted]

end Json

namespace Path

variable {key name : String} {v : Json} {t : List (String × Json)} {s : String}

/-! ### Setting a key -/

theorem exists_setKey (key : String) (v : Json) (t : List (String × Json)) :
    ∃ w, setKey key v (.obj t) = .obj (SortedByName.insert (Text.lower key) w t) := by
  unfold setKey
  split
  · exact ⟨_, rfl⟩
  · exact ⟨_, rfl⟩

/-- Members with different names are merged into a table that has none of these names by putting
each of them in its place. -/
theorem mergeKeys_of_apart {members : List (String × Json)}
    (hset : ∀ m ∈ members, ∀ t, SortedByName.get? (Text.lower m.1) t = none →
      setKey m.1 m.2 (.obj t) = .obj (SortedByName.insert (Text.lower m.1) m.2.lowered t))
    (hnodup : (members.map fun m => Text.lower m.1).Nodup)
    (hfresh : ∀ m ∈ members, SortedByName.get? (Text.lower m.1) t = none) :
    mergeKeys members (.obj t) = .obj ((Json.loweredMembers members).foldl
      (fun t m => SortedByName.insert m.1 m.2 t) t) := by
  induction members generalizing t with
  | nil => rfl
  | cons m rest ih =>
    obtain ⟨hm, hrest⟩ := List.forall_mem_cons.mp hset
    obtain ⟨hmfresh, hrestfresh⟩ := List.forall_mem_cons.mp hfresh
    obtain ⟨hnot, hrestnodup⟩ := List.nodup_cons.mp hnodup
    have hnext : ∀ m' ∈ rest, SortedByName.get? (Text.lower m'.1)
        (SortedByName.insert (Text.lower m.1) m.2.lowered t) = none := fun m' hm' => by
      have hne : Text.lower m'.1 ≠ Text.lower m.1 := fun heq =>
        hnot (List.mem_map.mpr ⟨m', hm', heq⟩)
      rw [SortedByName.get?_insert, if_neg hne]
      exact hrestfresh m' hm'
    rw [mergeKeys, hm t hmfresh, ih hrest hrestnodup hnext, Json.loweredMembers, List.foldl_cons]

/-- A value without names that become the same is set with all its names in lower case. -/
theorem setKey_of_apart (h : v.Apart) (hfresh : SortedByName.get? (Text.lower key) t = none) :
    setKey key v (.obj t) = .obj (SortedByName.insert (Text.lower key) v.lowered t) := by
  induction h generalizing key t with
  | @leaf v hleaf =>
    cases v with
    | arr items => cases hleaf
    | obj members => cases hleaf
    | _ => rfl
  | arr items => rfl
  | obj hnodup _ ih =>
    have hmerge := mergeKeys_of_apart (t := []) (fun m hm t => ih m hm) hnodup fun _ _ => rfl
    simp only [setKey, Json.asObj?, Option.getD_some, hfresh, Option.getD_none]
    rw [hmerge]
    rfl

/-! ### Names that are read as paths -/

theorem eq_append_of_key? {cs rest : List Char} (h : key? cs = some (name, rest)) :
    cs = name.toList ++ rest := by
  unfold key? at h
  split at h
  · cases h
  · obtain ⟨rfl, rfl⟩ := Prod.mk.inj (Option.some.inj h)
    rw [String.toList_ofList, List.takeWhile_append_dropWhile]

/-- What follows a key is nothing, or it begins with a dot or a bracket and spells a step. -/
theorem steps?_cases {fuel : Nat} {rest : List Char} {steps : List PathStep}
    (h : steps? fuel rest = some steps) :
    rest = [] ∧ steps = [] ∨ steps ≠ [] ∧ ('.' ∈ rest ∨ '[' ∈ rest) := by
  unfold steps? at h
  split at h
  · exact .inl ⟨rfl, (Option.some.inj h).symm⟩
  · cases h
  · simp only [Option.bind_eq_bind, Option.bind_eq_some_iff, Option.pure_def,
      Option.some.injEq] at h
    obtain ⟨_, -, _, -, rfl⟩ := h
    exact .inr ⟨List.cons_ne_nil _ _, .inl List.mem_cons_self⟩
  · simp only [Option.bind_eq_bind, Option.bind_eq_some_iff, Option.pure_def,
      Option.some.injEq] at h
    obtain ⟨_, -, _, -, rfl⟩ := h
    exact .inr ⟨List.cons_ne_nil _ _, .inr List.mem_cons_self⟩
  · cases h

/-- A text without steps is a single key, and a text with steps has a dot or a bracket. -/
theorem ofString_cases (s : String) :
    ofString s = ⟨s, []⟩ ∨ (ofString s).steps ≠ [] ∧ ('.' ∈ s.toList ∨ '[' ∈ s.toList) := by
  cases hparse : parse? s with
  | none => exact .inl (by rw [ofString, hparse, Option.getD_none])
  | some p =>
    have hpath : ofString s = p := by rw [ofString, hparse, Option.getD_some]
    simp only [parse?, Option.bind_eq_bind, Option.bind_eq_some_iff, Option.pure_def,
      Option.some.injEq] at hparse
    obtain ⟨⟨head, rest⟩, hkey, steps, hsteps, rfl⟩ := hparse
    have htext := eq_append_of_key? hkey
    rw [hpath]
    rcases steps?_cases hsteps with ⟨rfl, rfl⟩ | ⟨hne, hmark⟩
    · rw [List.append_nil] at htext
      exact .inl (String.toList_inj.mp htext ▸ rfl)
    · refine .inr ⟨hne, ?_⟩
      rw [htext]
      exact hmark.imp (List.mem_append_right _) (List.mem_append_right _)

/-- A text that becomes a name without dots and brackets in lower case is a single key. -/
theorem ofString_of_lower (h : Text.lower s = name) (hdot : '.' ∉ name.toList)
    (hbracket : '[' ∉ name.toList) : ofString s = ⟨s, []⟩ := by
  have hkept : ∀ {c : Char}, Text.lowerChar c = [c] → c ≠ 'Σ' → c ∈ s.toList → c ∈ name.toList :=
    fun hlower hsigma hmem => by
      rw [← h, Text.lower, String.toList_ofList]
      exact Text.mem_lowerFrom hlower hsigma hmem
  rcases ofString_cases s with hkey | ⟨-, hfound | hfound⟩
  · exact hkey
  · exact absurd (hkept (by decide) (by decide) hfound) hdot
  · exact absurd (hkept (by decide) (by decide) hfound) hbracket

/-- What is set under another name leaves a name alone. -/
theorem get?_set_of_ne (hne : Text.lower s ≠ name)
    (hpath : (ofString s).head = name → (ofString s).steps = []) (v : Json)
    (t : List (String × Json)) :
    ∃ t', (ofString s).set v (.obj t) = .obj t' ∧
      SortedByName.get? name t' = SortedByName.get? name t := by
  rcases ofString_cases s with hkey | ⟨hsteps, -⟩
  · obtain ⟨w, hw⟩ := exists_setKey s v t
    rw [hkey]
    exact ⟨_, hw, by rw [SortedByName.get?_insert, if_neg (Ne.symm hne)]⟩
  · have hhead : name ≠ (ofString s).head := fun heq => hsteps (hpath heq.symm)
    unfold set
    split
    · next hnone => exact absurd hnone hsteps
    · exact ⟨_, rfl, by rw [SortedByName.get?_insert, if_neg hhead]; rfl⟩

end Path

namespace HostConfig

variable {name : String} {entries : List (String × Json)}

/-- What stands under a name after entries have been put on a tree is what stands there after they
have been put in their places with all names in lower case. -/
theorem get?_layer {t u : List (String × Json)} (hdot : '.' ∉ name.toList)
    (hbracket : '[' ∉ name.toList)
    (hpaths : ∀ e ∈ entries, (Path.ofString e.1).head = name → (Path.ofString e.1).steps = [])
    (hapart : ∀ e ∈ entries, e.2.Apart) (hnodup : (entries.map fun e => Text.lower e.1).Nodup)
    (hfresh : ∀ e ∈ entries, Text.lower e.1 = name → SortedByName.get? name t = none)
    (hsame : SortedByName.get? name t = SortedByName.get? name u) :
    ∃ t', layer (.obj t) entries = .obj t' ∧
      SortedByName.get? name t' = SortedByName.get? name ((Json.loweredMembers entries).foldl
        (fun d e => SortedByName.insert e.1 e.2 d) u) := by
  induction entries generalizing t u with
  | nil => exact ⟨t, rfl, hsame⟩
  | cons e rest ih =>
    obtain ⟨hpath, hpaths⟩ := List.forall_mem_cons.mp hpaths
    obtain ⟨hv, hapart⟩ := List.forall_mem_cons.mp hapart
    obtain ⟨hnew, hnodup⟩ := List.nodup_cons.mp hnodup
    obtain ⟨hfirst, hfresh⟩ := List.forall_mem_cons.mp hfresh
    rw [layer, List.foldl_cons, Json.loweredMembers, List.foldl_cons]
    by_cases hname : Text.lower e.1 = name
    · have hset : (Path.ofString e.1).set e.2 (.obj t) =
          .obj (SortedByName.insert name e.2.lowered t) := by
        rw [Path.ofString_of_lower hname hdot hbracket]
        exact hname ▸ Path.setKey_of_apart hv (hname ▸ hfirst hname)
      rw [hset]
      refine ih hpaths hapart hnodup (fun e' he' hname' => ?_) ?_
      · exact absurd (List.mem_map.mpr ⟨e', he', hname'.trans hname.symm⟩) hnew
      · rw [hname, SortedByName.get?_insert, SortedByName.get?_insert, if_pos rfl, if_pos rfl]
    · obtain ⟨t', hset, hget⟩ := Path.get?_set_of_ne hname hpath e.2 t
      rw [hset]
      refine ih hpaths hapart hnodup (fun e' he' hname' => ?_) ?_
      · exact hget.trans (hfresh e' he' hname')
      · rw [hget, SortedByName.get?_insert, if_neg (Ne.symm hname), hsame]

end HostConfig

end LanguageHost
