import LanguageHost.Config.Load
import LanguageHost.Proofs.Config.Ordered

/-!
# Places in a tree

A variable of the environment sets one text.  What it can change is found from its path alone, by
the keys up to the last one or to the first index (`Path.reach`): a place that is neither above nor
below it keeps its value (`Path.at?_set_of_not_meets`), a place above it becomes a table, and
nothing stands below it.  Each of these laws is proved by induction on the steps of the path.  For
variables that are put on a tree one after the other it follows that a place that none of them meets
keeps its value (`HostConfig.at?_put_of_untouched`).
-/

namespace LanguageHost

/-- Whether one of two places is the other one, above it or below it. -/
def Meets (p q : List String) : Prop := p <+: q ∨ q <+: p

instance (p q : List String) : Decidable (Meets p q) :=
  inferInstanceAs (Decidable (p <+: q ∨ q <+: p))

theorem meets_cons {key : String} {p q : List String} :
    Meets (key :: p) (key :: q) ↔ Meets p q := by
  simp only [Meets, List.cons_prefix_cons, true_and]

theorem Meets.symm {p q : List String} (h : Meets p q) : Meets q p := Or.symm h

theorem meets_nil (p : List String) : Meets p [] := .inr List.nil_prefix

/-- What meets a place and is not below it meets the places below it, too. -/
theorem Meets.of_prefix {p q r : List String} (h : Meets p r) (hqr : q <+: r) : Meets p q := by
  rcases h with hpr | hrp
  · exact List.prefix_or_prefix_of_prefix hpr hqr
  · exact .inr (hqr.trans hrp)

namespace Json

/-- What stands at the end of names in a value. -/
def at? : List String → Json → Option Json
  | [], v => some v
  | name :: rest, v => (v.member? name).bind (at? rest)

variable {v : Json} {name : String} {p q : List String}

/-- Whether an array stands at a place. -/
def HasArray (v : Json) (q : List String) : Prop := ∃ items, v.at? q = some (.arr items)

theorem at?_cons (name : String) (rest : List String) (v : Json) :
    v.at? (name :: rest) = (v.member? name).bind (at? rest) := rfl

theorem at?_singleton (name : String) (v : Json) : v.at? [name] = v.member? name := by
  rw [at?_cons]
  cases v.member? name <;> rfl

theorem at?_append (p q : List String) (v : Json) : v.at? (p ++ q) = (v.at? p).bind (at? q) := by
  induction p generalizing v with
  | nil => rfl
  | cons name p ih =>
    rw [List.cons_append, at?_cons, at?_cons]
    cases v.member? name with
    | none => rfl
    | some w => exact ih w

/-- Nothing stands below what is missing. -/
theorem at?_getD_null (hp : p ≠ []) (o : Option Json) : (o.getD .null).at? p = o.bind (at? p) := by
  cases o with
  | some w => rfl
  | none =>
    cases p with
    | nil => exact absurd rfl hp
    | cons name p => rfl

/-- Nothing stands below what is no table. -/
theorem at?_of_not_obj (h : ∀ members, v ≠ .obj members) (hp : p ≠ []) : v.at? p = none := by
  cases p with
  | nil => exact absurd rfl hp
  | cons name p =>
    cases v with
    | obj members => exact absurd rfl (h members)
    | _ => rfl

/-- Nothing stands below an array. -/
theorem HasArray.at?_append (h : v.HasArray p) (hq : q ≠ []) : v.at? (p ++ q) = none := by
  obtain ⟨items, hitems⟩ := h
  rw [Json.at?_append, hitems]
  exact at?_of_not_obj (fun _ h => by cases h) hq

theorem member?_asObj? (name : String) (v : Json) :
    SortedByName.get? name (v.asObj?.getD []) = v.member? name := by
  cases v <;> rfl

theorem Ordered.asObj? (h : v.Ordered) : (Json.obj (v.asObj?.getD [])).Ordered := by
  cases v with
  | obj members => exact h
  | _ => exact .obj List.Pairwise.nil fun _ hm => by cases hm

theorem Ordered.member? (h : v.Ordered) {w : Json} (hw : v.member? name = some w) :
    w.Ordered := by
  cases v with
  | obj members => exact h.get? hw
  | _ => cases hw

theorem Ordered.at? (h : v.Ordered) {w : Json} (hw : v.at? p = some w) : w.Ordered := by
  induction p generalizing v with
  | nil => exact Option.some.inj hw ▸ h
  | cons name p ih =>
    obtain ⟨u, hu, hw⟩ := Option.bind_eq_some_iff.mp hw
    exact ih (h.member? hu) hw

theorem ordered_insert {members : List (String × Json)} (h : (obj members).Ordered)
    (hv : v.Ordered) (name : String) : (obj (SortedByName.insert name v members)).Ordered := by
  refine .obj (SortedByName.sorted_insert name v h.sorted) fun m hm => ?_
  rcases SortedByName.mem_insert hm with rfl | hold
  · exact hv
  · exact h.member hold

end Json

namespace Path

variable {key name s : String} {steps : List PathStep} {v t u : Json} {p : Path} {q : List String}

/-! ### What setting a place does to the members of a table -/

theorem setSteps_child (v : Json) (name : String) (steps : List PathStep) :
    setSteps v (.child name :: steps) = (⟨name, steps⟩ : Path).set v := by
  funext t
  cases steps <;> rfl

theorem set_child (key name : String) (steps : List PathStep) (v t : Json) :
    (⟨key, .child name :: steps⟩ : Path).set v t =
      changeChild key ((⟨name, steps⟩ : Path).set v) t := by
  have hsteps : (⟨key, .child name :: steps⟩ : Path).set v t =
      changeChild key (setSteps v (.child name :: steps)) t := rfl
  rw [hsteps, setSteps_child]

theorem set_item (key : String) (index : Int) (steps : List PathStep) (v t : Json) :
    (⟨key, .item index :: steps⟩ : Path).set v t =
      changeChild key (changeItem index (setSteps v steps)) t := rfl

theorem member?_setKey (key name s : String) (t : Json) :
    (setKey key (.str s) t).member? name =
      if name = Text.lower key then some (.str s) else t.member? name := by
  rw [← Json.member?_asObj? name t]
  exact SortedByName.get?_insert

theorem member?_changeChild (key name : String) (f : Json → Json) (t : Json) :
    (changeChild key f t).member? name =
      if name = key then some (f ((t.member? key).getD .null)) else t.member? name := by
  rw [← Json.member?_asObj? name t, ← Json.member?_asObj? key t]
  exact SortedByName.get?_insert

/-- A table is what there is after a place has been set. -/
theorem exists_obj_set (p : Path) (v t : Json) : ∃ members, p.set v t = .obj members := by
  obtain ⟨key, steps⟩ := p
  cases steps with
  | nil => cases v <;> exact ⟨_, rfl⟩
  | cons step steps => exact ⟨_, rfl⟩

/-! ### How far a path reaches -/

/-- The keys from one on up to the last key, or to the first index. -/
def reachFrom : String → List PathStep → List String
  | key, [] => [Text.lower key]
  | key, .child name :: rest => key :: reachFrom name rest
  | key, .item _ :: _ => [key]

/-- The place that a path sets, or the array in which it sets an item or a part of one. -/
def reach (p : Path) : List String := reachFrom p.head p.steps

theorem reach_ne_nil (p : Path) : p.reach ≠ [] := by
  obtain ⟨key, steps⟩ := p
  cases steps with
  | nil => exact List.cons_ne_nil _ _
  | cons step steps => cases step <;> exact List.cons_ne_nil _ _

/-- Whether a step is a key. -/
def isChild : PathStep → Bool
  | .child _ => true
  | .item _ => false

/-- Whether a path has no index. -/
def isPlain (p : Path) : Bool := p.steps.all isChild

/-- What is neither above nor below the place that is set is kept. -/
theorem at?_set_of_not_meets (p : Path) (s : String) (t : Json) (h : ¬ Meets p.reach q) :
    (p.set (.str s) t).at? q = t.at? q := by
  obtain ⟨key, steps⟩ := p
  -- The key in front of the steps, the tree and the place vary together on the way down.
  induction steps generalizing key t q with
  | nil =>
    cases q with
    | nil => exact absurd (meets_nil _) h
    | cons name q =>
      have hne : name ≠ Text.lower key := fun heq =>
        h (heq ▸ .inl ⟨q, rfl⟩)
      rw [Json.at?_cons, Json.at?_cons, set, member?_setKey, if_neg hne]
  | cons step steps ih =>
    cases q with
    | nil => exact absurd (meets_nil _) h
    | cons name q =>
      by_cases hname : name = key
      · subst hname
        cases step with
        | item index => exact absurd (.inl ⟨q, rfl⟩) h
        | child next =>
          have hrest : ¬ Meets (reach ⟨next, steps⟩) q := fun hmeets => h (meets_cons.mpr hmeets)
          have hq : q ≠ [] := fun hnil => hrest (hnil ▸ meets_nil _)
          rw [Json.at?_cons, Json.at?_cons, set_child, member?_changeChild, if_pos rfl,
            Option.bind_some, ih _ _ hrest, Json.at?_getD_null hq]
      · cases step with
        | item index =>
          rw [Json.at?_cons, Json.at?_cons, set_item, member?_changeChild, if_neg hname]
        | child next =>
          rw [Json.at?_cons, Json.at?_cons, set_child, member?_changeChild, if_neg hname]

/-- A path without an index sets the place that it reaches to. -/
theorem at?_set_of_plain (p : Path) (s : String) (t : Json) (h : p.isPlain = true) :
    (p.set (.str s) t).at? p.reach = some (.str s) := by
  obtain ⟨key, steps⟩ := p
  induction steps generalizing key t with
  | nil =>
    rw [reach, reachFrom, Json.at?_singleton, set, member?_setKey, if_pos rfl]
  | cons step steps ih =>
    cases step with
    | item index => cases h
    | child next =>
      rw [set_child, reach, reachFrom, Json.at?_cons, member?_changeChild, if_pos rfl,
        Option.bind_some]
      exact ih _ next h

/-- A path with an index makes an array of what it reaches to. -/
theorem at?_set_of_index (p : Path) (s : String) (t : Json) (h : p.isPlain = false) :
    ∃ items, (p.set (.str s) t).at? p.reach = some (.arr items) := by
  obtain ⟨key, steps⟩ := p
  induction steps generalizing key t with
  | nil => cases h
  | cons step steps ih =>
    cases step with
    | item index =>
      rw [set_item, reach, reachFrom, Json.at?_singleton, member?_changeChild, if_pos rfl]
      exact ⟨_, rfl⟩
    | child next =>
      rw [set_child, reach, reachFrom, Json.at?_cons, member?_changeChild, if_pos rfl,
        Option.bind_some]
      exact ih _ next h

/-- Whatever is on the way to the place that is set is a table afterwards. -/
theorem at?_set_of_above (p : Path) (s : String) (t : Json) (h : q <+: p.reach)
    (hne : q ≠ p.reach) : ∃ members, (p.set (.str s) t).at? q = some (.obj members) := by
  obtain ⟨key, steps⟩ := p
  induction steps generalizing key t q with
  | nil =>
    cases q with
    | nil =>
      obtain ⟨members, hmembers⟩ := exists_obj_set ⟨key, []⟩ (.str s) t
      exact ⟨members, congrArg some hmembers⟩
    | cons name q =>
      obtain ⟨rfl, hq⟩ := List.cons_prefix_cons.mp h
      exact absurd (List.prefix_nil.mp hq ▸ rfl) hne
  | cons step steps ih =>
    cases q with
    | nil =>
      obtain ⟨members, hmembers⟩ := exists_obj_set ⟨key, step :: steps⟩ (.str s) t
      exact ⟨members, congrArg some hmembers⟩
    | cons name q =>
      cases step with
      | item index =>
        obtain ⟨rfl, hq⟩ := List.cons_prefix_cons.mp h
        exact absurd (List.prefix_nil.mp hq ▸ rfl) hne
      | child next =>
        obtain ⟨rfl, hq⟩ := List.cons_prefix_cons.mp h
        rw [set_child, Json.at?_cons, member?_changeChild, if_pos rfl, Option.bind_some]
        exact ih _ next hq fun heq => hne (heq ▸ rfl)

/-- Where a path reaches to, there is something afterwards, and it is no table. -/
theorem exists_at?_set_reach (p : Path) (s : String) (t : Json) :
    ∃ v, (p.set (.str s) t).at? p.reach = some v ∧ ∀ members, v ≠ .obj members := by
  cases hplain : p.isPlain with
  | true => exact ⟨_, at?_set_of_plain p s t hplain, fun _ h => by cases h⟩
  | false =>
    obtain ⟨items, hitems⟩ := at?_set_of_index p s t hplain
    exact ⟨_, hitems, fun _ h => by cases h⟩

/-- Nothing stands below the place that is set. -/
theorem at?_set_of_below (p : Path) (s : String) (t : Json) (h : p.reach <+: q)
    (hne : q ≠ p.reach) : (p.set (.str s) t).at? q = none := by
  obtain ⟨rest, rfl⟩ := h
  have hrest : rest ≠ [] := fun hnil => hne (hnil ▸ List.append_nil _)
  obtain ⟨v, hv, hobj⟩ := exists_at?_set_reach p s t
  rw [Json.at?_append, hv]
  exact Json.at?_of_not_obj hobj hrest

/-- Something stands wherever a path goes through afterwards. -/
theorem isSome_at?_set_of_passes (p : Path) (s : String) (t : Json) (h : q <+: p.reach) :
    ((p.set (.str s) t).at? q).isSome = true := by
  by_cases heq : q = p.reach
  · obtain ⟨v, hv, -⟩ := exists_at?_set_reach p s t
    rw [heq, hv, Option.isSome_some]
  · obtain ⟨members, hmembers⟩ := at?_set_of_above p s t h heq
    rw [hmembers, Option.isSome_some]

/-- Something stands at a place afterwards if something stood there or the path goes through it,
unless the path ends above the place. -/
theorem isSome_at?_set (p : Path) (s : String) (t : Json) (h : p.reach <+: q → q = p.reach) :
    ((p.set (.str s) t).at? q).isSome = true ↔ (t.at? q).isSome = true ∨ q <+: p.reach := by
  by_cases hmeets : Meets p.reach q
  · have hprefix : q <+: p.reach := by
      rcases hmeets with habove | hbelow
      · exact h habove ▸ List.prefix_rfl
      · exact hbelow
    exact iff_of_true (isSome_at?_set_of_passes p s t hprefix) (.inr hprefix)
  · rw [at?_set_of_not_meets p s t hmeets, or_iff_left fun hprefix => hmeets (.inr hprefix)]

/-! ### Setting a place keeps every table in order -/

theorem ordered_setKey (hv : v.Ordered) (key : String) (ht : t.Ordered) :
    (setKey key v t).Ordered := by
  induction hv generalizing key t with
  | @leaf v hleaf =>
    cases v with
    | arr items => cases hleaf
    | obj members => cases hleaf
    | _ => exact Json.ordered_insert ht.asObj? (.leaf rfl) _
  | arr hitems => exact Json.ordered_insert ht.asObj? (.arr hitems) _
  | @obj members hsorted _ ih =>
    -- A table is merged member by member, and each of them is a smaller value.
    have hmerge : ∀ {ms : List (String × Json)} {target : Json}, (∀ m ∈ ms, m ∈ members) →
        target.Ordered → (mergeKeys ms target).Ordered := by
      intro ms
      induction ms with
      | nil => exact fun _ htarget => htarget
      | cons m ms ihms =>
        intro target hms htarget
        obtain ⟨hm, hrest⟩ := List.forall_mem_cons.mp hms
        exact ihms hrest (ih m hm m.1 htarget)
    refine Json.ordered_insert ht.asObj? (hmerge (fun m hm => hm) ?_) _
    rw [Json.member?_asObj?]
    cases hmember : t.member? (Text.lower key) with
    | none => exact .obj List.Pairwise.nil fun _ hm => by cases hm
    | some w => exact ht.member? hmember

theorem ordered_changeChild {f : Json → Json} (hf : ∀ t, t.Ordered → (f t).Ordered)
    (name : String) (ht : t.Ordered) : (changeChild name f t).Ordered := by
  refine Json.ordered_insert ht.asObj? (hf _ ?_) _
  rw [Json.member?_asObj?]
  cases hmember : t.member? name with
  | none => exact .leaf rfl
  | some w => exact ht.member? hmember

theorem ordered_modify {f : Json → Json} (hf : ∀ t, t.Ordered → (f t).Ordered) {items : List Json}
    (hitems : ∀ v ∈ items, v.Ordered) (i : Nat) : ∀ v ∈ items.modify i f, v.Ordered := by
  intro v hv
  obtain ⟨j, hj⟩ := List.mem_iff_getElem?.mp hv
  rw [List.getElem?_modify] at hj
  obtain ⟨w, hw, rfl⟩ := Option.map_eq_some_iff.mp hj
  have hordered := hitems w (List.mem_of_getElem? hw)
  split
  · exact hf w hordered
  · exact hordered

theorem ordered_changeItem {f : Json → Json} (hf : ∀ t, t.Ordered → (f t).Ordered)
    (index : Int) (ht : t.Ordered) : (changeItem index f t).Ordered := by
  have hitems : ∀ v ∈ t.asArr?.getD [], v.Ordered := by
    cases t with
    | arr items => exact fun v hv => ht.item hv
    | _ => exact fun _ hv => by cases hv
  refine .arr (ordered_modify hf (List.forall_mem_append.mpr ⟨hitems, fun v hv => ?_⟩) _)
  exact List.eq_of_mem_replicate hv ▸ .leaf rfl

theorem ordered_setSteps (hv : v.Ordered) (steps : List PathStep) (ht : t.Ordered) :
    (setSteps v steps t).Ordered := by
  induction steps generalizing t with
  | nil => exact hv
  | cons step steps ih =>
    cases step with
    | item index => exact ordered_changeItem (fun _ => ih) index ht
    | child name =>
      cases steps with
      | nil => exact ordered_setKey hv name ht
      | cons next steps => exact ordered_changeChild (fun _ => ih) name ht

theorem ordered_set (hv : v.Ordered) (p : Path) (ht : t.Ordered) : (p.set v t).Ordered := by
  obtain ⟨key, steps⟩ := p
  cases steps with
  | nil => exact ordered_setKey hv key ht
  | cons step steps => exact ordered_changeChild (fun _ => ordered_setSteps hv _) key ht

/-- A path makes an array only where it has its first index. -/
theorem not_hasArray_set_of_meets (p : Path) (s : String) (t : Json) (hmeets : Meets p.reach q)
    (hplain : p.reach = q → p.isPlain = true) : ¬ (p.set (.str s) t).HasArray q := by
  rintro ⟨items, hitems⟩
  by_cases heq : q = p.reach
  · rw [heq, at?_set_of_plain p s t (hplain heq.symm)] at hitems
    cases hitems
  · rcases hmeets with habove | hbelow
    · rw [at?_set_of_below p s t habove heq] at hitems
      cases hitems
    · obtain ⟨members, hmembers⟩ := at?_set_of_above p s t hbelow heq
      rw [hmembers] at hitems
      cases hitems

theorem not_hasArray_set (p : Path) (s : String) (h : ¬ t.HasArray q)
    (hplain : p.reach = q → p.isPlain = true) : ¬ (p.set (.str s) t).HasArray q := by
  by_cases hmeets : Meets p.reach q
  · exact not_hasArray_set_of_meets p s t hmeets hplain
  · rw [Json.HasArray, at?_set_of_not_meets p s t hmeets]
    exact h

end Path

namespace HostConfig

variable {vs before after : List (Path × String)} {e : Path × String} {t u : Json} {q : List String}

/-! ### Variables, one after the other -/

/-- What the variables of the environment set, in their order. -/
def assignments (environment : List (String × String)) : List (Path × String) :=
  environment.filterMap fun e => (variablePath? e.1).map fun path => (Path.ofString path, e.2)

/-- A tree on which variables have been put one after the other. -/
def put (t : Json) (vs : List (Path × String)) : Json :=
  vs.foldl (fun t e => e.1.set (.str e.2) t) t

/-- Whether no variable meets a place. -/
def Untouched (vs : List (Path × String)) (q : List String) : Prop :=
  ∀ e ∈ vs, ¬ Meets e.1.reach q

instance (vs : List (Path × String)) (q : List String) : Decidable (Untouched vs q) :=
  inferInstanceAs (Decidable (∀ e ∈ vs, ¬ Meets e.1.reach q))

theorem layer_variableEntries (t : Json) (environment : List (String × String)) :
    layer t (variableEntries environment) = put t (assignments environment) := by
  induction environment generalizing t with
  | nil => rfl
  | cons e environment ih =>
    obtain ⟨name, value⟩ := e
    rw [variableEntries, assignments, List.filterMap_cons, List.filterMap_cons]
    dsimp only
    cases variablePath? name with
    | none => exact ih t
    | some path => exact ih _

theorem put_append (t : Json) (before after : List (Path × String)) :
    put t (before ++ after) = put (put t before) after := List.foldl_append

theorem put_cons (t : Json) (e : Path × String) (vs : List (Path × String)) :
    put t (e :: vs) = put (e.1.set (.str e.2) t) vs := rfl

theorem exists_obj_put {members : List (String × Json)} (vs : List (Path × String)) :
    ∃ members', put (.obj members) vs = .obj members' := by
  induction vs generalizing members with
  | nil => exact ⟨members, rfl⟩
  | cons e vs ih =>
    obtain ⟨next, hnext⟩ := Path.exists_obj_set e.1 (.str e.2) (.obj members)
    rw [put_cons, hnext]
    exact ih

theorem ordered_put (ht : t.Ordered) (vs : List (Path × String)) : (put t vs).Ordered := by
  induction vs generalizing t with
  | nil => exact ht
  | cons e vs ih => exact ih (Path.ordered_set (.leaf rfl) e.1 ht)

/-- Below a place that no variable meets, none meets a place. -/
theorem Untouched.below {r : List String} (h : Untouched vs q) (hqr : q <+: r) : Untouched vs r :=
  fun e he hmeets => h e he (hmeets.of_prefix hqr)

/-- What no variable meets is kept. -/
theorem at?_put_of_untouched (h : Untouched vs q) : (put t vs).at? q = t.at? q := by
  induction vs generalizing t with
  | nil => rfl
  | cons e vs ih =>
    obtain ⟨he, hvs⟩ := List.forall_mem_cons.mp h
    rw [put_cons, ih hvs, Path.at?_set_of_not_meets e.1 e.2 t he]

/-- Unless a variable ends above a place, something stands there if something stood there before or
a variable goes through it. -/
theorem isSome_at?_put (h : ∀ e ∈ vs, e.1.reach <+: q → q = e.1.reach) (t : Json) :
    ((put t vs).at? q).isSome = true ↔
      (t.at? q).isSome = true ∨ ∃ e ∈ vs, q <+: e.1.reach := by
  induction vs generalizing t with
  | nil => simp [put]
  | cons e vs ih =>
    obtain ⟨he, hvs⟩ := List.forall_mem_cons.mp h
    rw [put_cons, ih hvs, Path.isSome_at?_set e.1 e.2 t he, List.exists_mem_cons_iff, or_assoc]

/-- A place at which there is no array, neither in a tree nor in what variables make of it. -/
structure Tabular (t : Json) (vs : List (Path × String)) (q : List String) : Prop where
  tree : ¬ t.HasArray q
  plain : ∀ e ∈ vs, e.1.reach = q → e.1.isPlain = true

theorem Tabular.not_hasArray_put (h : Tabular t vs q) : ¬ (put t vs).HasArray q := by
  induction vs generalizing t with
  | nil => exact h.tree
  | cons e vs ih =>
    obtain ⟨he, hvs⟩ := List.forall_mem_cons.mp h.plain
    exact ih ⟨Path.not_hasArray_set e.1 e.2 h.tree he, hvs⟩

/-- Variables that do not meet a place make no array above it. -/
theorem Untouched.tabular {r : List String} (h : Untouched vs r) (hqr : q <+: r)
    (ht : ¬ t.HasArray q) : Tabular t vs q :=
  ⟨ht, fun e he heq => absurd (.inl (heq ▸ hqr)) (h e he)⟩

end HostConfig

end LanguageHost
