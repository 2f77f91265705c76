import Mathlib.Data.List.Pairwise
import LanguageHost.Proofs.Config.Places
import LanguageHost.Proofs.Keyed

/-!
# Entries that do not overlap

The entries of a file and the variables of the environment have no order of their own.  They may
be put on a tree in any order as long as none of their paths reaches to a place of another one, nor
above or below it (`Separate`).  Two such paths part at some key: up to it both change the same
child, and there they insert different members (`Path.set_comm`).  So each entry may be taken for
the last one (`HostConfig.exists_put_eq_set`).
-/

namespace LanguageHost

namespace SortedByName

variable {α : Type} {name k : String}

theorem insert_comm_of_lt (h : name < k) (a b : α) (entries : List (String × α)) :
    insert name a (insert k b entries) = insert k b (insert name a entries) := by
  have hnot : ¬ k < name := String.lt_asymm h
  have hne : k ≠ name := (String.ne_of_lt h).symm
  induction entries with
  | nil => simp [insert, h, hnot, hne]
  | cons e rest ih =>
    obtain ⟨j, c⟩ := e
    by_cases hlt : name < j
    · -- The smaller name comes first, wherever the larger one goes.
      by_cases hk : k < j
      · simp [insert, h, hlt, hk, hnot, hne]
      · by_cases hkj : k = j
        · subst hkj
          simp [insert, h, hnot, hne]
        · simp [insert, hlt, hk, hkj, hnot, hne]
    · by_cases heq : name = j
      · subst heq
        simp [insert, hnot, hne]
      · have hgt : j < name := lt_of_not_lt_of_ne hlt heq
        have hkj : j < k := String.lt_trans hgt h
        simp [insert, hlt, heq, String.lt_asymm hkj, (String.ne_of_lt hkj).symm, ih]

/-- Entries of different names may be put in their places in any order. -/
theorem insert_comm (h : name ≠ k) (a b : α) (entries : List (String × α)) :
    insert name a (insert k b entries) = insert k b (insert name a entries) := by
  by_cases hlt : name < k
  · exact insert_comm_of_lt hlt a b entries
  · exact (insert_comm_of_lt (lt_of_not_lt_of_ne hlt h) b a entries).symm

end SortedByName

namespace Path

variable {p q : Path} {v w : Json}

/-! ### Two paths that part -/

/-- The first key on the way of a path. -/
def front (p : Path) : String :=
  match p.steps with
  | [] => Text.lower p.head
  | _ :: _ => p.head

theorem front_child (key name : String) (steps : List PathStep) :
    front ⟨key, .child name :: steps⟩ = key := rfl

/-- A path reaches to its first key, or goes on from there. -/
theorem reach_cases (p : Path) : p.reach = [p.front] ∨
    ∃ name steps, p = ⟨p.front, .child name :: steps⟩ := by
  obtain ⟨key, steps⟩ := p
  cases steps with
  | nil => exact .inl rfl
  | cons step steps =>
    cases step with
    | item index => exact .inl rfl
    | child name => exact .inr ⟨name, steps, rfl⟩

theorem front_prefix_reach (p : Path) : [p.front] <+: p.reach := by
  obtain ⟨key, steps⟩ := p
  cases steps with
  | nil => exact List.prefix_rfl
  | cons step steps =>
    cases step with
    | item index => exact List.prefix_rfl
    | child name => exact ⟨reachFrom name steps, rfl⟩

/-- Setting a place changes one member of a table, by what it was. -/
theorem exists_set_eq_insert (p : Path) (v : Json) : ∃ act : Option Json → Json, ∀ t,
    p.set v t = .obj (SortedByName.insert p.front (act (t.member? p.front))
      (t.asObj?.getD [])) := by
  obtain ⟨key, steps⟩ := p
  cases steps with
  | nil =>
    cases v with
    | obj incoming =>
      refine ⟨fun target => mergeKeys incoming (target.getD (.obj [])), fun t => ?_⟩
      rw [← Json.member?_asObj?]
      rfl
    | _ => exact ⟨fun _ => _, fun t => rfl⟩
  | cons step steps =>
    refine ⟨fun target => setSteps v (step :: steps) (target.getD .null), fun t => ?_⟩
    rw [← Json.member?_asObj?]
    rfl

theorem changeChild_changeChild (name : String) (f g : Json → Json) (t : Json) :
    changeChild name f (changeChild name g t) = changeChild name (fun u => f (g u)) t := by
  simp only [changeChild, Json.asObj?, Option.getD_some, SortedByName.get?_insert, if_true,
    SortedByName.insert_insert]

/-- Members under different keys are changed in any order. -/
theorem set_comm_of_front_ne (h : p.front ≠ q.front) (v w t : Json) :
    p.set v (q.set w t) = q.set w (p.set v t) := by
  obtain ⟨act, hact⟩ := exists_set_eq_insert p v
  obtain ⟨act', hact'⟩ := exists_set_eq_insert q w
  have hp : (q.set w t).member? p.front = t.member? p.front := by
    rw [hact', Json.member?, SortedByName.get?_insert, if_neg h, Json.member?_asObj?]
  have hq : (p.set v t).member? q.front = t.member? q.front := by
    rw [hact, Json.member?, SortedByName.get?_insert, if_neg h.symm, Json.member?_asObj?]
  rw [hact (q.set w t), hact' (p.set v t), hp, hq, hact t, hact' t]
  exact congrArg Json.obj (SortedByName.insert_comm h _ _ _)

/-- A path that reaches to its first key only has another first key than any path that does not
meet it. -/
theorem front_ne_of_reach_eq (hp : p.reach = [p.front]) (h : ¬ Meets p.reach q.reach) :
    p.front ≠ q.front := by
  intro heq
  rw [hp, heq] at h
  exact h (.inl (front_prefix_reach q))

/-- Two places of which none is the other one, above it or below it may be set in any order. -/
theorem set_comm (h : ¬ Meets p.reach q.reach) (v w t : Json) :
    p.set v (q.set w t) = q.set w (p.set v t) := by
  obtain ⟨key, steps⟩ := p
  induction steps generalizing key q t with
  | nil => exact set_comm_of_front_ne (front_ne_of_reach_eq rfl h) v w t
  | cons step steps ih =>
    by_cases hfront : front ⟨key, step :: steps⟩ = q.front
    · -- Neither path reaches to its first key only, or it would end above the other one.
      rcases reach_cases ⟨key, step :: steps⟩ with hreach | ⟨name, rest, hp⟩
      · exact absurd hfront (front_ne_of_reach_eq hreach h)
      · obtain ⟨-, rfl, rfl⟩ : key = _ ∧ step = .child name ∧ steps = rest := by
          simpa using hp
        rcases reach_cases q with hreach | ⟨name', rest', hq⟩
        · exact absurd hfront.symm (front_ne_of_reach_eq hreach fun hmeets => h hmeets.symm)
        · rw [← hfront, front_child] at hq
          subst hq
          have hrest : ¬ Meets (reach ⟨name, steps⟩) (reach ⟨name', rest'⟩) :=
            fun hmeets => h (meets_cons.mpr hmeets)
          simp only [set_child, changeChild_changeChild, ih _ _ hrest]
    · exact set_comm_of_front_ne hfront v w t

/-! ### Many paths -/

/-- No path reaches to a place of another one, nor above or below it. -/
def Separate (paths : List Path) : Prop := paths.Pairwise fun p q => ¬ Meets p.reach q.reach

instance (paths : List Path) : Decidable (Separate paths) :=
  inferInstanceAs (Decidable (paths.Pairwise fun p q => ¬ Meets p.reach q.reach))

theorem Separate.perm {paths paths' : List Path} (h : Separate paths) (hperm : paths.Perm paths') :
    Separate paths' :=
  hperm.pairwise h fun hpq hqp => hpq hqp.symm

/-- Values under paths that are separate may be put on a tree in any order. -/
theorem foldl_set_perm {α : Type} {path : α → Path} {value : α → Json} {xs ys : List α}
    (hxs : Separate (xs.map path)) (hperm : xs.Perm ys) (t : Json) :
    xs.foldl (fun t x => (path x).set (value x) t) t =
      ys.foldl (fun t x => (path x).set (value x) t) t := by
  have hapart : xs.Pairwise fun x y => ¬ Meets (path x).reach (path y).reach :=
    List.pairwise_map.mp hxs
  have : Std.Symm fun x y => ¬ Meets (path x).reach (path y).reach :=
    ⟨fun _ _ hxy hyx => hxy hyx.symm⟩
  refine hperm.foldl_eq' (fun x hx y hy t => ?_) t
  by_cases heq : x = y
  · rw [heq]
  · exact set_comm (hapart.forall hy hx (Ne.symm heq)) _ _ _

end Path

namespace HostConfig

variable {vs : List (Path × String)} {e : Path × String} {t : Json} {q r : List String}
variable {entries entries' : List (String × Json)} {environment environment' : List (String × String)}

/-- The order of entries that do not overlap does not matter. -/
theorem layer_perm (h : Path.Separate (entries.map fun e => Path.ofString e.1))
    (hperm : entries.Perm entries') (t : Json) : layer t entries = layer t entries' :=
  Path.foldl_set_perm h hperm t

/-- The order of variables that do not overlap does not matter. -/
theorem put_perm {vs' : List (Path × String)} (h : Path.Separate (vs.map Prod.fst))
    (hperm : vs.Perm vs') (t : Json) : put t vs = put t vs' :=
  Path.foldl_set_perm h hperm t

/-- Each of some variables that do not overlap may be taken for the one that is put on last. -/
theorem exists_put_eq_set (h : Path.Separate (vs.map Prod.fst)) (he : e ∈ vs) (t : Json) :
    ∃ u, put t vs = e.1.set (.str e.2) u := by
  obtain ⟨before, after, rfl⟩ := List.append_of_mem he
  have hperm : (before ++ e :: after).Perm (before ++ after ++ [e]) := by
    refine List.perm_middle.trans ?_
    exact (List.perm_append_singleton e (before ++ after)).symm
  exact ⟨put t (before ++ after), by rw [put_perm h hperm, put_append]; rfl⟩

/-- If a variable meets a place, but none meets a certain place below, there is no array. -/
theorem not_hasArray_put_of_met (h : Path.Separate (vs.map Prod.fst)) (hqr : q <+: r)
    (huntouched : Untouched vs r) (hmet : ¬ Untouched vs q) : ¬ (put t vs).HasArray q := by
  simp only [Untouched, not_forall, Classical.not_not] at hmet
  obtain ⟨e, he, hmeets⟩ := hmet
  obtain ⟨u, hu⟩ := exists_put_eq_set h he t
  rw [hu]
  exact Path.not_hasArray_set_of_meets e.1 e.2 u hmeets fun heq =>
    absurd (.inl (heq ▸ hqr)) (huntouched e he)

end HostConfig

end LanguageHost
