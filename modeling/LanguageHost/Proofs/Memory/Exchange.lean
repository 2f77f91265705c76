import LanguageHost.Proofs.Memory.Deeds
import Mathlib.Logic.Equiv.Basic

/-!
# Deeds in either order

Two deeds that concern different names, different regions and different guards lead to the same in
either order, up to the identity of what is new (`renamed_of_deeds`).

Where both make a region, the two new regions have each other's identity in the other order, and so
have two new guards: `exchange` says which is which.  What was there before keeps its identity, and
nothing that was there mentions what is new (`Grounded`).
-/

open scoped List

namespace LanguageHost

/-! ### New things -/

section New

variable {α : Type} {x y : Option α} {k s : Nat}

/-- Of two things that may be new, each where the other would be if it came first. -/
def exchange (x y : Option α) (k : Nat) : Equiv.Perm Nat :=
  if x.isSome ∧ y.isSome then Equiv.swap k (k + 1) else .refl Nat

theorem exchange_of_lt (hs : s < k) : exchange x y k s = s := by
  unfold exchange
  split
  · exact Equiv.swap_apply_of_ne_of_ne (Nat.ne_of_lt hs) (Nat.ne_of_lt (Nat.lt_succ_of_lt hs))
  · rfl

theorem le_exchange (hs : k ≤ s) : k ≤ exchange x y k s := by
  refine Nat.le_of_not_lt fun hlt => ?_
  have hsame := (exchange x y k).injective (exchange_of_lt (x := x) (y := y) hlt)
  exact Nat.not_lt_of_le hs (hsame ▸ hlt)

/-- What comes first has the second place in the other order, if there is a second one. -/
theorem exchange_first (hx : x.isSome) : exchange x y k k = k + y.toList.length := by
  cases y with
  | none => simp [exchange]
  | some b => simp [exchange, hx]

/-- What comes second has the first place in the other order. -/
theorem exchange_second (hy : y.isSome) : exchange x y k (k + x.toList.length) = k := by
  cases x with
  | none => simp [exchange]
  | some a => simp [exchange, hy]

/-- In both orders the same new things are found, each in its place. -/
theorem exchange_new (x y : Option α) (k s : Nat) :
    (if exchange x y k s = k + y.toList.length ∧ x.isSome then x
      else if exchange x y k s = k ∧ y.isSome then y else none) =
      if s = k + x.toList.length ∧ y.isSome then y else if s = k ∧ x.isSome then x else none := by
  cases x with
  | none => simp [exchange]
  | some a =>
    cases y with
    | none => simp [exchange]
    | some b =>
      have hfirst : exchange (some a) (some b) k s = k + 1 ↔ s = k := by
        rw [exchange, if_pos ⟨rfl, rfl⟩, Equiv.swap_apply_eq_iff, Equiv.swap_apply_right]
      have hsecond : exchange (some a) (some b) k s = k ↔ s = k + 1 := by
        rw [exchange, if_pos ⟨rfl, rfl⟩, Equiv.swap_apply_eq_iff, Equiv.swap_apply_left]
      simp only [Option.isSome_some, Option.toList_some, List.length_singleton, and_true, hfirst,
        hsecond]
      by_cases hs : s = k
      · simp [hs]
      · simp [hs]

end New

/-- The guard for a region that has another identity. -/
def Guard.renamed (π : Equiv.Perm RegionRef) (g : Guard) : Guard := { g with region := π g.region }

namespace MemoryUsers

variable {u : MemoryUsers} {n : Nat}

/-- The same users up to the identity of the regions and the numbers of the guards. -/
structure Renamed (π : Equiv.Perm RegionRef) (σ : Equiv.Perm Nat) (v w : MemoryUsers) : Prop where
  settings : w.coordinator.settings = v.coordinator.settings
  space : w.coordinator.space = v.coordinator.space
  usage : w.coordinator.usage = v.coordinator.usage
  size : w.coordinator.made.size = v.coordinator.made.size
  regions : ∀ s, w.coordinator.region? (π s) = v.coordinator.region? s
  table : ∀ id, w.coordinator.table.get? id = (v.coordinator.table.get? id).map π
  opened : w.opened = v.opened
  guards : ∀ n, w.guard? (σ n) = (v.guard? n).map (Guard.renamed π)
  declarations : w.declarations ~ v.declarations.map (Prod.map π id)
  withdrawals : w.withdrawals ~ v.withdrawals.map (Prod.map π id)

namespace Grounded

theorem guard?_of_le (hu : u.Grounded) (hn : u.opened ≤ n) : u.guard? n = none := by
  refine Option.map_eq_none_iff.mpr (List.find?_eq_none.mpr fun g hg => ?_)
  simpa using Nat.ne_of_lt (Nat.lt_of_lt_of_le (hu.numbers g hg) hn)

theorem lt_of_guard? {g : Guard} (hu : u.Grounded) (hg : u.guard? n = some g) :
    g.region < u.coordinator.made.size := hu.guards _ (mem_of_guard? hg)

end Grounded

end MemoryUsers

namespace Deed

/-- A deed is about what is there. -/
structure Old (u : MemoryUsers) (d : Deed) : Prop where
  touched : ∀ ref, d.change.touched? = some ref → ref < u.coordinator.made.size
  opens : ∀ g, d.opens = some g → g.region < u.coordinator.made.size
  drops : ∀ n, d.drops = some n → n < u.opened
  declares : ∀ x, d.declares = some x → x.1 < u.coordinator.made.size
  withdraws : ∀ x, d.withdraws = some x → x.1 < u.coordinator.made.size

/-- Two deeds are about different names, different regions and different guards. -/
structure Apart (d e : Deed) : Prop where
  names : ∀ id, d.change.name? = some id → e.change.name? ≠ some id
  regions : ∀ ref, d.change.touched? = some ref → e.change.touched? ≠ some ref
  guards : ∀ n, d.drops = some n → e.drops ≠ some n

end Deed

namespace MemoryUsers

variable {u : MemoryUsers} {d e : Deed}

/-- What is there is found as it is after both deeds, what is new in its place. -/
theorem region?_of_deeds (hd : d.Old u) (he : e.Old u) (h : d.Apart e) (s : RegionRef) :
    (d.apply (e.apply u)).coordinator.region?
        (exchange d.change.new? e.change.new? u.coordinator.made.size s) =
      (e.apply (d.apply u)).coordinator.region? s := by
  simp only [Deed.apply, Change.region?_apply, Change.size_apply]
  by_cases hs : s < u.coordinator.made.size
  · have hne : ∀ n, s ≠ u.coordinator.made.size + n := fun n =>
      Nat.ne_of_lt (Nat.lt_add_right n hs)
    have hne' : s ≠ u.coordinator.made.size := Nat.ne_of_lt hs
    simp only [exchange_of_lt hs, hne, hne', false_and, if_false, Option.map_map]
    by_cases htouched : d.change.touched? = some s
    · rw [Change.on_of_not_touched (h.regions s htouched), Function.id_comp, Function.comp_id]
    · rw [Change.on_of_not_touched htouched, Function.id_comp, Function.comp_id]
  · -- What is not there yet is neither found nor touched.
    have hle := le_exchange (x := d.change.new?) (y := e.change.new?) (Nat.le_of_not_lt hs)
    have hnone : ∀ t, u.coordinator.made.size ≤ t → u.coordinator.region? t = none := by
      intro t ht
      exact Array.getElem?_eq_none ht
    have hon : ∀ f : Deed, f.Old u → ∀ t, u.coordinator.made.size ≤ t → f.change.on t = id := by
      intro f hf t ht
      refine Change.on_of_not_touched fun htouched => ?_
      exact Nat.not_lt_of_le ht (hf.touched t htouched)
    rw [hon d hd _ hle, hon e he s (Nat.le_of_not_lt hs), hnone _ hle,
      hnone s (Nat.le_of_not_lt hs), Option.map_none, Option.map_none, Option.map_id]
    exact exchange_new _ _ _ _

/-- A name stands for what it stood for, or for what is new. -/
theorem table_of_deeds (hu : u.Grounded) (h : d.Apart e) (id : String) :
    (d.apply (e.apply u)).coordinator.table.get? id =
      ((e.apply (d.apply u)).coordinator.table.get? id).map
        (exchange d.change.new? e.change.new? u.coordinator.made.size) := by
  simp only [Deed.apply, Change.table_apply, Change.size_apply]
  have hfirst : ∀ c : Change, c.entry? (u.coordinator.made.size + e.change.new?.toList.length) =
      (c.entry? u.coordinator.made.size).map
        (exchange c.new? e.change.new? u.coordinator.made.size) := by
    intro c
    cases c with
    | make id size element => exact congrArg some (exchange_first rfl).symm
    | _ => rfl
  have hsecond : ∀ c : Change, c.entry? u.coordinator.made.size =
      (c.entry? (u.coordinator.made.size + d.change.new?.toList.length)).map
        (exchange d.change.new? c.new? u.coordinator.made.size) := by
    intro c
    cases c with
    | make id size element => exact congrArg some (exchange_second rfl).symm
    | _ => rfl
  by_cases hd : d.change.name? = some id
  · simp only [hd, if_true, if_neg (h.names id hd), hfirst]
  · by_cases he : e.change.name? = some id
    · simp only [hd, he, if_true, if_false]
      exact hsecond e.change
    · simp only [hd, he, if_false]
      cases hget : u.coordinator.table.get? id with
      | none => rfl
      | some ref => exact congrArg some (exchange_of_lt (hu.table id ref hget)).symm

/-- The guards are those that were not dropped, and those that were given. -/
theorem guard?_of_deeds (hu : u.Grounded) (hd : d.Old u) (he : e.Old u) (n : Nat) :
    (d.apply (e.apply u)).guard? (exchange d.opens e.opens u.opened n) =
      (e.apply (d.apply u)).guard? n := by
  have hopened : ∀ f : Deed, (f.apply u).opened = u.opened + f.opens.toList.length := fun _ => rfl
  simp only [Deed.guard?_apply, hopened]
  by_cases hn : n < u.opened
  · have hne : ∀ m, n ≠ u.opened + m := fun m => Nat.ne_of_lt (Nat.lt_add_right m hn)
    have hne' : n ≠ u.opened := Nat.ne_of_lt hn
    simp only [exchange_of_lt hn, hne, hne', false_and, if_false]
    by_cases hdrops : d.drops = some n
    · simp only [hdrops, if_true, ite_self]
    · simp only [hdrops, if_false]
  · -- What is not there yet is neither found nor dropped.
    have hle := le_exchange (x := d.opens) (y := e.opens) (Nat.le_of_not_lt hn)
    have hdrops : ∀ f : Deed, f.Old u → ∀ m, u.opened ≤ m → f.drops ≠ some m := by
      intro f hf m hm hdrop
      exact Nat.not_lt_of_le hm (hf.drops m hdrop)
    rw [if_neg (hdrops d hd _ hle), if_neg (hdrops e he _ hle), hu.guard?_of_le hle,
      if_neg (hdrops e he n (Nat.le_of_not_lt hn)), if_neg (hdrops d hd n (Nat.le_of_not_lt hn)),
      hu.guard?_of_le (Nat.le_of_not_lt hn)]
    exact exchange_new _ _ _ _

/-- A guard is one that there was, or the one that is given. -/
theorem forall_guard?_apply {p : Guard → Prop} (hu : ∀ n g, u.guard? n = some g → p g)
    (hd : ∀ g, d.opens = some g → p g) (n : Nat) (g : Guard) (hg : (d.apply u).guard? n = some g) :
    p g := by
  rw [Deed.guard?_apply] at hg
  split at hg
  · exact hd g hg
  · split at hg
    · cases hg
    · exact hu n g hg

/-- The order in which two uses of what is there were noted makes no difference. -/
theorem perm_uses {π : Equiv.Perm RegionRef} {m : Nat} (hπ : ∀ ref, ref < m → π ref = ref)
    {uses : List (RegionRef × Access)} {x y : Option (RegionRef × Access)}
    (huses : ∀ z ∈ uses, z.1 < m) (hx : ∀ z, x = some z → z.1 < m)
    (hy : ∀ z, y = some z → z.1 < m) :
    x.toList ++ (y.toList ++ uses) ~
      (y.toList ++ (x.toList ++ uses)).map (Prod.map π id) := by
  have hsame : (y.toList ++ (x.toList ++ uses)).map (Prod.map π id) =
      y.toList ++ (x.toList ++ uses) := by
    refine (List.map_congr_left fun z hz => ?_).trans (List.map_id _)
    refine Prod.ext (hπ z.1 ?_) rfl
    simp only [List.mem_append, Option.mem_toList] at hz
    rcases hz with hz | hz | hz
    · exact hy z hz
    · exact hx z hz
    · exact huses z hz
  rw [hsame]
  exact List.perm_append_comm_assoc _ _ _

/-- Deeds that are about different things can be done in either order. -/
theorem renamed_of_deeds (hu : u.Grounded) (hd : d.Old u) (he : e.Old u) (h : d.Apart e) :
    Renamed (exchange d.change.new? e.change.new? u.coordinator.made.size)
      (exchange d.opens e.opens u.opened) (e.apply (d.apply u)) (d.apply (e.apply u)) := by
  have hkept : ∀ ref, ref < u.coordinator.made.size →
      exchange d.change.new? e.change.new? u.coordinator.made.size ref = ref := fun ref =>
    exchange_of_lt
  refine ⟨?_, ?_, ?_, ?_, region?_of_deeds hd he h, table_of_deeds hu h, ?_, fun n => ?_,
    perm_uses hkept hu.declarations hd.declares he.declares,
    perm_uses hkept hu.withdrawals hd.withdraws he.withdraws⟩
  · simp only [Deed.apply, Change.settings_apply]
  · simp only [Deed.apply, Change.space_apply]
  · simp only [Deed.apply, Change.usage_apply, UInt64.add_assoc]
    rw [UInt64.add_comm e.change.delta]
  · simp only [Deed.apply, Change.size_apply]
    exact Nat.add_right_comm _ _ _
  · exact Nat.add_right_comm _ _ _
  · rw [guard?_of_deeds hu hd he]
    cases hg : (e.apply (d.apply u)).guard? n with
    | none => rfl
    | some g =>
      have hlt := forall_guard?_apply (forall_guard?_apply (fun _ _ => hu.lt_of_guard?) hd.opens)
        he.opens n g hg
      exact congrArg some (by rw [Guard.renamed, hkept _ hlt])

end MemoryUsers

end LanguageHost
