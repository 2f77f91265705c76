import LanguageHost.Proofs.Keyed
import LanguageHost.Proofs.Memory.Operations

/-!
# The ledger of the shared memory

Whatever happens, a region that is used is in the table, has one writer at most, and under the
exclusive rule no reader beside a writer: `Coordinator.Sound`.

The declared uses of a region are those of the guards for it that are alive and those that were
declared by name and not withdrawn yet.  `Ledger` says so for every region that was ever made, not
only for those in the table: a guard keeps to its region, while a name may pass to another one.
This is kept as long as nobody withdraws by name what was not declared by name (`Honest`), and as
long as fewer things have happened than a counter can count: a step raises a counter by one at most
(`counts_step`).
-/

open scoped List

namespace LanguageHost

namespace Coordinator

variable {c : Coordinator} {access way : Access} {id : String} {ref s : RegionRef} {r r' : Region}

/-- What holds of the regions of a coordinator, whatever happens. -/
structure Sound (c : Coordinator) : Prop where
  tabled : ∀ id ref, c.table.get? id = some ref → ∃ r, c.region? ref = some r ∧ r.id = id
  used : ∀ ref r way, c.region? ref = some r → 0 < r.uses way → c.table.get? r.id = some ref
  writers_le : ∀ ref, c.uses ref .write ≤ 1
  exclusive : c.settings.rule = .exclusive → ∀ ref, 0 < c.uses ref .write → c.uses ref .read = 0

theorem sound_new (settings : MemorySettings) (space : AddressSpace) :
    (new settings space).Sound where
  tabled := nofun
  used := nofun
  writers_le := fun _ => (by decide : (0 : UInt64) ≤ 1)
  exclusive := fun _ _ _ => rfl

namespace Sound

theorem withRegion (h : c.Sound) (hid : c.table.get? id = none) (size : UInt64)
    (element : ElementType) : (c.withRegion id size element).Sound where
  tabled := fun k ref hk => by
    simp only [Coordinator.withRegion, Dict.get?_insert] at hk
    rw [region?_withRegion]
    split at hk
    · next hkid =>
      cases hk
      rw [if_pos rfl]
      exact ⟨_, rfl, hkid.symm⟩
    · obtain ⟨r, hr, hrid⟩ := h.tabled k ref hk
      have hne : ref ≠ c.made.size := by
        rintro rfl
        cases hr.symm.trans c.region?_size
      rw [if_neg hne]
      exact ⟨r, hr, hrid⟩
  used := fun ref r way hr hpos => by
    rw [region?_withRegion] at hr
    split at hr
    · cases hr
      cases way <;> cases hpos
    · have htable := h.used ref r way hr hpos
      have hne : r.id ≠ id := fun heq => by cases (heq ▸ htable).symm.trans hid
      simp only [Coordinator.withRegion, Dict.get?_insert, if_neg hne]
      exact htable
  writers_le := fun ref => by
    rw [uses_withRegion]
    exact h.writers_le ref
  exclusive := fun hrule ref hw => by
    rw [uses_withRegion] at hw ⊢
    exact h.exclusive hrule ref hw

theorem withoutName (h : c.Sound) (hid : c.table.get? id = some ref) (hr : c.region? ref = some r)
    (hunused : ∀ way, r.uses way = 0) : (c.withoutName id r).Sound where
  tabled := fun k s hk => by
    simp only [Coordinator.withoutName, Dict.get?_erase] at hk
    split at hk
    · cases hk
    · exact h.tabled k s hk
  used := fun s q way hs hpos => by
    have htable := h.used s q way hs hpos
    -- The region that loses its name is not used.
    have hne : q.id ≠ id := fun heq => by
      have hsame : s = ref := Option.some.inj ((heq ▸ htable).symm.trans hid)
      cases hr.symm.trans (hsame ▸ hs)
      rw [hunused way] at hpos
      cases hpos
    simp only [Coordinator.withoutName, Dict.get?_erase, if_neg hne]
    exact htable
  writers_le := h.writers_le
  exclusive := h.exclusive

/-- A change of a region that keeps its name keeps the table right. -/
theorem tabled_changeRegion (h : c.Sound) {f : Region → Region}
    (hf : ∀ r, c.region? ref = some r → (f r).id = r.id) (hid : c.table.get? id = some s) :
    ∃ q, (c.changeRegion ref f).region? s = some q ∧ q.id = id := by
  obtain ⟨q, hq, hqid⟩ := h.tabled id s hid
  rw [region?_changeRegion]
  split
  · next hs =>
    subst hs
    exact ⟨f q, by rw [hq]; rfl, (hf q hq).trans hqid⟩
  · exact ⟨q, hq, hqid⟩

/-- A change of a region that keeps its name and adds no uses leaves what is used in the table. -/
theorem used_changeRegion (h : c.Sound) {f : Region → Region}
    (hf : ∀ r, c.region? ref = some r → (f r).id = r.id ∧ ∀ way, (f r).uses way ≤ r.uses way)
    (hr : (c.changeRegion ref f).region? s = some r) (hpos : 0 < r.uses way) :
    c.table.get? r.id = some s := by
  rw [region?_changeRegion] at hr
  split at hr
  · next hs =>
    subst hs
    obtain ⟨q, hq, rfl⟩ := Option.map_eq_some_iff.mp hr
    obtain ⟨hname, hless⟩ := hf q hq
    rw [hname]
    exact h.used s q way hq (Nat.lt_of_lt_of_le hpos (hless way))
  · exact h.used s r way hr hpos

theorem declare (h : c.Sound) (hid : c.table.get? id = some ref) (hr : c.region? ref = some r)
    (hok : refusal? c.settings.rule access id r = none) :
    (c.changeRegion ref (declared access)).Sound where
  tabled := fun k s hk => h.tabled_changeRegion (fun r _ => id_declared access r) hk
  used := fun s q way hq hpos => by
    rw [region?_changeRegion] at hq
    split at hq
    · next hs =>
      subst hs
      rw [hr] at hq
      cases hq
      obtain ⟨r', hr', hrid⟩ := h.tabled id s hid
      cases hr.symm.trans hr'
      rw [id_declared, hrid]
      exact hid
    · exact h.used s q way hq hpos
  writers_le := fun s => by
    rw [uses_changeRegion_declared hr]
    split
    · next heq =>
      cases heq
      have hnone := (unused_of_not_refused hok).1
      have hone : r.uses .write + 1 = 1 := congrArg (· + 1) hnone
      rw [uses_of_region? hr, hone]
      exact UInt64.le_refl 1
    · exact h.writers_le s
  exclusive := fun hrule s hw => by
    rw [uses_changeRegion_declared hr] at hw ⊢
    by_cases hs : s = ref
    · subst hs
      rw [uses_of_region? hr] at hw ⊢
      cases access with
      | read =>
        have hnone : r.uses .write = 0 := writers_of_not_refused hok hrule
        rw [hnone, if_neg (by simp)] at hw
        cases hw
      | write =>
        have hnone : r.uses .read = 0 := (unused_of_not_refused hok).2 hrule
        rw [if_neg (by simp), hnone]
    · have hne : ∀ way, (ref, access) ≠ (s, way) := fun way heq => hs (Prod.mk.inj heq).1.symm
      rw [if_neg (hne _)] at hw ⊢
      exact h.exclusive hrule s hw

theorem withdraw (h : c.Sound) (access : Access) (ref : RegionRef) :
    (c.withdraw access ref).Sound where
  tabled := fun k s hk => h.tabled_changeRegion (fun r _ => id_withdrawn access r) hk
  used := fun s q way hq hpos => h.used_changeRegion
    (fun r _ => ⟨id_withdrawn access r, uses_withdrawn_le access r⟩) hq hpos
  writers_le := fun s => UInt64.le_trans (c.uses_withdraw_le access .write ref s) (h.writers_le s)
  exclusive := fun hrule s hw => by
    have hnone := h.exclusive hrule s
      (UInt64.lt_of_lt_of_le hw (c.uses_withdraw_le access .write ref s))
    rw [uses_withdraw, hnone]
    split <;> rfl

theorem put (h : c.Sound) (hr : c.region? ref = some r) (hname : r'.id = r.id)
    (huses : ∀ way, r'.uses way = r.uses way) : (c.changeRegion ref fun _ => r').Sound where
  tabled := fun k s hk => h.tabled_changeRegion
    (fun q hq => by cases hr.symm.trans hq; exact hname) hk
  used := fun s q way hq hpos => h.used_changeRegion
    (fun q' hq' => by cases hr.symm.trans hq'; exact ⟨hname, fun way => UInt64.le_of_eq (huses way)⟩)
    hq hpos
  writers_le := fun s => by
    rw [uses_changeRegion_of_eq hr huses]
    exact h.writers_le s
  exclusive := fun hrule s hw => by
    rw [uses_changeRegion_of_eq hr huses] at hw ⊢
    exact h.exclusive hrule s hw

end Sound

end Coordinator

namespace MemoryUsers

variable {u u' v : MemoryUsers} {e : MemoryEvent} {es es' : List MemoryEvent}
variable {access way : Access} {id : String} {ref s : RegionRef} {r : Region} {n m steps : Nat}
variable {g : Guard}

/-- How many guards for a region are alive. -/
def alive (u : MemoryUsers) (ref : RegionRef) (access : Access) : Nat :=
  (u.guards.map Prod.snd).count ⟨ref, access⟩

/-- How many uses of a region were declared by name. -/
def declaredByName (u : MemoryUsers) (ref : RegionRef) (access : Access) : Nat :=
  u.declarations.count (ref, access)

/-- How many uses of a region were withdrawn by name. -/
def withdrawnByName (u : MemoryUsers) (ref : RegionRef) (access : Access) : Nat :=
  u.withdrawals.count (ref, access)

/-- A use may be withdrawn by name only if more were declared than withdrawn so far, for the region
that has the name now. -/
def Entitled (u : MemoryUsers) : MemoryEvent → Prop
  | .release access id => ∀ ref, u.coordinator.table.get? id = some ref →
      u.withdrawnByName ref access < u.declaredByName ref access
  | _ => True

/-- Nobody withdraws by name what was not declared by name. -/
def Honest (u : MemoryUsers) : List MemoryEvent → Prop
  | [] => True
  | e :: es => u.Entitled e ∧ ∀ v, u.step e = some v → v.Honest es

/-- No counter of a region is so large that it could pass the largest word in so many steps. -/
def HasRoom (u : MemoryUsers) (steps : Nat) : Prop :=
  ∀ ref way, (u.coordinator.uses ref way).toNat + steps < Word.count

/-- The declared uses of all regions. -/
structure Ledger (u : MemoryUsers) : Prop where
  sound : u.coordinator.Sound
  counted : ∀ ref way, (u.coordinator.uses ref way).toNat + u.withdrawnByName ref way =
    u.alive ref way + u.declaredByName ref way
  withdrawn_le : ∀ ref way, u.withdrawnByName ref way ≤ u.declaredByName ref way
  numbers_nodup : (u.guards.map Prod.fst).Nodup
  numbers_lt : ∀ g ∈ u.guards, g.1 < u.opened

/-! ### Guards -/

theorem mem_of_guard? (h : u.guard? n = some g) : (n, g) ∈ u.guards := by
  obtain ⟨⟨n', g'⟩, hfind, rfl⟩ := Option.map_eq_some_iff.mp h
  have hn : n' = n := by simpa using List.find?_some hfind
  subst hn
  exact List.mem_of_find?_eq_some hfind

theorem alive_cons (u : MemoryUsers) (g : Guard) (ref : RegionRef) (way : Access) :
    ((g :: u.guards.map Prod.snd).count ⟨ref, way⟩) =
      u.alive ref way + if (g.region, g.access) = (ref, way) then 1 else 0 := by
  obtain ⟨ref', access⟩ := g
  simp only [alive, List.count_cons, beq_iff_eq, Guard.mk.injEq, Prod.mk.injEq]

/-- The guards are a guard and those with other numbers. -/
theorem alive_drop (hnodup : (u.guards.map Prod.fst).Nodup) (hg : u.guard? n = some g)
    (ref : RegionRef) (way : Access) :
    u.alive ref way = ((u.guards.filter fun g => g.1 ≠ n).map Prod.snd).count ⟨ref, way⟩ +
      if (g.region, g.access) = (ref, way) then 1 else 0 := by
  have hperm := (perm_cons_filter_key hnodup (mem_of_guard? hg)).map Prod.snd
  obtain ⟨ref', access⟩ := g
  rw [alive, hperm.count_eq, List.map_cons, List.count_cons]
  simp only [beq_iff_eq, Guard.mk.injEq, Prod.mk.injEq]

/-- The region of a guard that is alive is used. -/
theorem alive_pos (hg : u.guard? n = some g) : 0 < u.alive g.region g.access :=
  List.count_pos_iff.mpr (List.mem_map.mpr ⟨(n, g), mem_of_guard? hg, rfl⟩)

namespace Ledger

/-- The region of a guard that is alive has a declared use. -/
theorem uses_pos_of_guard (h : u.Ledger) (hg : u.guard? n = some g) :
    0 < u.coordinator.uses g.region g.access := by
  have halive := alive_pos hg
  have hcounted := h.counted g.region g.access
  have hle := h.withdrawn_le g.region g.access
  refine UInt64.lt_iff_toNat_lt.mpr ?_
  rw [UInt64.toNat_zero]
  omega

/-- A use that may be withdrawn by name is there. -/
theorem uses_pos_of_entitled (h : u.Ledger) (hid : u.coordinator.table.get? id = some ref)
    (he : u.Entitled (.release access id)) : 0 < u.coordinator.uses ref access := by
  have hlt := he ref hid
  have hcounted := h.counted ref access
  refine UInt64.lt_iff_toNat_lt.mpr ?_
  rw [UInt64.toNat_zero]
  omega

/-- The region of a guard that is alive is the one that has its name. -/
theorem table_of_guard (h : u.Ledger) (hg : u.guard? n = some g) :
    ∃ r, u.coordinator.region? g.region = some r ∧
      u.coordinator.table.get? r.id = some g.region := by
  have hpos := h.uses_pos_of_guard hg
  cases hr : u.coordinator.region? g.region with
  | none => simp [Coordinator.uses, hr] at hpos
  | some r =>
    rw [Coordinator.uses_of_region? hr] at hpos
    exact ⟨r, rfl, h.sound.used _ r _ hr hpos⟩

end Ledger

/-! ### One step -/

/-- Every step keeps the regions right. -/
theorem sound_step (h : u.coordinator.Sound) (ho : u.Occurs e u') : u'.coordinator.Sound := by
  cases ho with
  | refused => exact h
  | allocate hid => exact h.withRegion hid _ _
  | free hid hr hunused => exact h.withoutName hid hr hunused
  | acquire hid hr hok => exact h.declare hid hr hok
  | release => exact h.withdraw _ _
  | guard hid hr hok => exact h.declare hid hr hok
  | drop => exact h.withdraw _ _
  | write _ hr hput => exact h.put hr (Region.id_put? hput) (Region.uses_put? hput)
  | put hr hput => exact h.put hr (Region.id_put? hput) (Region.uses_put? hput)

theorem count_cons_pair (l : List (RegionRef × Access)) (x y : RegionRef × Access) :
    (x :: l).count y = l.count y + if x = y then 1 else 0 := by
  simp only [List.count_cons, beq_iff_eq]

/-- A step declares one use of a region, withdraws one that is there, or leaves them alone. -/
theorem counts_step (ho : u.Occurs e u') (ref : RegionRef) (way : Access)
    (hroom : (u.coordinator.uses ref way).toNat < Word.largest) :
    Word.Counts (u.coordinator.uses ref way) (u'.coordinator.uses ref way) := by
  have hdeclared : ∀ s r access, u.coordinator.region? s = some r → Word.Counts
      (u.coordinator.uses ref way)
      ((u.coordinator.changeRegion s (Coordinator.declared access)).uses ref way) := by
    intro s r access hr
    rw [Coordinator.uses_changeRegion_declared hr]
    split
    · exact .up hroom
    · exact .kept
  have hwithdrawn : ∀ s access, Word.Counts (u.coordinator.uses ref way)
      ((u.coordinator.withdraw access s).uses ref way) := by
    intro s access
    rw [Coordinator.uses_withdraw, Coordinator.lowered]
    split
    · -- A counter that is zero stays so.
      split
      · exact .kept
      · next hne => exact .down (Word.pos_of_ne_zero hne)
    · exact .kept
  cases ho with
  | refused => exact .kept
  | allocate => exact .of_eq (Coordinator.uses_withRegion _ _ _ _ _ _)
  | free => exact .kept
  | acquire _ hr => exact hdeclared _ _ _ hr
  | release => exact hwithdrawn _ _
  | guard _ hr => exact hdeclared _ _ _ hr
  | drop => exact hwithdrawn _ _
  | write _ hr hput =>
    exact .of_eq (Coordinator.uses_changeRegion_of_eq hr (Region.uses_put? hput) ref way)
  | put hr hput =>
    exact .of_eq (Coordinator.uses_changeRegion_of_eq hr (Region.uses_put? hput) ref way)

theorem HasRoom.lt_largest (h : u.HasRoom (steps + 1)) (ref : RegionRef) (way : Access) :
    (u.coordinator.uses ref way).toNat < Word.largest := by
  have hlt := h ref way
  have hcount := Word.largest_add_one
  omega

theorem hasRoom_step (h : u.HasRoom (steps + 1)) (ho : u.Occurs e u') : u'.HasRoom steps := by
  intro ref way
  have hlt := h ref way
  have hle := (counts_step ho ref way (h.lt_largest ref way)).toNat_le
  omega

/-- Every step keeps the books of declared uses, as long as no counter is full. -/
theorem counted_step (h : u.Ledger) (he : u.Entitled e) (ho : u.Occurs e u')
    (hroom : u.HasRoom (steps + 1)) :
    ∀ ref way, (u'.coordinator.uses ref way).toNat + u'.withdrawnByName ref way =
      u'.alive ref way + u'.declaredByName ref way := by
  intro s way
  have hcounted := h.counted s way
  cases ho with
  | refused => exact hcounted
  | allocate =>
    simp only [Coordinator.uses_withRegion]
    exact hcounted
  | free => exact hcounted
  | @acquire access id ref r _ hr _ =>
    have hcons : ((ref, access) :: u.declarations).count (s, way) =
        u.declaredByName s way + if (ref, access) = (s, way) then 1 else 0 :=
      count_cons_pair _ _ _
    simp only [Coordinator.uses_changeRegion_declared hr, declaredByName, hcons]
    simp only [withdrawnByName, alive, declaredByName] at hcounted ⊢
    split
    · rw [Word.toNat_add_one (Nat.succ_lt_succ (hroom.lt_largest s way))]
      omega
    · exact hcounted
  | @release access id ref hid =>
    -- There is a use to withdraw, so the number does not stay at zero.
    have hpos := UInt64.lt_iff_toNat_lt.mp (h.uses_pos_of_entitled hid he)
    have hcons : ((ref, access) :: u.withdrawals).count (s, way) =
        u.withdrawnByName s way + if (ref, access) = (s, way) then 1 else 0 :=
      count_cons_pair _ _ _
    simp only [Coordinator.uses_withdraw, withdrawnByName, hcons]
    simp only [withdrawnByName, alive, declaredByName] at hcounted ⊢
    split
    · next heq =>
      cases heq
      rw [Coordinator.toNat_lowered]
      rw [UInt64.toNat_zero] at hpos
      omega
    · exact hcounted
  | @guard access id ref r _ hr _ =>
    have hcons := alive_cons u ⟨ref, access⟩ s way
    simp only [Coordinator.uses_changeRegion_declared hr, alive, List.map_cons, hcons]
    simp only [withdrawnByName, alive, declaredByName] at hcounted ⊢
    split
    · rw [Word.toNat_add_one (Nat.succ_lt_succ (hroom.lt_largest s way))]
      omega
    · exact hcounted
  | @drop n g hg =>
    have hpos := UInt64.lt_iff_toNat_lt.mp (h.uses_pos_of_guard hg)
    have hdrop := alive_drop h.numbers_nodup hg s way
    rw [hdrop] at hcounted
    simp only [Coordinator.uses_withdraw]
    simp only [withdrawnByName, alive, declaredByName] at hcounted ⊢
    split
    · next heq =>
      cases heq
      rw [if_pos rfl] at hcounted
      rw [Coordinator.toNat_lowered]
      rw [UInt64.toNat_zero] at hpos
      omega
    · next hne =>
      rw [if_neg hne] at hcounted
      exact hcounted
  | write _ hr hput =>
    have huses := Coordinator.uses_changeRegion_of_eq hr (Region.uses_put? hput) s way
    exact (congrArg (fun w => w.toNat + u.withdrawnByName s way) huses).trans hcounted
  | put hr hput =>
    have huses := Coordinator.uses_changeRegion_of_eq hr (Region.uses_put? hput) s way
    exact (congrArg (fun w => w.toNat + u.withdrawnByName s way) huses).trans hcounted

/-- Every step keeps the ledger, as long as no counter is full. -/
theorem ledger_step (h : u.Ledger) (he : u.Entitled e) (ho : u.Occurs e u')
    (hroom : u.HasRoom (steps + 1)) : u'.Ledger := by
  refine ⟨sound_step h.sound ho, counted_step h he ho hroom, ?_, ?_, ?_⟩
  · intro s way
    have hle := h.withdrawn_le s way
    cases ho with
    | acquire => exact Nat.le_trans hle (List.count_le_count_cons)
    | @release access id ref hid =>
      have hcons : ((ref, access) :: u.withdrawals).count (s, way) =
          u.withdrawnByName s way + if (ref, access) = (s, way) then 1 else 0 :=
        count_cons_pair _ _ _
      refine Nat.le_trans (Nat.le_of_eq hcons) ?_
      split
      · next heq =>
        cases heq
        exact he _ hid
      · exact hle
    | _ => exact hle
  · cases ho with
    | guard =>
      refine List.nodup_cons.mpr ⟨fun hmem => ?_, h.numbers_nodup⟩
      obtain ⟨g, hg, heq⟩ := List.mem_map.mp hmem
      exact Nat.lt_irrefl _ (heq ▸ h.numbers_lt g hg)
    | drop => exact (List.filter_sublist.map Prod.fst).nodup h.numbers_nodup
    | _ => exact h.numbers_nodup
  · cases ho with
    | guard =>
      intro g hg
      rcases List.mem_cons.mp hg with rfl | hg
      · exact Nat.lt_succ_self _
      · exact Nat.lt_succ_of_lt (h.numbers_lt g hg)
    | drop => exact fun g hg => h.numbers_lt g (List.mem_filter.mp hg).1
    | _ => exact h.numbers_lt

/-! ### Runs -/

theorem uses_start (settings : MemorySettings) (space : AddressSpace) (ref : RegionRef)
    (way : Access) : (start (.new settings space)).coordinator.uses ref way = 0 := rfl

theorem ledger_start {c : Coordinator} (hc : c.Sound) (hnone : ∀ ref way, c.uses ref way = 0) :
    (start c).Ledger where
  sound := hc
  counted := fun ref way => by
    rw [start, hnone]
    rfl
  withdrawn_le := fun _ _ => Nat.le_refl _
  numbers_nodup := List.nodup_nil
  numbers_lt := nofun

theorem hasRoom_run (h : u.HasRoom (es.length + steps)) (hr : u.run es = some u') :
    u'.HasRoom steps := by
  induction es generalizing u with
  | nil =>
    cases hr
    simpa using h
  | cons e es ih =>
    obtain ⟨v, hstep, hrest⟩ := Option.bind_eq_some_iff.mp hr
    rw [List.length_cons, Nat.add_right_comm] at h
    exact ih (hasRoom_step h (occurs_of_step hstep)) hrest

/-- What is honest keeps the ledger, as long as it is too little to fill a counter. -/
theorem ledger_run (h : u.Ledger) (hroom : u.HasRoom es.length) (hh : u.Honest es)
    (hr : u.run es = some u') : u'.Ledger := by
  induction es generalizing u with
  | nil =>
    cases hr
    exact h
  | cons e es ih =>
    obtain ⟨v, hstep, hrest⟩ := Option.bind_eq_some_iff.mp hr
    have hoccurs := occurs_of_step hstep
    exact ih (ledger_step h hh.1 hoccurs hroom) (hasRoom_step hroom hoccurs) (hh.2 v hstep) hrest

theorem settings_step (ho : u.Occurs e u') :
    u'.coordinator.settings = u.coordinator.settings := by
  cases ho with
  | _ => rfl

theorem opened_step (ho : u.Occurs e u') : u.opened ≤ u'.opened := by
  cases ho with
  | guard => exact Nat.le_succ _
  | _ => exact Nat.le_refl _

/-- A guard that is alive after a step, and is not new, was alive before. -/
theorem guard?_of_step (ho : u.Occurs e u') (hn : n < u.opened) (hg : u'.guard? n = some g) :
    u.guard? n = some g := by
  cases ho with
  | guard =>
    have hne : u.opened ≠ n := Nat.ne_of_gt hn
    simpa [guard?, List.find?_cons, hne] using hg
  | @drop m _ _ =>
    have hne : n ≠ m := by
      rintro rfl
      have hmem := (List.mem_filter.mp (mem_of_guard? hg)).2
      simp at hmem
    have hfind : (u.guards.filter fun a => a.1 ≠ m).find? (fun a => a.1 = n) =
        u.guards.find? fun a => a.1 = n := by
      rw [List.find?_filter]
      congr 1
      funext a
      by_cases ha : a.1 = n <;> simp [ha, hne]
    rw [guard?, hfind] at hg
    exact hg
  | _ => exact hg

theorem guard?_of_run (h : u.run es = some u') (hn : n < u.opened) (hg : u'.guard? n = some g) :
    u.guard? n = some g := by
  induction es generalizing u with
  | nil =>
    cases h
    exact hg
  | cons e es ih =>
    obtain ⟨v, hstep, hrest⟩ := Option.bind_eq_some_iff.mp h
    have hoccurs := occurs_of_step hstep
    exact guard?_of_step hoccurs hn (ih hrest (Nat.lt_of_lt_of_le hn (opened_step hoccurs)))

namespace Ledger

/-- Under the exclusive rule a writer is alone. -/
theorem eq_of_writer (h : u.Ledger) (hrule : u.coordinator.settings.rule = .exclusive)
    (hn : u.guard? n = some ⟨ref, .write⟩) (hm : u.guard? m = some g) (hg : g.region = ref) :
    m = n := by
  have hwriter := h.uses_pos_of_guard hn
  obtain ⟨ref', access⟩ := g
  cases hg
  cases access with
  | read =>
    have hreader := h.uses_pos_of_guard hm
    rw [h.sound.exclusive hrule ref' hwriter] at hreader
    exact absurd hreader (UInt64.lt_irrefl 0)
  | write =>
    -- A second guard would count as a second writer.
    by_contra hne
    have hone := UInt64.le_iff_toNat_le.mp (h.sound.writers_le ref')
    have hcounted := h.counted ref' .write
    have hle := h.withdrawn_le ref' .write
    have hdrop := alive_drop h.numbers_nodup hn ref' .write
    have hother : 0 < ((u.guards.filter fun g => g.1 ≠ n).map Prod.snd).count ⟨ref', .write⟩ := by
      refine List.count_pos_iff.mpr (List.mem_map.mpr ⟨(m, ⟨ref', .write⟩), ?_, rfl⟩)
      exact List.mem_filter.mpr ⟨mem_of_guard? hm, by simpa using hne⟩
    rw [if_pos rfl] at hdrop
    rw [UInt64.toNat_one] at hone
    omega

/-- Under the exclusive rule, a step that writes through no more than a guard leaves the octets as
they are that somebody reads through a guard. -/
theorem contents?_step (h : u.Ledger) (hrule : u.coordinator.settings.rule = .exclusive)
    (hn : u.guard? n = some ⟨ref, .read⟩) (ho : u.Occurs e u')
    (he : ∀ s place octets, e ≠ .put s place octets) :
    u'.coordinator.contents? ref = u.coordinator.contents? ref := by
  obtain ⟨r, hr, -⟩ := h.table_of_guard hn
  cases ho with
  | refused => rfl
  | allocate => exact Coordinator.contents?_withRegion hr _ _ _
  | free => rfl
  | acquire => exact Coordinator.contents?_changeRegion fun _ => Coordinator.contents_declared _
  | release => exact Coordinator.contents?_changeRegion fun _ => Coordinator.contents_withdrawn _
  | guard => exact Coordinator.contents?_changeRegion fun _ => Coordinator.contents_declared _
  | drop => exact Coordinator.contents?_changeRegion fun _ => Coordinator.contents_withdrawn _
  | @write m place octets s q q' hm hq hput =>
    refine Coordinator.contents?_changeRegion fun heq => ?_
    have hsame : n = m := h.eq_of_writer hrule hm hn heq
    cases hn.symm.trans (hsame ▸ hm)
  | @put s place octets => exact absurd rfl (he s place octets)

theorem contents?_run (h : u.Ledger) (hrule : u.coordinator.settings.rule = .exclusive)
    (hroom : u.HasRoom es.length) (hh : u.Honest es) (hr : u.run es = some u')
    (hes : ∀ s place octets, .put s place octets ∉ es)
    (hn : u.guard? n = some ⟨ref, .read⟩) (hn' : u'.guard? n = some ⟨ref, .read⟩) :
    u'.coordinator.contents? ref = u.coordinator.contents? ref := by
  induction es generalizing u with
  | nil =>
    cases hr
    rfl
  | cons e es ih =>
    obtain ⟨v, hstep, hrest⟩ := Option.bind_eq_some_iff.mp hr
    have hoccurs := occurs_of_step hstep
    have hlt : n < u.opened := h.numbers_lt _ (mem_of_guard? hn)
    -- Numbers are not given twice, so the guard has been alive all the time.
    have hv : v.guard? n = some ⟨ref, .read⟩ :=
      guard?_of_run hrest (Nat.lt_of_lt_of_le hlt (opened_step hoccurs)) hn'
    have hrule' : v.coordinator.settings.rule = .exclusive := by
      rw [settings_step hoccurs]
      exact hrule
    have hone : v.coordinator.contents? ref = u.coordinator.contents? ref :=
      h.contents?_step hrule hn hoccurs fun s place octets heq =>
        hes s place octets (heq ▸ List.mem_cons_self)
    have hall : u'.coordinator.contents? ref = v.coordinator.contents? ref :=
      ih (ledger_step h hh.1 hoccurs hroom) hrule' (hasRoom_step hroom hoccurs)
        (hh.2 v hstep) hrest
        (fun s place octets hmem => hes s place octets (List.mem_cons_of_mem _ hmem)) hv
    exact hall.trans hone

end Ledger

/-! ### The shared memory from its start -/

/-- How many uses of a region were declared by name and not withdrawn yet. -/
def outstanding (u : MemoryUsers) (ref : RegionRef) (access : Access) : Nat :=
  u.declaredByName ref access - u.withdrawnByName ref access

theorem settings_run (h : u.run es = some u') :
    u'.coordinator.settings = u.coordinator.settings := by
  induction es generalizing u with
  | nil =>
    cases h
    rfl
  | cons e es ih =>
    obtain ⟨v, hstep, hrest⟩ := Option.bind_eq_some_iff.mp h
    exact (ih hrest).trans (settings_step (occurs_of_step hstep))

/-- An honest run begins with an event to which its user is entitled. -/
theorem honest_cons (he : u.Entitled e) (hs : u.step e = some v) (hv : v.Honest es) :
    u.Honest (e :: es) := by
  refine ⟨he, fun v' hs' => ?_⟩
  cases hs.symm.trans hs'
  exact hv

/-- Where nothing is withdrawn by name, everybody is honest. -/
theorem honest_of_no_release (hes : ∀ access id, .release access id ∉ es) : u.Honest es := by
  induction es generalizing u with
  | nil => trivial
  | cons e es ih =>
    refine ⟨?_, fun v _ => ih fun access id hmem => hes access id (List.mem_cons_of_mem _ hmem)⟩
    cases e with
    | release access id => exact absurd List.mem_cons_self (hes access id)
    | _ => trivial

/-- In every state of a shared memory from whose regions nobody withdrew by name what was not
declared by name, and with which fewer things were done than there are words:  The counters of the
readers and of the writers of every region that was ever made show the number of its guards that
are alive and of the uses that are outstanding by name; whoever may withdraw a use finds one; the
region of a guard that is alive is the one that has its name.  Under the exclusive rule a guard for
writing is the only guard of its region, and as long as octets are only written through guards,
what is read through a guard stays the same for as long as the guard lives. -/
theorem ledger_of_run {settings : MemorySettings} {space : AddressSpace}
    (hes : es.length < Word.count) (hh : (start (.new settings space)).Honest es)
    (h : (start (.new settings space)).run es = some u) :
    ((∀ ref r, u.coordinator.region? ref = some r →
        r.readers.toNat = u.alive ref .read + u.outstanding ref .read ∧
        r.writers.toNat = u.alive ref .write + u.outstanding ref .write) ∧
      ∀ ref way, u.withdrawnByName ref way ≤ u.declaredByName ref way) ∧
    ((∀ access id ref, u.coordinator.table.get? id = some ref →
        u.Entitled (.release access id) → 0 < u.coordinator.uses ref access) ∧
      ∀ n g, u.guard? n = some g → 0 < u.coordinator.uses g.region g.access) ∧
    (∀ n g, u.guard? n = some g → ∃ r, u.coordinator.region? g.region = some r ∧
      u.coordinator.table.get? r.id = some g.region) ∧
    (settings.rule = .exclusive →
      (∀ n m ref g, u.guard? n = some ⟨ref, .write⟩ → u.guard? m = some g → g.region = ref →
        m = n) ∧
      ∀ later u' n ref, es.length + later.length < Word.count → u.Honest later →
        u.run later = some u' → (∀ s place octets, .put s place octets ∉ later) →
        u.guard? n = some ⟨ref, .read⟩ → u'.guard? n = some ⟨ref, .read⟩ →
        u'.coordinator.contents? ref = u.coordinator.contents? ref) := by
  have hroom : ∀ steps, es.length + steps < Word.count →
      (start (.new settings space)).HasRoom (es.length + steps) := fun steps hlt _ _ => by
    rw [uses_start, UInt64.toNat_zero, Nat.zero_add]
    exact hlt
  have hu : u.Ledger :=
    ledger_run (ledger_start (Coordinator.sound_new _ _) fun _ _ => rfl) (hroom 0 hes) hh h
  have hbalance : ∀ ref r way, u.coordinator.region? ref = some r →
      (r.uses way).toNat = u.alive ref way + u.outstanding ref way := fun ref r way hr => by
    have hcounted := hu.counted ref way
    have hle := hu.withdrawn_le ref way
    rw [Coordinator.uses_of_region? hr] at hcounted
    rw [outstanding]
    omega
  refine ⟨⟨fun ref r hr => ⟨hbalance ref r .read hr, hbalance ref r .write hr⟩, hu.withdrawn_le⟩,
    ⟨fun _ _ _ hid he => hu.uses_pos_of_entitled hid he, fun _ _ hg => hu.uses_pos_of_guard hg⟩,
    fun _ _ hg => hu.table_of_guard hg, fun hrule => ?_⟩
  have hrule' : u.coordinator.settings.rule = .exclusive := by
    rw [settings_run h]
    exact hrule
  exact ⟨fun _ _ _ _ hn hm hg => hu.eq_of_writer hrule' hn hm hg,
    fun later _ _ _ hlater hh' h' hputs hn hn' =>
      hu.contents?_run hrule' (hasRoom_run (hroom later.length hlater) h) hh' h' hputs hn hn'⟩

/-- A region is written through one guard and read through another one, while it is also declared
as read by name, and cannot be freed. -/
theorem ledger_of_run_with_reader :
    ∃ u u' r, (start (.new { limit := 64, rule := .exclusive } .usual)).run
        [.allocate "a" 4 .bytes, .guard .write "a", .write 0 1 [7], .drop 0, .guard .read "a",
          .acquire .read "a"] = some u ∧
      u.run [.release .read "a", .free "a", .allocate "a" 4 .bytes] = some u' ∧
      u.coordinator.region? 0 = some r ∧ r.readers.toNat = 2 ∧
      u'.coordinator.contents? 0 = some [0, 7, 0, 0] := by
  let u₀ := start (.new { limit := 64, rule := .exclusive } .usual)
  let es : List MemoryEvent :=
    [.allocate "a" 4 .bytes, .guard .write "a", .write 0 1 [7], .drop 0, .guard .read "a",
      .acquire .read "a"]
  let later : List MemoryEvent := [.release .read "a", .free "a", .allocate "a" 4 .bytes]
  let u := (u₀.run es).get (by decide +kernel)
  have hrun : u₀.run es = some u := (Option.some_get _).symm
  let u' := (u.run later).get (by decide +kernel)
  have hrun' : u.run later = some u' := (Option.some_get _).symm
  let r := (u.coordinator.region? 0).get (by decide +kernel)
  have hr : u.coordinator.region? 0 = some r := (Option.some_get _).symm
  have hh : u₀.Honest es := honest_of_no_release (by simp [es])
  have hh' : u.Honest later := by
    refine honest_cons (fun ref hid => ?_) (Option.some_get (by decide +kernel)).symm
      (honest_of_no_release (by simp))
    have htable : u.coordinator.table.get? "a" = some 0 := by decide +kernel
    cases htable.symm.trans hid
    decide +kernel
  obtain ⟨⟨hbalance, -⟩, -, -, hexclusive⟩ := ledger_of_run (by decide) hh hrun
  have hsame := (hexclusive rfl).2 later u' 1 0 (by decide) hh' hrun' (by simp [later]) (by decide +kernel)
    (by decide +kernel)
  have hcontents : u.coordinator.contents? 0 = some [0, 7, 0, 0] := by decide +kernel
  have hreaders : u.alive 0 .read + u.outstanding 0 .read = 2 := by decide +kernel
  exact ⟨u, u', r, hrun, hrun', hr, (hbalance 0 r hr).1.trans hreaders, hsame.trans hcontents⟩

end MemoryUsers

end LanguageHost
