import LanguageHost.Proofs.Memory.Contents

/-!
# What events come down to

In a state of the shared memory an event comes down to a deed: a change of the regions, which makes
one, takes the name of one away or touches one, and what is noted of guards and of uses that were
declared or withdrawn by name.  `MemoryUsers.deed` decides which deed it is, and `Deed.apply` does
it (`apply_deed`).

Taking the decision apart from what is done makes it possible to ask of two events whether each
would still come down to the same after the other.  The lemmas about `Change.apply` and `Deed.apply`
say what each part of the state is afterwards, one lemma for all deeds.
-/

namespace LanguageHost

/-- A region to which something was written. -/
def Region.written (p : Patch) (r : Region) : Region := { r with patches := p :: r.patches }

/-- Functions that do the same to a region change it in the same way. -/
theorem Coordinator.changeRegion_congr {c : Coordinator} {ref : RegionRef} {f g : Region → Region}
    (h : ∀ r, c.region? ref = some r → f r = g r) :
    c.changeRegion ref f = c.changeRegion ref g := by
  have hmade : c.made.modify ref f = c.made.modify ref g := by
    refine Array.ext_getElem? fun s => ?_
    rw [Array.getElem?_modify, Array.getElem?_modify]
    split
    · next hs =>
      subst hs
      cases hr : c.made[ref]? with
      | none => rfl
      | some r => exact congrArg some (h r hr)
    · rfl
  rw [changeRegion, changeRegion, hmade]

/-- A change of the regions. -/
inductive Change where
  | nothing
  | make (id : String) (size : UInt64) (element : ElementType)
  | unname (id : String) (r : Region)
  | touch (ref : RegionRef) (f : Region → Region)

namespace Change

variable {d : Change} {c : Coordinator} {s : RegionRef}

/-- The coordinator after a change. -/
def apply : Change → Coordinator → Coordinator
  | nothing, c => c
  | make id size element, c => c.withRegion id size element
  | unname id r, c => c.withoutName id r
  | touch ref f, c => c.changeRegion ref f

/-- The name that begins or ends to stand for a region. -/
def name? : Change → Option String
  | make id _ _ => some id
  | unname id _ => some id
  | _ => none

/-- What the name stands for afterwards, where a new region has a place. -/
def entry? : Change → RegionRef → Option RegionRef
  | make _ _ _, place => some place
  | _, _ => none

/-- The region that is touched. -/
def touched? : Change → Option RegionRef
  | touch ref _ => some ref
  | _ => none

/-- What becomes of a region that is there. -/
def on : Change → RegionRef → Region → Region
  | touch ref f, s => if s = ref then f else id
  | _, _ => id

/-- The region that is made. -/
def new? : Change → Option Region
  | make id size element => some (.new id size element)
  | _ => none

/-- What comes to the usage, up to a carry. -/
def delta : Change → UInt64
  | make _ size _ => size
  | unname _ r => - r.size
  | _ => 0

theorem settings_apply (d : Change) (c : Coordinator) : (d.apply c).settings = c.settings := by
  cases d <;> rfl

theorem space_apply (d : Change) (c : Coordinator) : (d.apply c).space = c.space := by
  cases d <;> rfl

theorem usage_apply (d : Change) (c : Coordinator) : (d.apply c).usage = c.usage + d.delta := by
  cases d with
  | nothing => exact (UInt64.add_zero _).symm
  | make => rfl
  | unname => exact UInt64.sub_eq_add_neg _ _
  | touch => exact (UInt64.add_zero _).symm

theorem size_apply (d : Change) (c : Coordinator) :
    (d.apply c).made.size = c.made.size + d.new?.toList.length := by
  cases d with
  | make => exact Array.size_push _
  | touch => exact Coordinator.size_changeRegion _ _ _
  | _ => rfl

theorem table_apply (d : Change) (c : Coordinator) (id : String) :
    (d.apply c).table.get? id =
      if d.name? = some id then d.entry? c.made.size else c.table.get? id := by
  cases d with
  | make id' =>
    simp only [apply, Coordinator.withRegion, Dict.get?_insert, name?, entry?, Option.some.injEq,
      eq_comm]
  | unname id' =>
    simp only [apply, Coordinator.withoutName, Dict.get?_erase, name?, entry?, Option.some.injEq,
      eq_comm]
  | _ => rfl

theorem region?_apply (d : Change) (c : Coordinator) (s : RegionRef) :
    (d.apply c).region? s =
      if s = c.made.size ∧ d.new?.isSome then d.new? else (c.region? s).map (d.on s) := by
  cases d with
  | make id size element => simp [apply, Coordinator.region?_withRegion, new?, on]
  | touch ref f =>
    rw [apply, Coordinator.region?_changeRegion]
    by_cases hs : s = ref
    · simp [hs, new?, on]
    · simp [hs, new?, on]
  | nothing => simp [apply, new?, on]
  | unname id r => simp [apply, Coordinator.withoutName, Coordinator.region?, new?, on]

theorem on_of_not_touched (h : d.touched? ≠ some s) : d.on s = id := by
  cases d with
  | touch ref f => exact if_neg fun hs => h (congrArg some hs.symm)
  | _ => rfl

/-- A region that is there stays as it is unless it is touched. -/
theorem region?_apply_of_lt (hs : s < c.made.size) (h : d.touched? ≠ some s) :
    (d.apply c).region? s = c.region? s := by
  have hnew : ¬ (s = c.made.size ∧ d.new?.isSome) := fun hcond => Nat.ne_of_lt hs hcond.1
  rw [region?_apply, if_neg hnew, on_of_not_touched h, Option.map_id, id]

end Change

/-- What an event comes down to. -/
structure Deed where
  change : Change := .nothing
  /-- The guard that is given. -/
  opens : Option Guard := none
  /-- The number of the guard that is dropped. -/
  drops : Option Nat := none
  /-- The use that is declared by name. -/
  declares : Option (RegionRef × Access) := none
  /-- The use that is withdrawn by name. -/
  withdraws : Option (RegionRef × Access) := none

namespace Deed

/-- The users after a deed. -/
def apply (d : Deed) (u : MemoryUsers) : MemoryUsers where
  coordinator := d.change.apply u.coordinator
  guards := (d.opens.map fun g => (u.opened, g)).toList ++
    d.drops.elim u.guards fun n => u.guards.filter fun g => g.1 ≠ n
  opened := u.opened + d.opens.toList.length
  declarations := d.declares.toList ++ u.declarations
  withdrawals := d.withdraws.toList ++ u.withdrawals

/-- The guard of a number is the one that is given, or the one there was unless it is dropped. -/
theorem guard?_apply (d : Deed) (u : MemoryUsers) (n : Nat) :
    (d.apply u).guard? n = if n = u.opened ∧ d.opens.isSome then d.opens
      else if d.drops = some n then none else u.guard? n := by
  have hkept : ((d.drops.elim u.guards fun m => u.guards.filter fun g => g.1 ≠ m).find?
      fun g => g.1 = n).map Prod.snd = if d.drops = some n then none else u.guard? n := by
    cases d.drops with
    | none => rfl
    | some m =>
      rw [Option.elim_some, find?_filter_key_ne]
      by_cases hm : m = n
      · simp [hm]
      · simp [hm, MemoryUsers.guard?]
  rw [← hkept]
  unfold MemoryUsers.guard? apply
  cases d.opens with
  | none => simp
  | some g =>
    by_cases hn : n = u.opened
    · simp [hn]
    · simp [hn, Ne.symm hn]

end Deed

namespace MemoryUsers

variable {u : MemoryUsers} {e : MemoryEvent}

/-- What a write comes down to. -/
def deedOfPut (u : MemoryUsers) (ref : RegionRef) (place : Nat) (octets : List UInt8) : Deed :=
  match (u.coordinator.region? ref).bind fun r => r.put? place octets with
  | some _ => { change := .touch ref (.written ⟨place, octets⟩) }
  | none => {}

/-- What an event comes down to; what is refused or impossible comes to nothing. -/
def deed (u : MemoryUsers) : MemoryEvent → Deed
  | .allocate id size element =>
    match (u.coordinator.allocate id size element).1 with
    | .ok _ => { change := .make id size element }
    | .error _ => {}
  | .free id =>
    match u.coordinator.find id with
    | .ok (_, r) => if 0 < r.readers ∨ 0 < r.writers then {} else { change := .unname id r }
    | .error _ => {}
  | .acquire access id =>
    match (u.coordinator.acquire access id).1 with
    | .ok ref =>
      { change := .touch ref (Coordinator.declared access), declares := some (ref, access) }
    | .error _ => {}
  | .release access id =>
    match u.coordinator.get id with
    | .ok ref =>
      { change := .touch ref (Coordinator.withdrawn access), withdraws := some (ref, access) }
    | .error _ => {}
  | .guard access id =>
    match (u.coordinator.acquire access id).1 with
    | .ok ref =>
      { change := .touch ref (Coordinator.declared access), opens := some ⟨ref, access⟩ }
    | .error _ => {}
  | .drop n =>
    match u.guard? n with
    | some g => { change := .touch g.region (Coordinator.withdrawn g.access), drops := some n }
    | none => {}
  | .write n place octets =>
    match u.guard? n with
    | some ⟨ref, .write⟩ => u.deedOfPut ref place octets
    | _ => {}
  | .put ref place octets => u.deedOfPut ref place octets

theorem put?_eq_none {c : Coordinator} {ref : RegionRef} {place : Nat} {octets : List UInt8}
    (h : ((c.region? ref).bind fun r => r.put? place octets) = none) :
    c.put? ref place octets = none := by
  unfold Coordinator.put?
  cases hr : c.region? ref with
  | none => rfl
  | some r =>
    rw [hr, Option.bind_some] at h
    simp [h]

/-- A write is what it comes down to, or is not possible and comes to nothing. -/
theorem apply_deedOfPut (u : MemoryUsers) (ref : RegionRef) (place : Nat) (octets : List UInt8) :
    (((u.coordinator.put? ref place octets).map fun c => { u with coordinator := c }).getD u) =
      (u.deedOfPut ref place octets).apply u := by
  unfold deedOfPut
  cases hput : (u.coordinator.region? ref).bind fun r => r.put? place octets with
  | none =>
    rw [put?_eq_none hput]
    rfl
  | some r' =>
    obtain ⟨r, hr, hr'⟩ := Option.bind_eq_some_iff.mp hput
    have hfits := Region.le_of_put? hr'
    rw [Region.put?_of_le hfits, Option.some.injEq] at hr'
    have hchange : u.coordinator.changeRegion ref (.written ⟨place, octets⟩) =
        u.coordinator.changeRegion ref fun _ => r' :=
      Coordinator.changeRegion_congr fun q hq => by
        cases hr.symm.trans hq
        exact hr'
    simp only [Coordinator.put?, hr, Option.bind_eq_bind, Option.bind_some,
      Region.put?_of_le hfits, Option.pure_def, Option.map_some, Option.getD_some, hr']
    rw [← hchange]
    rfl

/-- Every event does what it comes down to. -/
theorem apply_deed (u : MemoryUsers) (e : MemoryEvent) :
    (u.step e).getD u = (u.deed e).apply u := by
  cases e with
  | allocate id size element =>
    rcases u.coordinator.allocate_cases id size element with ⟨err, heq⟩ | ⟨-, heq⟩
    · simp only [step, deed, heq, Option.getD_some]
      rfl
    · simp only [step, deed, heq, Option.getD_some]
      rfl
  | free id =>
    simp only [step, deed, Coordinator.free, Option.getD_some]
    cases u.coordinator.find id with
    | error err => rfl
    | ok found =>
      obtain ⟨ref, r⟩ := found
      dsimp only
      split <;> rfl
  | acquire access id =>
    rcases u.coordinator.acquire_cases access id with ⟨err, heq⟩ | ⟨ref, r, -, -, -, heq⟩
    · simp only [step, deed, heq, Option.getD_some]
      rfl
    · simp only [step, deed, heq, Option.getD_some]
      rfl
  | release access id =>
    simp only [step, deed, Coordinator.release]
    cases u.coordinator.get id with
    | error err => rfl
    | ok ref => rfl
  | guard access id =>
    simp only [step, deed, Coordinator.guard]
    rcases u.coordinator.acquire_cases access id with ⟨err, heq⟩ | ⟨ref, r, -, -, -, heq⟩
    · simp only [heq, Option.getD_some]
      rfl
    · simp only [heq, Option.getD_some]
      rfl
  | drop n =>
    simp only [step, deed]
    cases u.guard? n with
    | none => rfl
    | some g => rfl
  | write n place octets =>
    simp only [step, deed]
    cases u.guard? n with
    | none => rfl
    | some g =>
      obtain ⟨ref, access⟩ := g
      cases access with
      | read => rfl
      | write => exact u.apply_deedOfPut ref place octets
  | put ref place octets => exact u.apply_deedOfPut ref place octets

end MemoryUsers

end LanguageHost
