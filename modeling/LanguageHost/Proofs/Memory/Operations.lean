import LanguageHost.Memory.Users

/-!
# What the operations on the shared memory do

An operation of a coordinator is refused and changes nothing, or it makes a region, takes one out of
the table, or changes the number of declared uses of one.  The lemmas here say which, each with the
condition under which it does.  `MemoryUsers.Occurs` does the same for whole events, and
`occurs_of_step` says that every event is one of its cases.
-/

namespace LanguageHost

/-- The counter of the declared uses of a region. -/
def Region.uses (r : Region) : Access → UInt64
  | .read => r.readers
  | .write => r.writers

namespace Region

variable {r r' : Region} {place : Nat} {octets : List UInt8}

theorem id_put? (h : r.put? place octets = some r') : r'.id = r.id := by
  unfold put? at h
  split at h
  · cases h
    rfl
  · cases h

/-- Writing octets is not a declared use. -/
theorem uses_put? (h : r.put? place octets = some r') (way : Access) :
    r'.uses way = r.uses way := by
  unfold put? at h
  split at h
  · cases h
    cases way <;> rfl
  · cases h

end Region

namespace Coordinator

variable {c : Coordinator} {access : Access} {id : String} {ref s : RegionRef} {r r' : Region}

/-! ### Changing a region -/

@[simp] theorem id_declared (access : Access) (r : Region) : (declared access r).id = r.id := by
  cases access <;> rfl

@[simp] theorem id_withdrawn (access : Access) (r : Region) : (withdrawn access r).id = r.id := by
  cases access <;> rfl

@[simp] theorem contents_declared (access : Access) (r : Region) :
    (declared access r).contents = r.contents := by
  cases access <;> rfl

@[simp] theorem contents_withdrawn (access : Access) (r : Region) :
    (withdrawn access r).contents = r.contents := by
  cases access <;> rfl

theorem uses_declared (access way : Access) (r : Region) :
    (declared access r).uses way = if access = way then r.uses way + 1 else r.uses way := by
  cases access <;> cases way <;> rfl

theorem uses_withdrawn (access way : Access) (r : Region) :
    (withdrawn access r).uses way = if access = way then lowered (r.uses way) else r.uses way := by
  cases access <;> cases way <;> rfl

/-- A counter that is lowered goes down by one unless it is zero. -/
theorem toNat_lowered (w : UInt64) : (lowered w).toNat = w.toNat - 1 := by
  unfold lowered
  split
  · next hzero =>
    rw [hzero]
    rfl
  · next hne =>
    have := Word.toNat_sub_one hne
    omega

/-- Withdrawing a use raises no counter. -/
theorem uses_withdrawn_le (access : Access) (r : Region) (way : Access) :
    (withdrawn access r).uses way ≤ r.uses way := by
  rw [uses_withdrawn]
  split
  · rw [UInt64.le_iff_toNat_le, toNat_lowered]
    exact Nat.sub_le _ _
  · exact UInt64.le_refl _

theorem region?_changeRegion (c : Coordinator) (ref s : RegionRef) (f : Region → Region) :
    (c.changeRegion ref f).region? s =
      if s = ref then (c.region? s).map f else c.region? s := by
  simp only [region?, changeRegion, Array.getElem?_modify, eq_comm (a := s)]

/-- The counter of the declared uses of a region, and zero for a region that was never made. -/
def uses (c : Coordinator) (ref : RegionRef) (access : Access) : UInt64 :=
  ((c.region? ref).map fun r => r.uses access).getD 0

theorem uses_of_region? (hr : c.region? ref = some r) (access : Access) :
    c.uses ref access = r.uses access := by
  rw [uses, hr]
  rfl

theorem uses_changeRegion_declared (hr : c.region? ref = some r) (access way : Access)
    (s : RegionRef) :
    (c.changeRegion ref (declared access)).uses s way =
      if (ref, access) = (s, way) then c.uses s way + 1 else c.uses s way := by
  rw [uses, region?_changeRegion]
  by_cases hs : s = ref
  · subst hs
    simp [uses, hr, uses_declared]
  · simp [uses, hs, Ne.symm hs]

theorem uses_withdraw (c : Coordinator) (access way : Access) (ref s : RegionRef) :
    (c.withdraw access ref).uses s way =
      if (ref, access) = (s, way) then lowered (c.uses s way) else c.uses s way := by
  rw [uses, withdraw, region?_changeRegion]
  by_cases hs : s = ref
  · subst hs
    cases hr : c.region? s with
    | none => simp [uses, hr, lowered]
    | some r => simp [uses, hr, uses_withdrawn]
  · simp [uses, hs, Ne.symm hs]

theorem uses_withdraw_le (c : Coordinator) (access way : Access) (ref s : RegionRef) :
    (c.withdraw access ref).uses s way ≤ c.uses s way := by
  rw [uses, withdraw, region?_changeRegion]
  split
  · next hs =>
    rw [uses, hs]
    cases hr : c.region? ref with
    | none => exact UInt64.le_refl _
    | some r => exact uses_withdrawn_le access r way
  · exact UInt64.le_refl _

/-- Replacing a region by one that is used as much changes no uses. -/
theorem uses_changeRegion_of_eq (hr : c.region? ref = some r)
    (heq : ∀ way, r'.uses way = r.uses way) (s : RegionRef) (way : Access) :
    (c.changeRegion ref fun _ => r').uses s way = c.uses s way := by
  rw [uses, region?_changeRegion]
  by_cases hs : s = ref
  · subst hs
    simp [uses, hr, heq]
  · simp [uses, hs]

/-- The octets of a region. -/
def contents? (c : Coordinator) (ref : RegionRef) : Option (List UInt8) :=
  (c.region? ref).map Region.contents

/-- Changing the declared uses of a region, or another region, leaves the octets as they are. -/
theorem contents?_changeRegion {f : Region → Region}
    (hf : s = ref → ∀ r, (f r).contents = r.contents) :
    (c.changeRegion ref f).contents? s = c.contents? s := by
  rw [contents?, contents?, region?_changeRegion]
  split
  · next hs =>
    rw [Option.map_map]
    exact congrFun (congrArg Option.map (funext (hf hs))) _
  · rfl

/-! ### Making a region -/

theorem region?_size (c : Coordinator) : c.region? c.made.size = none :=
  Array.getElem?_eq_none (Nat.le_refl _)

theorem region?_withRegion (c : Coordinator) (id : String) (size : UInt64) (element : ElementType)
    (s : RegionRef) :
    (c.withRegion id size element).region? s =
      if s = c.made.size then some (.new id size element) else c.region? s := by
  simp only [region?, withRegion, Array.getElem?_push]

/-- A new region is not used. -/
theorem uses_withRegion (c : Coordinator) (id : String) (size : UInt64) (element : ElementType)
    (s : RegionRef) (way : Access) :
    (c.withRegion id size element).uses s way = c.uses s way := by
  rw [uses, region?_withRegion]
  split
  · next hs =>
    subst hs
    rw [uses, region?_size]
    cases way <;> rfl
  · rfl

/-- A new region is none of the old ones. -/
theorem contents?_withRegion (hr : c.region? s = some r) (id : String) (size : UInt64)
    (element : ElementType) : (c.withRegion id size element).contents? s = c.contents? s := by
  rw [contents?, contents?, region?_withRegion]
  split
  · next hs => cases hr.symm.trans (hs ▸ c.region?_size)
  · rfl

/-! ### Operations -/

theorem find_eq_ok : c.find id = .ok (ref, r) ↔
    c.table.get? id = some ref ∧ c.region? ref = some r := by
  unfold find
  cases hid : c.table.get? id with
  | none => simp
  | some ref' =>
    cases hr : c.region? ref' with
    | none =>
      simp only [Option.bind_some, hr, Option.map_none, reduceCtorEq, Option.some.injEq, false_iff,
        not_and]
      rintro rfl
      simp [hr]
    | some r' =>
      simp only [Option.bind_some, hr, Option.map_some, Except.ok.injEq, Prod.mk.injEq,
        Option.some.injEq]
      constructor
      · rintro ⟨rfl, rfl⟩
        exact ⟨rfl, hr⟩
      · rintro ⟨rfl, hr'⟩
        exact ⟨rfl, Option.some.inj (hr.symm.trans hr')⟩

/-- A region is made for a name that has none, or nothing happens. -/
theorem allocate_cases (c : Coordinator) (id : String) (size : UInt64) (element : ElementType) :
    (∃ e, c.allocate id size element = (.error e, c)) ∨
      c.table.get? id = none ∧
        c.allocate id size element = (.ok c.made.size, c.withRegion id size element) := by
  unfold allocate
  split
  · exact .inl ⟨_, rfl⟩
  · next hid =>
    split
    · exact .inl ⟨_, rfl⟩
    · split
      · exact .inl ⟨_, rfl⟩
      · exact .inr ⟨by simpa [Dict.contains] using hid, rfl⟩

/-- A region that nobody uses is taken out of the table, or nothing happens. -/
theorem free_cases (c : Coordinator) (id : String) :
    (∃ e, c.free id = (.error e, c)) ∨
      ∃ ref r, c.table.get? id = some ref ∧ c.region? ref = some r ∧ (∀ way, r.uses way = 0) ∧
        c.free id = (.ok (), c.withoutName id r) := by
  unfold free
  split
  · exact .inl ⟨_, rfl⟩
  · next ref r hfind =>
    obtain ⟨hid, hr⟩ := find_eq_ok.mp hfind
    split
    · exact .inl ⟨_, rfl⟩
    · next hidle =>
      refine .inr ⟨ref, r, hid, hr, fun way => ?_, rfl⟩
      cases way with
      | read => exact Word.eq_zero_of_not_pos fun hpos => hidle (.inl hpos)
      | write => exact Word.eq_zero_of_not_pos fun hpos => hidle (.inr hpos)

/-- A use of the region of a name is declared unless the rule forbids it, or nothing happens. -/
theorem acquire_cases (c : Coordinator) (access : Access) (id : String) :
    (∃ e, c.acquire access id = (.error e, c)) ∨
      ∃ ref r, c.table.get? id = some ref ∧ c.region? ref = some r ∧
        refusal? c.settings.rule access id r = none ∧
        c.acquire access id = (.ok ref, c.changeRegion ref (declared access)) := by
  unfold acquire
  split
  · exact .inl ⟨_, rfl⟩
  · next ref r hfind =>
    obtain ⟨hid, hr⟩ := find_eq_ok.mp hfind
    split
    · exact .inl ⟨_, rfl⟩
    · next hok => exact .inr ⟨ref, r, hid, hr, hok, rfl⟩

/-- A region that may be read under the exclusive rule has no writer. -/
theorem writers_of_not_refused {rule : AccessRule} (h : refusal? rule .read id r = none)
    (hrule : rule = .exclusive) : r.writers = 0 := by
  simp only [refusal?] at h
  split at h
  · cases h
  · next hfree => exact Word.eq_zero_of_not_pos fun hpos => hfree ⟨hrule, hpos⟩

/-- A region that may be written has no writer, and no reader under the exclusive rule. -/
theorem unused_of_not_refused {rule : AccessRule} (h : refusal? rule .write id r = none) :
    r.writers = 0 ∧ (rule = .exclusive → r.readers = 0) := by
  simp only [refusal?] at h
  split at h
  · cases h
  · next hwriters =>
    split at h
    · cases h
    · next hfree =>
      exact ⟨Word.eq_zero_of_not_pos hwriters,
        fun hrule => Word.eq_zero_of_not_pos fun hpos => hfree ⟨hrule, hpos⟩⟩

/-- Writing changes the octets of a region and neither its name nor the uses of it. -/
theorem put?_cases {place : Nat} {octets : List UInt8} {c' : Coordinator}
    (h : c.put? ref place octets = some c') :
    ∃ r r', c.region? ref = some r ∧ r.put? place octets = some r' ∧
      c' = c.changeRegion ref fun _ => r' := by
  simp only [put?, Option.bind_eq_bind, Option.bind_eq_some_iff, Option.pure_def,
    Option.some.injEq] at h
  obtain ⟨r, hr, r', hput, rfl⟩ := h
  exact ⟨r, r', hr, hput, rfl⟩

end Coordinator

namespace MemoryUsers

variable {u u' v : MemoryUsers} {e : MemoryEvent} {es es' : List MemoryEvent}

/-- Everything that may happen to the shared memory, with its condition and its effect. -/
inductive Occurs (u : MemoryUsers) : MemoryEvent → MemoryUsers → Prop where
  | refused {e : MemoryEvent} : u.Occurs e u
  | allocate {id : String} {size : UInt64} {element : ElementType}
      (hid : u.coordinator.table.get? id = none) :
      u.Occurs (.allocate id size element)
        { u with coordinator := u.coordinator.withRegion id size element }
  | free {id : String} {ref : RegionRef} {r : Region}
      (hid : u.coordinator.table.get? id = some ref) (hr : u.coordinator.region? ref = some r)
      (hunused : ∀ way, r.uses way = 0) :
      u.Occurs (.free id) { u with coordinator := u.coordinator.withoutName id r }
  | acquire {access : Access} {id : String} {ref : RegionRef} {r : Region}
      (hid : u.coordinator.table.get? id = some ref) (hr : u.coordinator.region? ref = some r)
      (hok : Coordinator.refusal? u.coordinator.settings.rule access id r = none) :
      u.Occurs (.acquire access id)
        { u with
          coordinator := u.coordinator.changeRegion ref (Coordinator.declared access)
          declarations := (ref, access) :: u.declarations }
  | release {access : Access} {id : String} {ref : RegionRef}
      (hid : u.coordinator.table.get? id = some ref) :
      u.Occurs (.release access id)
        { u with
          coordinator := u.coordinator.withdraw access ref
          withdrawals := (ref, access) :: u.withdrawals }
  | guard {access : Access} {id : String} {ref : RegionRef} {r : Region}
      (hid : u.coordinator.table.get? id = some ref) (hr : u.coordinator.region? ref = some r)
      (hok : Coordinator.refusal? u.coordinator.settings.rule access id r = none) :
      u.Occurs (.guard access id)
        { u with
          coordinator := u.coordinator.changeRegion ref (Coordinator.declared access)
          guards := (u.opened, ⟨ref, access⟩) :: u.guards, opened := u.opened + 1 }
  | drop {n : Nat} {g : Guard} (hg : u.guard? n = some g) :
      u.Occurs (.drop n)
        { u with
          coordinator := u.coordinator.withdraw g.access g.region
          guards := u.guards.filter fun g => g.1 ≠ n }
  | write {n place : Nat} {octets : List UInt8} {ref : RegionRef} {r r' : Region}
      (hg : u.guard? n = some ⟨ref, .write⟩) (hr : u.coordinator.region? ref = some r)
      (hput : r.put? place octets = some r') :
      u.Occurs (.write n place octets)
        { u with coordinator := u.coordinator.changeRegion ref fun _ => r' }
  | put {ref : RegionRef} {place : Nat} {octets : List UInt8} {r r' : Region}
      (hr : u.coordinator.region? ref = some r) (hput : r.put? place octets = some r') :
      u.Occurs (.put ref place octets)
        { u with coordinator := u.coordinator.changeRegion ref fun _ => r' }

/-- Every step is one of the cases of `Occurs`. -/
theorem occurs_of_step (h : u.step e = some u') : u.Occurs e u' := by
  cases e with
  | allocate id size element =>
    simp only [step, Option.some.injEq] at h
    subst h
    rcases u.coordinator.allocate_cases id size element with ⟨e, heq⟩ | ⟨hid, heq⟩
    · rw [heq]
      exact .refused
    · rw [heq]
      exact .allocate hid
  | free id =>
    simp only [step, Option.some.injEq] at h
    subst h
    rcases u.coordinator.free_cases id with ⟨e, heq⟩ | ⟨ref, r, hid, hr, hunused, heq⟩
    · rw [heq]
      exact .refused
    · rw [heq]
      exact .free hid hr hunused
  | acquire access id =>
    simp only [step] at h
    rcases u.coordinator.acquire_cases access id with ⟨e, heq⟩ | ⟨ref, r, hid, hr, hok, heq⟩
    · rw [heq] at h
      cases h
      exact .refused
    · rw [heq] at h
      cases h
      exact .acquire hid hr hok
  | release access id =>
    simp only [step, Coordinator.release, Coordinator.get] at h
    cases hid : u.coordinator.table.get? id with
    | none =>
      rw [hid] at h
      cases h
      exact .refused
    | some ref =>
      rw [hid] at h
      cases h
      exact .release hid
  | guard access id =>
    simp only [step, Coordinator.guard] at h
    rcases u.coordinator.acquire_cases access id with ⟨e, heq⟩ | ⟨ref, r, hid, hr, hok, heq⟩
    · rw [heq] at h
      cases h
      exact .refused
    · rw [heq] at h
      cases h
      exact .guard hid hr hok
  | drop n =>
    obtain ⟨g, hg, rfl⟩ := Option.map_eq_some_iff.mp h
    exact .drop hg
  | write n place octets =>
    simp only [step] at h
    split at h
    · next ref hg =>
      obtain ⟨c, hput, rfl⟩ := Option.map_eq_some_iff.mp h
      obtain ⟨r, r', hr, hput', rfl⟩ := Coordinator.put?_cases hput
      exact .write hg hr hput'
    · cases h
  | put ref place octets =>
    obtain ⟨c, hput, rfl⟩ := Option.map_eq_some_iff.mp h
    obtain ⟨r, r', hr, hput', rfl⟩ := Coordinator.put?_cases hput
    exact .put hr hput'

end MemoryUsers

end LanguageHost
