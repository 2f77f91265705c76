import LanguageHost.Proofs.Memory.Ledger
import Mathlib.Algebra.BigOperators.Group.List.Basic
import Mathlib.Algebra.GroupWithZero.Nat
import Mathlib.Data.List.Induction

/-!
# The budget of the shared memory

The regions that have a name, and no others, count towards the usage.  A step of those who use the
memory makes a region that fits, frees one, or leaves the table and the shape of every region as
they are (`Coordinator.Moves`), so the usage is the sum of the sizes of the regions in the table
(`Coordinator.total`), as a number and not only up to a carry, and it never exceeds the limit.

How much can be mapped may change at any time.  Only if the limit is the largest word does it have
to be said that no more is mapped than a word can count.
-/

namespace LanguageHost

/-- What a region says of itself and never changes. -/
def Region.shape (r : Region) : String × UInt64 × ElementType := (r.id, r.size, r.element)

theorem Region.shape_put? {r r' : Region} {place : Nat} {octets : List UInt8}
    (h : r.put? place octets = some r') : r'.shape = r.shape := by
  unfold put? at h
  split at h
  · cases h
    rfl
  · cases h

namespace Coordinator

variable {c c' : Coordinator} {access : Access} {id : String} {ref s : RegionRef} {r : Region}
variable {size : UInt64} {element : ElementType}

/-! ### Shapes -/

theorem shape_declared (access : Access) (r : Region) : (declared access r).shape = r.shape := by
  cases access <;> rfl

theorem shape_withdrawn (access : Access) (r : Region) : (withdrawn access r).shape = r.shape := by
  cases access <;> rfl

/-- The shape of a region. -/
def shape? (c : Coordinator) (ref : RegionRef) : Option (String × UInt64 × ElementType) :=
  (c.region? ref).map Region.shape

theorem shape?_changeRegion {f : Region → Region}
    (hf : ∀ r, c.region? ref = some r → (f r).shape = r.shape) (s : RegionRef) :
    (c.changeRegion ref f).shape? s = c.shape? s := by
  rw [shape?, shape?, region?_changeRegion]
  split
  · next hs =>
    subst hs
    cases hr : c.region? s with
    | none => rfl
    | some r => exact congrArg some (hf r hr)
  · rfl

/-! ### The sum of the sizes -/

/-- The size of a region. -/
def sizeOf (c : Coordinator) (ref : RegionRef) : Nat :=
  ((c.region? ref).map fun r => r.size.toNat).getD 0

/-- The sizes of all regions in the table together. -/
def total (c : Coordinator) : Nat := (c.table.entries.map fun e => c.sizeOf e.2).sum

theorem sizeOf_of_region? (hr : c.region? ref = some r) : c.sizeOf ref = r.size.toNat := by
  rw [sizeOf, hr]
  rfl

theorem sizeOf_of_shape? (h : c'.shape? ref = c.shape? ref) : c'.sizeOf ref = c.sizeOf ref := by
  have hsize : ∀ d : Coordinator, d.sizeOf ref = ((d.shape? ref).map fun s => s.2.1.toNat).getD 0 :=
    fun d => by
      rw [sizeOf, shape?, Option.map_map]
      rfl
  rw [hsize, hsize, h]

theorem total_of_shape? (htable : c'.table = c.table) (h : ∀ ref, c'.shape? ref = c.shape? ref) :
    c'.total = c.total := by
  rw [total, total, htable]
  exact congrArg List.sum (List.map_congr_left fun e _ => sizeOf_of_shape? (h e.2))

/-- A new region adds its size. -/
theorem total_withRegion (hc : c.Sound) (hid : c.table.get? id = none) :
    (c.withRegion id size element).total = c.total + size.toNat := by
  have hnew : (c.withRegion id size element).sizeOf c.made.size = size.toNat := by
    refine sizeOf_of_region? (r := .new id size element) ?_
    rw [region?_withRegion, if_pos rfl]
  have hold : ∀ e ∈ c.table.entries, (c.withRegion id size element).sizeOf e.2 = c.sizeOf e.2 := by
    rintro ⟨k, ref⟩ he
    obtain ⟨ref', hk⟩ := Dict.mem_keys.mp (List.mem_map_of_mem he)
    have hsame : ref' = ref := by
      have hmem := Dict.mem_entries_of_get? hk
      exact congrArg Prod.snd (List.inj_on_of_nodup_map c.table.keys_nodup hmem he rfl)
    obtain ⟨r, hr, -⟩ := hc.tabled k ref (hsame ▸ hk)
    have hne : ref ≠ c.made.size := by
      rintro rfl
      cases hr.symm.trans c.region?_size
    rw [sizeOf, sizeOf, region?_withRegion, if_neg hne]
  calc (c.withRegion id size element).total
      = (((id, c.made.size) :: c.table.entries).map fun e =>
          (c.withRegion id size element).sizeOf e.2).sum :=
        ((Dict.perm_insert hid c.made.size).map _).sum_eq
    _ = size.toNat + c.total := by
        rw [List.map_cons, List.sum_cons, hnew, List.map_congr_left hold]
        rfl
    _ = c.total + size.toNat := Nat.add_comm _ _

/-- A region that loses its name takes its size away. -/
theorem total_withoutName (hid : c.table.get? id = some ref) (hr : c.region? ref = some r) :
    (c.withoutName id r).total + r.size.toNat = c.total := by
  have hperm := ((Dict.perm_erase hid).map fun e => c.sizeOf e.2).sum_eq
  rw [List.map_cons, List.sum_cons, sizeOf_of_region? hr] at hperm
  exact (Nat.add_comm _ _).trans hperm.symm

/-! ### What fits -/

/-- The usage with a size added stays within the limit, and so much can be mapped. -/
structure Fits (c : Coordinator) (size : UInt64) : Prop where
  limit : saturatingAdd c.usage size ≤ c.settings.limit
  signed : size.toNat < Word.half
  space : c.usage.toNat + size.toNat ≤ c.space.size

/-- No more can be mapped than a word can count, unless the limit is smaller than that anyway. -/
def Countable (settings : MemorySettings) (space : AddressSpace) : Prop :=
  settings.limit.toNat = Word.largest → space.size < Word.count

theorem toNat_saturatingAdd (a b : UInt64) :
    (saturatingAdd a b).toNat = min (a.toNat + b.toNat) Word.largest := by
  have hle : min (a.toNat + b.toNat) Word.largest < 2 ^ 64 :=
    Nat.lt_of_le_of_lt (Nat.min_le_right _ _) (by decide)
  simp only [saturatingAdd, Nat.toUInt64_eq, UInt64.toNat_ofNat']
  exact Nat.mod_eq_of_lt hle

namespace Fits

/-- What fits stays within the limit as a number. -/
theorem add_le (h : c.Fits size) (hs : Countable c.settings c.space) :
    c.usage.toNat + size.toNat ≤ c.settings.limit.toNat := by
  have hlimit := UInt64.le_iff_toNat_le.mp h.limit
  have hword : c.settings.limit.toNat < Word.largest + 1 := c.settings.limit.toNat_lt
  rw [toNat_saturatingAdd] at hlimit
  by_cases hmax : c.settings.limit.toNat = Word.largest
  · -- The check says nothing here, but what is mapped can be counted.
    have hspace := Nat.lt_of_le_of_lt h.space (hs hmax)
    rw [← Word.largest_add_one] at hspace
    omega
  · omega

/-- The usage with a size that fits does not wrap. -/
theorem toNat_add (h : c.Fits size) (hs : Countable c.settings c.space) :
    (c.usage + size).toNat = c.usage.toNat + size.toNat := by
  have hword : c.settings.limit.toNat < 2 ^ 64 := c.settings.limit.toNat_lt
  rw [UInt64.toNat_add]
  exact Nat.mod_eq_of_lt (Nat.lt_of_le_of_lt (h.add_le hs) hword)

end Fits

/-- A region that is made fits. -/
theorem fits_of_allocate (h : c.allocate id size element = (.ok ref, c')) : c.Fits size := by
  unfold allocate at h
  split at h
  · cases h
  · split at h
    · cases h
    · next hlimit =>
      split at h
      · cases h
      · next hfault =>
        unfold AddressSpace.fault? at hfault
        split at hfault
        · cases hfault
        · next hsigned =>
          split at hfault
          · cases hfault
          · next hspace =>
            exact ⟨UInt64.not_lt.mp hlimit, Nat.lt_of_not_le hsigned, Nat.le_of_not_lt hspace⟩

/-- A size that a signed length cannot say is never mapped. -/
theorem allocate_of_half_le (c : Coordinator) (id : String) (element : ElementType)
    (h : Word.half ≤ size.toNat) : ∃ e, c.allocate id size element = (.error e, c) := by
  rcases c.allocate_cases id size element with hrefused | ⟨-, hmade⟩
  · exact hrefused
  · exact absurd (fits_of_allocate hmade).signed (Nat.not_lt_of_le h)

/-! ### One step -/

/-- What an event does to the table and to the usage. -/
inductive Moves (c : Coordinator) : MemoryEvent → Coordinator → Prop where
  | made {id : String} {size : UInt64} {element : ElementType} (hid : c.table.get? id = none)
      (hok : c.allocate id size element = (.ok c.made.size, c.withRegion id size element)) :
      c.Moves (.allocate id size element) (c.withRegion id size element)
  | freed {id : String} {ref : RegionRef} {r : Region} (hid : c.table.get? id = some ref)
      (hr : c.region? ref = some r) : c.Moves (.free id) (c.withoutName id r)
  | kept {e : MemoryEvent} {c' : Coordinator} (htable : c'.table = c.table)
      (husage : c'.usage = c.usage) (hsettings : c'.settings = c.settings)
      (hshape : ∀ ref, c'.shape? ref = c.shape? ref) : c.Moves e c'

/-- The usage is the sum of the sizes in the table, and within the limit. -/
structure Balanced (c : Coordinator) : Prop where
  sound : c.Sound
  usage_eq : c.usage.toNat = c.total
  total_le : c.total ≤ c.settings.limit.toNat

/-- Freeing a region takes its size off the usage, which is large enough. -/
theorem Balanced.toNat_sub (h : c.Balanced) (hid : c.table.get? id = some ref)
    (hr : c.region? ref = some r) :
    (c.usage - r.size).toNat + r.size.toNat = c.usage.toNat := by
  have htotal := total_withoutName hid hr
  have husage := h.usage_eq
  have hle : r.size ≤ c.usage := UInt64.le_iff_toNat_le.mpr (by omega)
  rw [UInt64.toNat_sub_of_le _ _ hle]
  omega

/-- Every step keeps the balance. -/
theorem balanced_step {e : MemoryEvent} (h : c.Balanced) (hs : Countable c.settings c.space)
    (hsound : c'.Sound) (hmoves : c.Moves e c') : c'.Balanced := by
  cases hmoves with
  | @made id size element hid hok =>
    have hfits := fits_of_allocate hok
    have htotal : (c.withRegion id size element).total = c.total + size.toNat :=
      total_withRegion h.sound hid
    refine ⟨hsound, ?_, ?_⟩
    · rw [htotal, ← h.usage_eq]
      exact hfits.toNat_add hs
    · rw [htotal, ← h.usage_eq]
      exact hfits.add_le hs
  | freed hid hr =>
    have htotal := total_withoutName hid hr
    have husage := h.toNat_sub hid hr
    refine ⟨hsound, ?_, Nat.le_trans (Nat.le.intro htotal) h.total_le⟩
    rw [h.usage_eq, ← htotal] at husage
    exact Nat.add_right_cancel husage
  | kept htable husage hsettings hshape =>
    have htotal := total_of_shape? htable hshape
    refine ⟨hsound, ?_, ?_⟩
    · rw [htotal, husage]
      exact h.usage_eq
    · rw [htotal, hsettings]
      exact h.total_le

end Coordinator

namespace MemoryUsers

variable {u u' v : MemoryUsers} {e : MemoryEvent} {x : AddressSpace × MemoryEvent}
variable {xs ys : List (AddressSpace × MemoryEvent)} {id : String} {ref : RegionRef} {r : Region}
variable {settings : MemorySettings} {space : AddressSpace}

/-- Every step makes a region that fits, frees one, or leaves the table as it is. -/
theorem moves_of_step (h : u.step e = some u') : u.coordinator.Moves e u'.coordinator := by
  have hoccurs := occurs_of_step h
  cases hoccurs with
  | refused => exact .kept rfl rfl rfl fun _ => rfl
  | @allocate id size element hid =>
    rcases u.coordinator.allocate_cases id size element with ⟨e, hrefused⟩ | ⟨-, hmade⟩
    · -- Had it been refused, there would be as many regions as before.
      simp only [step, hrefused, Option.some.injEq, MemoryUsers.mk.injEq] at h
      have hsize := congrArg (fun c => c.made.size) h.1
      simp [Coordinator.withRegion] at hsize
    · exact .made hid hmade
  | free hid hr _ => exact .freed hid hr
  | acquire =>
    exact .kept rfl rfl rfl
      (Coordinator.shape?_changeRegion fun r _ => Coordinator.shape_declared _ r)
  | release =>
    exact .kept rfl rfl rfl
      (Coordinator.shape?_changeRegion fun r _ => Coordinator.shape_withdrawn _ r)
  | guard =>
    exact .kept rfl rfl rfl
      (Coordinator.shape?_changeRegion fun r _ => Coordinator.shape_declared _ r)
  | drop =>
    exact .kept rfl rfl rfl
      (Coordinator.shape?_changeRegion fun r _ => Coordinator.shape_withdrawn _ r)
  | write _ hr hput =>
    refine .kept rfl rfl rfl (Coordinator.shape?_changeRegion fun q hq => ?_)
    cases hr.symm.trans hq
    exact Region.shape_put? hput
  | put hr hput =>
    refine .kept rfl rfl rfl (Coordinator.shape?_changeRegion fun q hq => ?_)
    cases hr.symm.trans hq
    exact Region.shape_put? hput

/-! ### Attempts -/

theorem attempts_concat (u : MemoryUsers) (xs : List (AddressSpace × MemoryEvent))
    (x : AddressSpace × MemoryEvent) : u.attempts (xs ++ [x]) = (u.attempts xs).attempt x :=
  List.foldl_concat _ _ _ _

/-- An attempt is a step where so much can be mapped, or nothing happens. -/
theorem attempt_cases (u : MemoryUsers) (x : AddressSpace × MemoryEvent) :
    (u.inSpace x.1).step x.2 = some (u.attempt x) ∨ u.attempt x = u.inSpace x.1 := by
  cases h : (u.inSpace x.1).step x.2 with
  | none => exact .inr (by rw [attempt, h, Option.getD_none])
  | some v => exact .inl (by rw [attempt, h, Option.getD_some])

/-- How much can be mapped has no effect on the regions that are there. -/
theorem sound_inSpace (h : u.coordinator.Sound) (space : AddressSpace) :
    (u.inSpace space).coordinator.Sound :=
  ⟨h.tabled, h.used, h.writers_le, h.exclusive⟩

theorem balanced_inSpace (h : u.coordinator.Balanced) (space : AddressSpace) :
    (u.inSpace space).coordinator.Balanced :=
  ⟨sound_inSpace h.sound space, h.usage_eq, h.total_le⟩

theorem settings_attempts (u : MemoryUsers) (xs : List (AddressSpace × MemoryEvent)) :
    (u.attempts xs).coordinator.settings = u.coordinator.settings := by
  induction xs using List.reverseRecOn with
  | nil => rfl
  | append_singleton xs x ih =>
    rw [attempts_concat]
    rcases (u.attempts xs).attempt_cases x with hstep | hnothing
    · exact (settings_step (occurs_of_step hstep)).trans ih
    · rw [hnothing]
      exact ih

/-- Whatever is tried, the usage stays the sum of the sizes in the table. -/
theorem balanced_attempts (hxs : ∀ x ∈ xs, Coordinator.Countable settings x.1) :
    ((start (.new settings space)).attempts xs).coordinator.Balanced := by
  induction xs using List.reverseRecOn with
  | nil => exact ⟨Coordinator.sound_new _ _, rfl, Nat.zero_le _⟩
  | append_singleton xs x ih =>
    have hold := ih fun y hy => hxs y (List.mem_append_left _ hy)
    have hbalanced := balanced_inSpace hold x.1
    rw [attempts_concat]
    rcases ((start (.new settings space)).attempts xs).attempt_cases x with hstep | hnothing
    · have hcount : Coordinator.Countable
          (((start (.new settings space)).attempts xs).inSpace x.1).coordinator.settings x.1 := by
        have hsettings := settings_attempts (start (.new settings space)) xs
        exact hsettings ▸ hxs x (List.mem_append_right _ (List.mem_singleton_self x))
      exact Coordinator.balanced_step hbalanced hcount
        (sound_step hbalanced.sound (occurs_of_step hstep)) (moves_of_step hstep)
    · rw [hnothing]
      exact hbalanced

/-! ### Where regions come from -/

/-- Among these attempts is the one that made a region, with this name, size and type. -/
def MadeBy (u : MemoryUsers) (xs : List (AddressSpace × MemoryEvent)) (ref : RegionRef)
    (shape : String × UInt64 × ElementType) : Prop :=
  ∃ before space after, xs = before ++ (space, .allocate shape.1 shape.2.1 shape.2.2) :: after ∧
    (((u.attempts before).inSpace space).coordinator.allocate shape.1 shape.2.1 shape.2.2).1 =
      .ok ref

theorem MadeBy.concat {shape : String × UInt64 × ElementType} (h : MadeBy u xs ref shape)
    (x : AddressSpace × MemoryEvent) : MadeBy u (xs ++ [x]) ref shape := by
  obtain ⟨before, space, after, rfl, hok⟩ := h
  exact ⟨before, space, after ++ [x], by simp, hok⟩

/-- A region after a step was there before with the same shape, or the step made it. -/
theorem shape?_step (h : u.step e = some u') {shape : String × UInt64 × ElementType}
    (hs : u'.coordinator.shape? ref = some shape) :
    u.coordinator.shape? ref = some shape ∨
      e = .allocate shape.1 shape.2.1 shape.2.2 ∧
        (u.coordinator.allocate shape.1 shape.2.1 shape.2.2).1 = .ok ref := by
  have hmoves := moves_of_step h
  generalize hc : u'.coordinator = c' at hmoves hs
  cases hmoves with
  | made hid hok =>
    rw [Coordinator.shape?, Coordinator.region?_withRegion] at hs
    split at hs
    · next href =>
      cases hs
      exact .inr ⟨rfl, href ▸ congrArg Prod.fst hok⟩
    · exact .inl hs
  | freed => exact .inl hs
  | kept _ _ _ hshape => exact .inl (hshape ref ▸ hs)

/-- Every region has the shape with which it was made. -/
theorem madeBy_attempts {shape : String × UInt64 × ElementType}
    (hs : ((start (.new settings space)).attempts xs).coordinator.shape? ref = some shape) :
    MadeBy (start (.new settings space)) xs ref shape := by
  induction xs using List.reverseRecOn with
  | nil => cases hs
  | append_singleton xs x ih =>
    rw [attempts_concat] at hs
    rcases ((start (.new settings space)).attempts xs).attempt_cases x with hstep | hnothing
    · rcases shape?_step hstep hs with hold | ⟨he, hok⟩
      · exact (ih hold).concat x
      · exact ⟨xs, x.1, [], by rw [← he], hok⟩
    · rw [hnothing] at hs
      exact (ih hs).concat x

/-! ### The usage from the start -/

/-- Whatever is tried with a shared memory, in whichever order, and whatever can be mapped at the
time:  The usage is the sum of the sizes of the regions in the table, within the limit.  What the
region of a name says of itself is what it was made with under that name.  The names are listed in
order, each once, and the reports agree with that.  Neither making nor freeing a region wraps the
usage, and a size that a signed length cannot say is never mapped. -/
theorem usage_of_attempts (hxs : ∀ x ∈ xs, Coordinator.Countable settings x.1)
    (h : (start (.new settings space)).attempts xs = u) :
    (u.coordinator.usage.toNat = u.coordinator.total ∧
      u.coordinator.total ≤ settings.limit.toNat) ∧
    (∀ id ref, u.coordinator.get id = .ok ref → ∃ r, u.coordinator.region? ref = some r ∧
      r.id = id ∧ MadeBy (start (.new settings space)) xs ref r.shape) ∧
    (u.coordinator.ids.Pairwise (· < ·) ∧
      (∀ id, id ∈ u.coordinator.ids ↔ ∃ ref, u.coordinator.get id = .ok ref) ∧
      u.coordinator.stats.regions = u.coordinator.ids.length ∧
      u.coordinator.stats.usage = u.coordinator.usage) ∧
    (∀ now id size element ref c, Coordinator.Countable settings now →
      (u.inSpace now).coordinator.allocate id size element = (.ok ref, c) →
      c.usage.toNat = u.coordinator.usage.toNat + size.toNat) ∧
    (∀ id c, u.coordinator.free id = (.ok (), c) → ∃ ref r, u.coordinator.find id = .ok (ref, r) ∧
      c.usage.toNat + r.size.toNat = u.coordinator.usage.toNat) ∧
    (∀ now id size element, Word.half ≤ size.toNat → ∃ e,
      (u.inSpace now).coordinator.allocate id size element =
        (.error e, (u.inSpace now).coordinator)) := by
  have hsettings : u.coordinator.settings = settings := by
    rw [← h]
    exact settings_attempts _ _
  have hbalanced : u.coordinator.Balanced := h ▸ balanced_attempts hxs
  have hget : ∀ id ref, u.coordinator.get id = .ok ref ↔
      u.coordinator.table.get? id = some ref := by
    intro id ref
    unfold Coordinator.get
    split
    · next hid => simp [hid]
    · next hid => simp [hid]
  rw [Coordinator.ids, Dict.sortedNames_entries]
  refine ⟨⟨hbalanced.usage_eq, hsettings ▸ hbalanced.total_le⟩, ?_,
    ⟨u.coordinator.table.keys_pairwise, ?_, (List.length_map _).symm, rfl⟩, ?_, ?_, ?_⟩
  · intro id ref hid
    obtain ⟨r, hr, hrid⟩ := hbalanced.sound.tabled id ref ((hget id ref).mp hid)
    refine ⟨r, hr, hrid, madeBy_attempts ?_⟩
    rw [h, Coordinator.shape?, hr]
    rfl
  · intro id
    exact Dict.mem_keys.trans (exists_congr fun ref => (hget id ref).symm)
  · intro now id size element ref c hnow hok
    have hfits := Coordinator.fits_of_allocate hok
    rcases (u.inSpace now).coordinator.allocate_cases id size element with
      ⟨e, hrefused⟩ | ⟨-, hmade⟩
    · cases hrefused.symm.trans hok
    · cases hmade.symm.trans hok
      exact hfits.toNat_add (hsettings.symm ▸ hnow)
  · intro id c hok
    rcases u.coordinator.free_cases id with ⟨e, hrefused⟩ | ⟨ref, r, hid, hr, -, hfreed⟩
    · cases hrefused.symm.trans hok
    · cases hfreed.symm.trans hok
      exact ⟨ref, r, Coordinator.find_eq_ok.mpr ⟨hid, hr⟩, hbalanced.toNat_sub hid hr⟩
  · intro now id size element hlarge
    exact (u.inSpace now).coordinator.allocate_of_half_le id element hlarge

/-- Two regions fill what can be mapped, so a third one is refused, until the first one is freed and
its name is used again. -/
theorem usage_of_attempts_when_full :
    ∃ u r, (start (.new { limit := 0xFFFFFFFFFFFFFFFF, rule := .cooperative } .usual)).attempts
        [(.usual, .allocate "a" 0x400000000000 .bytes),
          (.usual, .allocate "b" 0x400000000000 .int32), (.usual, .allocate "c" 1 .bytes),
          (.usual, .free "a"), (.usual, .allocate "a" 3 .text)] = u ∧
      u.coordinator.usage.toNat = u.coordinator.total ∧
      u.coordinator.total = 0x400000000003 ∧ u.coordinator.ids = ["a", "b"] ∧
      u.coordinator.get "a" = .ok 2 ∧ u.coordinator.region? 2 = some r ∧ r.id = "a" := by
  let settings : MemorySettings := { limit := 0xFFFFFFFFFFFFFFFF, rule := .cooperative }
  let xs : List (AddressSpace × MemoryEvent) :=
    [(.usual, .allocate "a" 0x400000000000 .bytes), (.usual, .allocate "b" 0x400000000000 .int32),
      (.usual, .allocate "c" 1 .bytes), (.usual, .free "a"), (.usual, .allocate "a" 3 .text)]
  let u := (start (.new settings .usual)).attempts xs
  have hxs : ∀ x ∈ xs, Coordinator.Countable settings x.1 := by
    intro x hx _
    have husual : x.1 = .usual := by
      simp only [xs, List.mem_cons, List.not_mem_nil, or_false] at hx
      rcases hx with rfl | rfl | rfl | rfl | rfl <;> rfl
    rw [husual]
    decide
  obtain ⟨⟨husage, -⟩, hregions, -, -, -, -⟩ := usage_of_attempts (u := u) hxs rfl
  have htable : u.coordinator.table.get? "a" = some 2 := by decide +kernel
  have hget : u.coordinator.get "a" = .ok 2 := by rw [Coordinator.get, htable]
  obtain ⟨r, hr, hid, -⟩ := hregions "a" 2 hget
  exact ⟨u, r, rfl, husage, by decide +kernel, by decide +kernel, hget, hr, hid⟩

end MemoryUsers

end LanguageHost
