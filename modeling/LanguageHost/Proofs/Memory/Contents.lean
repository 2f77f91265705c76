import LanguageHost.Proofs.Memory.Refusals

/-!
# The contents of regions

A region is mapped as a buffer of at least one octet, of which those up to its size can be seen.
What is written overwrites the buffer in place (`Region.buffer`), and `Region.contents` is the part
that can be seen.

Several of those who use the memory may have the same region: through its name, through guards, or
because they kept it.  Whatever they try, each octet of a region is the one that the last of the
attempts wrote there that wrote to that place of that very region, and zero if there was none
(`octets_of_attempts`).  Which region a guard writes to is decided when it is made, so a name that
is used again makes no difference to it.
-/

namespace LanguageHost

namespace Region

variable {r r' : Region} {place : Nat} {octets : List UInt8}

/-- Writes octets over those of a buffer. -/
def overwrite (p : Patch) (buffer : List UInt8) : List UInt8 :=
  buffer.mapIdx fun i b => (p.octet? i).getD b

/-- The octets that are mapped for a region: one at least, all zero at first, with everything that
was written over them. -/
def buffer (r : Region) : List UInt8 :=
  r.patches.foldr overwrite (List.replicate (max r.size.toNat 1) 0)

theorem length_buffer (r : Region) : r.buffer.length = max r.size.toNat 1 := by
  unfold buffer
  induction r.patches with
  | nil => exact List.length_replicate
  | cons p patches ih => rw [List.foldr_cons, overwrite, List.length_mapIdx, ih]

/-- In every place of the buffer is what was written there last. -/
theorem getElem?_buffer {i : Nat} (hi : i < max r.size.toNat 1) :
    r.buffer[i]? = some (r.octet i) := by
  unfold buffer octet lastWritten
  induction r.patches with
  | nil => simp [hi]
  | cons p patches ih =>
    rw [List.foldr_cons, overwrite, List.getElem?_mapIdx, ih, List.findSome?_cons]
    cases p.octet? i <;> rfl

theorem getElem?_contents (r : Region) (i : Nat) :
    r.contents[i]? = if i < r.size.toNat then some (r.octet i) else none := by
  rw [contents, List.getElem?_map]
  split
  · next hi => rw [List.getElem?_range hi]; rfl
  · next hi => rw [List.getElem?_eq_none (by simpa using hi)]; rfl

/-- What can be seen of a region is the buffer up to the size. -/
theorem take_buffer (r : Region) : r.buffer.take r.size.toNat = r.contents := by
  refine List.ext_getElem? fun i => ?_
  rw [List.getElem?_take, getElem?_contents]
  split
  · next hi => exact getElem?_buffer (Nat.lt_of_lt_of_le hi (Nat.le_max_left _ _))
  · rfl

theorem contents_new (id : String) (size : UInt64) (element : ElementType) :
    (new id size element).contents = List.replicate size.toNat 0 := by
  refine List.eq_replicate_iff.mpr ⟨contents_length _, fun b hb => ?_⟩
  obtain ⟨i, -, rfl⟩ := List.mem_map.mp hb
  rfl

/-- A region in which as much can be written as it has octets is what it was with one patch more. -/
theorem put?_of_le (h : place + octets.length ≤ r.size.toNat) :
    r.put? place octets = some { r with patches := ⟨place, octets⟩ :: r.patches } := if_pos h

theorem le_of_put? (h : r.put? place octets = some r') :
    place + octets.length ≤ r.size.toNat := by
  unfold put? at h
  split at h
  · assumption
  · cases h

end Region

namespace Coordinator

variable {c c' : Coordinator} {ref : RegionRef} {r : Region} {id : String}

theorem region?_eq_some_iff : (∃ r, c.region? ref = some r) ↔ ref < c.made.size := by
  rw [← Option.isSome_iff_exists, region?, isSome_getElem?]

theorem size_changeRegion (c : Coordinator) (ref : RegionRef) (f : Region → Region) :
    (c.changeRegion ref f).made.size = c.made.size := Array.size_modify

/-- A region that was not there before a change of another one is not there after it. -/
theorem region?_changeRegion_eq_none {s : RegionRef} {f : Region → Region}
    (hs : c.region? s = none) : (c.changeRegion ref f).region? s = none := by
  rw [region?_changeRegion, hs]
  exact ite_self _

theorem contents?_of_region? (hr : c.region? ref = some r) : c.contents? ref = some r.contents := by
  rw [contents?, hr]
  rfl

end Coordinator

namespace MemoryUsers

variable {u u' : MemoryUsers} {e : MemoryEvent} {x : AddressSpace × MemoryEvent}
variable {xs ys : List (AddressSpace × MemoryEvent)} {ref : RegionRef} {r : Region}
variable {place i : Nat} {octets : List UInt8} {b : UInt8} {settings : MemorySettings}
variable {space : AddressSpace}

/-! ### Writing -/

/-- What is read through a guard, as long as it is alive. -/
def read? (u : MemoryUsers) (n : Nat) : Option (List UInt8) :=
  (u.guard? n).bind fun g => u.coordinator.contents? g.region

/-- An event writes octets from a place of a region on, where they fit: somebody has the region, or
a guard for writing to it that is alive. -/
def WritesInto (u : MemoryUsers) (e : MemoryEvent) (ref : RegionRef) (place : Nat)
    (octets : List UInt8) : Prop :=
  (e = .put ref place octets ∨ ∃ n, e = .write n place octets ∧ u.guard? n = some ⟨ref, .write⟩) ∧
    ∃ r, u.coordinator.region? ref = some r ∧ place + octets.length ≤ r.size.toNat

/-- An event writes an octet in a place of a region. -/
def Writes (u : MemoryUsers) (e : MemoryEvent) (ref : RegionRef) (i : Nat) (b : UInt8) : Prop :=
  ∃ place octets, u.WritesInto e ref place octets ∧ place ≤ i ∧ octets[i - place]? = some b

/-- None of these attempts writes in a place of a region. -/
def Untouched (u : MemoryUsers) (xs : List (AddressSpace × MemoryEvent)) (ref : RegionRef)
    (i : Nat) : Prop :=
  ∀ before x after, xs = before ++ x :: after → ∀ b, ¬ (u.attempts before).Writes x.2 ref i b

/-- The octet that was written last in a place of a region, and zero if there was none. -/
def LastWritten (u : MemoryUsers) (xs : List (AddressSpace × MemoryEvent)) (ref : RegionRef)
    (i : Nat) (b : UInt8) : Prop :=
  (∃ before x after, xs = before ++ x :: after ∧ (u.attempts before).Writes x.2 ref i b ∧
    (u.attempts (before ++ [x])).Untouched after ref i) ∨ b = 0 ∧ u.Untouched xs ref i

/-- What fits is written. -/
theorem step_of_writesInto (h : u.WritesInto e ref place octets) :
    ∃ r, u.coordinator.region? ref = some r ∧
      u.step e = some { u with coordinator := u.coordinator.changeRegion ref fun _ =>
        { r with patches := ⟨place, octets⟩ :: r.patches } } := by
  obtain ⟨he, r, hr, hfits⟩ := h
  have hput : u.coordinator.put? ref place octets =
      some (u.coordinator.changeRegion ref fun _ =>
        { r with patches := ⟨place, octets⟩ :: r.patches }) := by
    simp only [Coordinator.put?, hr, Option.bind_eq_bind, Option.bind_some, Region.put?_of_le hfits]
    rfl
  refine ⟨r, hr, ?_⟩
  rcases he with rfl | ⟨n, rfl, hguard⟩
  · rw [step, hput]
    rfl
  · simp only [step, hguard, hput, Option.map_some]

/-- A step that does not write into a region leaves its octets as they are. -/
theorem contents?_step (hr : u.coordinator.region? ref = some r) (ho : u.Occurs e u')
    (h : ∀ place octets, ¬ u.WritesInto e ref place octets) :
    u'.coordinator.contents? ref = u.coordinator.contents? ref := by
  cases ho with
  | refused => rfl
  | allocate => exact Coordinator.contents?_withRegion hr _ _ _
  | free => rfl
  | acquire => exact Coordinator.contents?_changeRegion fun _ => Coordinator.contents_declared _
  | release => exact Coordinator.contents?_changeRegion fun _ => Coordinator.contents_withdrawn _
  | guard => exact Coordinator.contents?_changeRegion fun _ => Coordinator.contents_declared _
  | drop => exact Coordinator.contents?_changeRegion fun _ => Coordinator.contents_withdrawn _
  | @write n place octets s q q' hg hq hput =>
    refine Coordinator.contents?_changeRegion fun heq => ?_
    subst heq
    exact absurd ⟨.inr ⟨n, rfl, hg⟩, q, hq, Region.le_of_put? hput⟩ (h place octets)
  | @put s place octets q q' hq hput =>
    refine Coordinator.contents?_changeRegion fun heq => ?_
    subst heq
    exact absurd ⟨.inl rfl, q, hq, Region.le_of_put? hput⟩ (h place octets)

theorem contents?_attempt (hr : u.coordinator.region? ref = some r)
    (h : ∀ place octets, ¬ u.WritesInto x.2 ref place octets) :
    (u.attempt x).coordinator.contents? ref = u.coordinator.contents? ref := by
  rcases u.attempt_cases x with hstep | hnothing
  · exact contents?_step (u := u.inSpace x.1) hr (occurs_of_step hstep) h
  · rw [hnothing]
    rfl

/-- What is written is in its places afterwards, the other octets of the region are as before. -/
theorem octet_attempt (h : u.WritesInto x.2 ref place octets) :
    ∃ r r', u.coordinator.region? ref = some r ∧ (u.attempt x).coordinator.region? ref = some r' ∧
      r'.size = r.size ∧ ∀ i, r'.octet i =
        if place ≤ i then (octets[i - place]?).getD (r.octet i) else r.octet i := by
  have hspace : (u.inSpace x.1).WritesInto x.2 ref place octets := h
  obtain ⟨-, q, hq, hfits⟩ := h
  obtain ⟨r, hr, hstep⟩ := step_of_writesInto hspace
  have hsame : r = q := Option.some.inj (hr.symm.trans hq)
  subst hsame
  refine ⟨r, { r with patches := ⟨place, octets⟩ :: r.patches }, hq, ?_, rfl,
    Region.octet_put (Region.put?_of_le hfits)⟩
  rw [attempt, hstep, Option.getD_some, Coordinator.region?_changeRegion, if_pos rfl, hr]
  rfl

/-! ### Regions stay -/

theorem size_made_step (ho : u.Occurs e u') :
    u.coordinator.made.size ≤ u'.coordinator.made.size := by
  have hchanged : ∀ s f, u.coordinator.made.size ≤
      (u.coordinator.changeRegion s f).made.size := fun s f =>
    Nat.le_of_eq (Coordinator.size_changeRegion _ s f).symm
  cases ho with
  | refused => exact Nat.le_refl _
  | allocate => exact Nat.le_of_lt (Array.size_push _ ▸ Nat.lt_succ_self _)
  | free => exact Nat.le_refl _
  | acquire => exact hchanged _ _
  | release => exact hchanged _ _
  | guard => exact hchanged _ _
  | drop => exact hchanged _ _
  | write => exact hchanged _ _
  | put => exact hchanged _ _

theorem size_made_attempt (u : MemoryUsers) (x : AddressSpace × MemoryEvent) :
    u.coordinator.made.size ≤ (u.attempt x).coordinator.made.size := by
  rcases u.attempt_cases x with hstep | hnothing
  · exact size_made_step (u := u.inSpace x.1) (occurs_of_step hstep)
  · rw [hnothing]
    exact Nat.le_refl _

theorem size_made_attempts (u : MemoryUsers) (xs : List (AddressSpace × MemoryEvent)) :
    u.coordinator.made.size ≤ (u.attempts xs).coordinator.made.size := by
  induction xs using List.reverseRecOn with
  | nil => exact Nat.le_refl _
  | append_singleton xs x ih =>
    rw [attempts_concat]
    exact Nat.le_trans ih (size_made_attempt _ x)

/-- A region that is there after a step, and was not before, was made by it. -/
theorem new_of_step (ho : u.Occurs e u') (hnone : u.coordinator.region? ref = none)
    (hr : u'.coordinator.region? ref = some r) :
    ∃ id size element, e = .allocate id size element ∧ r = .new id size element := by
  have hchanged : ∀ s f, (u.coordinator.changeRegion s f).region? ref ≠ some r := fun s f hs => by
    cases (Coordinator.region?_changeRegion_eq_none hnone).symm.trans hs
  cases ho with
  | refused => cases hnone.symm.trans hr
  | @allocate id size element hid =>
    rw [Coordinator.region?_withRegion] at hr
    split at hr
    · cases hr
      exact ⟨id, size, element, rfl, rfl⟩
    · cases hnone.symm.trans hr
  | free => cases hnone.symm.trans hr
  | acquire => exact absurd hr (hchanged _ _)
  | release => exact absurd hr (hchanged _ _)
  | guard => exact absurd hr (hchanged _ _)
  | drop => exact absurd hr (hchanged _ _)
  | write => exact absurd hr (hchanged _ _)
  | put => exact absurd hr (hchanged _ _)

/-! ### The last write -/

/-- An event writes the same octets wherever it is said to write into a region. -/
theorem WritesInto.unique {place' : Nat} {octets' : List UInt8}
    (h : u.WritesInto e ref place octets) (h' : u.WritesInto e ref place' octets') :
    place' = place ∧ octets' = octets := by
  obtain ⟨rfl | ⟨n, rfl, -⟩, -⟩ := h
  · obtain ⟨he | ⟨n', he, -⟩, -⟩ := h'
    · cases he
      exact ⟨rfl, rfl⟩
    · cases he
  · obtain ⟨he | ⟨n', he, -⟩, -⟩ := h'
    · cases he
    · cases he
      exact ⟨rfl, rfl⟩

theorem untouched_nil (u : MemoryUsers) (ref : RegionRef) (i : Nat) : u.Untouched [] ref i := by
  intro before x after hsplit
  cases before with
  | nil => cases hsplit
  | cons y before => cases hsplit

theorem untouched_concat : u.Untouched (xs ++ [x]) ref i ↔
    u.Untouched xs ref i ∧ ∀ b, ¬ (u.attempts xs).Writes x.2 ref i b := by
  constructor
  · intro h
    refine ⟨?_, h xs x [] rfl⟩
    rintro before y after rfl
    exact h before y (after ++ [x]) (by simp)
  · rintro ⟨hold, hlast⟩ before y after hsplit
    rcases List.eq_nil_or_concat after with rfl | ⟨after, z, rfl⟩
    · obtain ⟨rfl, hyx⟩ := List.append_inj' hsplit rfl
      cases hyx
      exact hlast
    · rw [List.concat_eq_append, ← List.cons_append, ← List.append_assoc] at hsplit
      obtain ⟨rfl, -⟩ := List.append_inj' hsplit rfl
      exact hold before y after rfl

/-- An event writes one octet in a place. -/
theorem Writes.unique {b' : UInt8} (h : u.Writes e ref i b) (h' : u.Writes e ref i b') :
    b' = b := by
  obtain ⟨place, octets, hw, -, hb⟩ := h
  obtain ⟨place', octets', hw', -, hb'⟩ := h'
  obtain ⟨rfl, rfl⟩ := hw.unique hw'
  exact Option.some.inj (hb'.symm.trans hb)

theorem attempts_append (u : MemoryUsers) (xs ys : List (AddressSpace × MemoryEvent)) :
    u.attempts (xs ++ ys) = (u.attempts xs).attempts ys := List.foldl_append

/-- What was written last is what the last attempt writes, and where it writes nothing, what was
written last before it. -/
theorem lastWritten_concat : u.LastWritten (xs ++ [x]) ref i b ↔
    (u.attempts xs).Writes x.2 ref i b ∨
      (∀ b', ¬ (u.attempts xs).Writes x.2 ref i b') ∧ u.LastWritten xs ref i b := by
  constructor
  · rintro (⟨before, y, after, hsplit, hwrites, hafter⟩ | ⟨rfl, hnone⟩)
    · rcases List.eq_nil_or_concat after with rfl | ⟨after, z, rfl⟩
      · obtain ⟨rfl, hyx⟩ := List.append_inj' hsplit rfl
        cases hyx
        exact .inl hwrites
      · rw [List.concat_eq_append] at hsplit hafter
        rw [← List.cons_append, ← List.append_assoc] at hsplit
        obtain ⟨rfl, hzx⟩ := List.append_inj' hsplit rfl
        cases hzx
        obtain ⟨hmid, hlast⟩ := untouched_concat.mp hafter
        rw [← attempts_append, List.append_assoc, List.singleton_append] at hlast
        exact .inr ⟨hlast, .inl ⟨before, y, after, rfl, hwrites, hmid⟩⟩
    · obtain ⟨hold, hlast⟩ := untouched_concat.mp hnone
      exact .inr ⟨hlast, .inr ⟨rfl, hold⟩⟩
  · rintro (hwrites | ⟨hlast, ⟨before, y, after, rfl, hwrites, hafter⟩ | ⟨rfl, hnone⟩⟩)
    · exact .inl ⟨xs, x, [], rfl, hwrites, untouched_nil _ _ _⟩
    · refine .inl ⟨before, y, after ++ [x], by simp, hwrites, untouched_concat.mpr ⟨hafter, ?_⟩⟩
      rw [← attempts_append, List.append_assoc, List.singleton_append]
      exact hlast
    · exact .inr ⟨rfl, untouched_concat.mpr ⟨hnone, hlast⟩⟩

/-- One octet was written last in a place. -/
theorem LastWritten.unique {b' : UInt8} (h : u.LastWritten xs ref i b)
    (h' : u.LastWritten xs ref i b') : b' = b := by
  induction xs using List.reverseRecOn with
  | nil =>
    rcases h with ⟨before, y, after, hsplit, -⟩ | ⟨rfl, -⟩
    · simp at hsplit
    · rcases h' with ⟨before, y, after, hsplit, -⟩ | ⟨rfl, -⟩
      · simp at hsplit
      · rfl
  | append_singleton xs x ih =>
    rcases lastWritten_concat.mp h with hw | ⟨hnone, hold⟩
    · rcases lastWritten_concat.mp h' with hw' | ⟨hnone', -⟩
      · exact hw.unique hw'
      · exact absurd hw (hnone' b)
    · rcases lastWritten_concat.mp h' with hw' | ⟨-, hold'⟩
      · exact absurd hw' (hnone b')
      · exact ih hold hold'

/-- A region that was not made yet was not written to. -/
theorem untouched_of_region? (h : (u.attempts xs).coordinator.region? ref = none) (i : Nat) :
    u.Untouched xs ref i := by
  rintro before x after rfl b ⟨place, octets, ⟨-, r, hr, -⟩, -⟩
  have hlt := Coordinator.region?_eq_some_iff.mp ⟨r, hr⟩
  have hle := size_made_attempts (u.attempts before) (x :: after)
  rw [← attempts_append] at hle
  obtain ⟨q, hq⟩ := Coordinator.region?_eq_some_iff.mpr (Nat.lt_of_lt_of_le hlt hle)
  cases h.symm.trans hq

/-- If the octets of a region are those that were written last, they are so after one more
attempt. -/
theorem lastWritten_attempt {q : Region} (hq : (u.attempts xs).coordinator.region? ref = some q)
    (hlast : ∀ i b, q.contents[i]? = some b → u.LastWritten xs ref i b)
    (hr : ((u.attempts xs).attempt x).coordinator.region? ref = some r)
    (hb : r.contents[i]? = some b) : u.LastWritten (xs ++ [x]) ref i b := by
  by_cases hw : ∃ place octets, (u.attempts xs).WritesInto x.2 ref place octets
  · obtain ⟨place, octets, hw⟩ := hw
    obtain ⟨q', r', hq', hr', hsize, hoctet⟩ := octet_attempt hw
    cases hq'.symm.trans hq
    cases hr'.symm.trans hr
    rw [Region.getElem?_contents, hsize] at hb
    split at hb
    · next hi =>
      cases hb
      have hkept : q.contents[i]? = some (q.octet i) := by rw [Region.getElem?_contents, if_pos hi]
      rw [hoctet]
      split
      · next hplace =>
        cases hat : octets[i - place]? with
        | some b' => exact lastWritten_concat.mpr (.inl ⟨place, octets, hw, hplace, hat⟩)
        | none =>
          refine lastWritten_concat.mpr (.inr ⟨?_, hlast i _ hkept⟩)
          rintro b' ⟨place', octets', hw', -, hb'⟩
          obtain ⟨rfl, rfl⟩ := hw.unique hw'
          cases hat.symm.trans hb'
      · next hplace =>
        refine lastWritten_concat.mpr (.inr ⟨?_, hlast i _ hkept⟩)
        rintro b' ⟨place', octets', hw', hplace', -⟩
        obtain ⟨rfl, rfl⟩ := hw.unique hw'
        exact hplace hplace'
    · cases hb
  · have hsame := contents?_attempt hq fun place octets h => hw ⟨place, octets, h⟩
    rw [Coordinator.contents?_of_region? hr, Coordinator.contents?_of_region? hq] at hsame
    rw [Option.some.inj hsame] at hb
    refine lastWritten_concat.mpr (.inr ⟨?_, hlast i b hb⟩)
    rintro b' ⟨place, octets, h, -⟩
    exact hw ⟨place, octets, h⟩

/-- Whatever is tried, every octet of every region is the one that was written there last. -/
theorem lastWritten_attempts (xs : List (AddressSpace × MemoryEvent))
    (hr : ((start (.new settings space)).attempts xs).coordinator.region? ref = some r)
    (hb : r.contents[i]? = some b) : (start (.new settings space)).LastWritten xs ref i b := by
  induction xs using List.reverseRecOn generalizing r i b with
  | nil => cases hr
  | append_singleton xs x ih =>
    rw [attempts_concat] at hr
    cases hq : ((start (.new settings space)).attempts xs).coordinator.region? ref with
    | some q => exact lastWritten_attempt hq (fun i b => ih hq) hr hb
    | none =>
      -- The region is new, so nothing was written to it.
      rcases ((start (.new settings space)).attempts xs).attempt_cases x with hstep | hnothing
      · obtain ⟨id, size, element, -, rfl⟩ := new_of_step (occurs_of_step hstep) hq hr
        rw [Region.getElem?_contents] at hb
        split at hb
        · refine .inr ⟨(Option.some.inj hb).symm, untouched_concat.mpr
            ⟨untouched_of_region? hq i, ?_⟩⟩
          rintro b' ⟨place, octets, ⟨-, q, hq', -⟩, -⟩
          cases hq.symm.trans hq'
        · cases hb
      · rw [hnothing] at hr
        cases hq.symm.trans hr

/-! ### What is mentioned was made -/

/-- Every region that is mentioned was made, and every guard has a number that was given. -/
structure Grounded (u : MemoryUsers) : Prop where
  table : ∀ id ref, u.coordinator.table.get? id = some ref → ref < u.coordinator.made.size
  guards : ∀ g ∈ u.guards, g.2.region < u.coordinator.made.size
  numbers : ∀ g ∈ u.guards, g.1 < u.opened
  declarations : ∀ d ∈ u.declarations, d.1 < u.coordinator.made.size
  withdrawals : ∀ d ∈ u.withdrawals, d.1 < u.coordinator.made.size

theorem grounded_step (h : u.Grounded) (ho : u.Occurs e u') : u'.Grounded := by
  have hsize := size_made_step ho
  have hmade : ∀ {s}, s < u.coordinator.made.size → s < u'.coordinator.made.size := fun hs =>
    Nat.lt_of_lt_of_le hs hsize
  have hguards : ∀ g ∈ u.guards, g.2.region < u'.coordinator.made.size := fun g hg =>
    hmade (h.guards g hg)
  have hdeclarations : ∀ d ∈ u.declarations, d.1 < u'.coordinator.made.size := fun d hd =>
    hmade (h.declarations d hd)
  have hwithdrawals : ∀ d ∈ u.withdrawals, d.1 < u'.coordinator.made.size := fun d hd =>
    hmade (h.withdrawals d hd)
  cases ho with
  | refused => exact h
  | @allocate id size element _ =>
    refine ⟨fun k s hk => ?_, hguards, h.numbers, hdeclarations, hwithdrawals⟩
    simp only [Coordinator.withRegion, Dict.get?_insert] at hk
    split at hk
    · cases hk
      exact Array.size_push _ ▸ Nat.lt_succ_self _
    · exact hmade (h.table k s hk)
  | free =>
    refine ⟨fun k s hk => ?_, hguards, h.numbers, hdeclarations, hwithdrawals⟩
    simp only [Coordinator.withoutName, Dict.get?_erase] at hk
    split at hk
    · cases hk
    · exact h.table k s hk
  | acquire hid =>
    exact ⟨fun k s hk => hmade (h.table k s hk), hguards, h.numbers,
      List.forall_mem_cons.mpr ⟨hmade (h.table _ _ hid), hdeclarations⟩, hwithdrawals⟩
  | release hid =>
    exact ⟨fun k s hk => hmade (h.table k s hk), hguards, h.numbers, hdeclarations,
      List.forall_mem_cons.mpr ⟨hmade (h.table _ _ hid), hwithdrawals⟩⟩
  | guard hid =>
    exact ⟨fun k s hk => hmade (h.table k s hk),
      List.forall_mem_cons.mpr ⟨hmade (h.table _ _ hid), hguards⟩,
      List.forall_mem_cons.mpr ⟨Nat.lt_succ_self _, fun g hg => Nat.lt_succ_of_lt (h.numbers g hg)⟩,
      hdeclarations, hwithdrawals⟩
  | drop =>
    exact ⟨fun k s hk => hmade (h.table k s hk), fun g hg => hguards g (List.mem_filter.mp hg).1,
      fun g hg => h.numbers g (List.mem_filter.mp hg).1, hdeclarations, hwithdrawals⟩
  | write =>
    exact ⟨fun k s hk => hmade (h.table k s hk), hguards, h.numbers, hdeclarations, hwithdrawals⟩
  | put =>
    exact ⟨fun k s hk => hmade (h.table k s hk), hguards, h.numbers, hdeclarations, hwithdrawals⟩

theorem grounded_inSpace (h : u.Grounded) (space : AddressSpace) : (u.inSpace space).Grounded :=
  ⟨h.table, h.guards, h.numbers, h.declarations, h.withdrawals⟩

theorem grounded_attempts (xs : List (AddressSpace × MemoryEvent)) :
    ((start (.new settings space)).attempts xs).Grounded := by
  induction xs using List.reverseRecOn with
  | nil => exact ⟨nofun, nofun, nofun, nofun, nofun⟩
  | append_singleton xs x ih =>
    have hspace := grounded_inSpace ih x.1
    rw [attempts_concat]
    rcases ((start (.new settings space)).attempts xs).attempt_cases x with hstep | hnothing
    · exact grounded_step hspace (occurs_of_step hstep)
    · rw [hnothing]
      exact hspace

/-! ### The octets of all regions -/

/-- Whatever is tried with a shared memory, by whomever, and for every region that was ever made,
whether it still has its name or not:  It has as many octets as it was made with, and each of them
is the one that the last of the attempts wrote there which wrote to this very region, or zero.  They
are the first ones of the buffer that is mapped for the region, and what is read through any guard
for it.  A region that is made is none of those that were there, of which somebody may still have
one or hold a guard for it, and begins with zeros; all other octets stay, as they do with everything
else but a write that fits into the region. -/
theorem octets_of_attempts (h : (start (.new settings space)).attempts xs = u) :
    (∀ ref r, u.coordinator.region? ref = some r →
      (MadeBy (start (.new settings space)) xs ref r.shape ∧ r.contents.length = r.size.toNat) ∧
      (∀ i b, r.contents[i]? = some b ↔
        i < r.size.toNat ∧ (start (.new settings space)).LastWritten xs ref i b) ∧
      (r.buffer.length = max r.size.toNat 1 ∧ r.contents = r.buffer.take r.size.toNat) ∧
      ∀ n g, u.guard? n = some g → g.region = ref → u.read? n = some r.contents) ∧
    (∀ now id size element ref c,
      (u.inSpace now).coordinator.allocate id size element = (.ok ref, c) →
      (u.coordinator.region? ref = none ∧ ∀ n g, u.guard? n = some g → g.region ≠ ref) ∧
      c.contents? ref = some (List.replicate size.toNat 0) ∧
      ∀ s, s ≠ ref → c.contents? s = u.coordinator.contents? s) ∧
    ∀ x ref r, u.coordinator.region? ref = some r →
      (∀ place octets, ¬ u.WritesInto x.2 ref place octets) →
      (u.attempt x).coordinator.contents? ref = some r.contents := by
  refine ⟨fun ref r hr => ⟨⟨?_, r.contents_length⟩, fun i b => ?_,
    ⟨r.length_buffer, r.take_buffer.symm⟩, ?_⟩, ?_, ?_⟩
  · refine madeBy_attempts ?_
    rw [h, Coordinator.shape?, hr]
    rfl
  · have hlast : ∀ b, r.contents[i]? = some b →
        (start (.new settings space)).LastWritten xs ref i b := fun b =>
      lastWritten_attempts xs (h.symm ▸ hr)
    constructor
    · intro hb
      refine ⟨?_, hlast b hb⟩
      rw [← r.contents_length]
      exact (List.getElem?_eq_some_iff.mp hb).1
    · rintro ⟨hi, hwritten⟩
      have hb : r.contents[i]? = some (r.octet i) := by rw [Region.getElem?_contents, if_pos hi]
      rw [hb, (hlast _ hb).unique hwritten]
  · rintro n g hg rfl
    rw [read?, hg, Option.bind_some]
    exact Coordinator.contents?_of_region? hr
  · intro now id size element ref c hok
    obtain ⟨-, rfl, rfl⟩ := Coordinator.made_of_allocate hok
    refine ⟨⟨u.coordinator.region?_size, fun n g hg href => ?_⟩, ?_, fun s hs => ?_⟩
    · have hu : u.Grounded := h ▸ grounded_attempts xs
      exact Nat.lt_irrefl _ (href ▸ hu.guards _ (mem_of_guard? hg))
    · rw [Coordinator.contents?, Coordinator.region?_withRegion, if_pos rfl, Option.map_some,
        Region.contents_new]
    · rw [Coordinator.contents?, Coordinator.region?_withRegion, if_neg hs]
      rfl
  · intro x ref r hr hx
    rw [contents?_attempt hr hx]
    exact Coordinator.contents?_of_region? hr

/-- A region loses its name while a guard for it is alive, and the name is used again.  What is
written through the guard, and by somebody who kept the region, is in the old region, and the new
one has what is written to it; a region of no octets is mapped all the same. -/
theorem octets_of_attempts_after_reuse :
    ∃ u old new empty, (start (.new { limit := 64, rule := .exclusive } .usual)).attempts
        [(.usual, .allocate "a" 2 .bytes), (.usual, .guard .write "a"),
          (.usual, .release .write "a"), (.usual, .free "a"), (.usual, .allocate "a" 3 .bytes),
          (.usual, .write 0 0 [7, 7]), (.usual, .put 1 2 [9]), (.usual, .put 0 1 [5]),
          (.usual, .allocate "b" 0 .bytes)] = u ∧
      u.coordinator.region? 0 = some old ∧ u.coordinator.region? 1 = some new ∧
      u.coordinator.region? 2 = some empty ∧ u.coordinator.get "a" = .ok 1 ∧
      old.contents = [7, 5] ∧ u.read? 0 = some [7, 5] ∧
      (start (.new { limit := 64, rule := .exclusive } .usual)).LastWritten
        [(.usual, .allocate "a" 2 .bytes), (.usual, .guard .write "a"),
          (.usual, .release .write "a"), (.usual, .free "a"), (.usual, .allocate "a" 3 .bytes),
          (.usual, .write 0 0 [7, 7]), (.usual, .put 1 2 [9]), (.usual, .put 0 1 [5]),
          (.usual, .allocate "b" 0 .bytes)] 1 0 0 ∧
      new.contents = [0, 0, 9] ∧ empty.contents = [] ∧ empty.buffer.length = 1 := by
  let settings : MemorySettings := { limit := 64, rule := .exclusive }
  let xs : List (AddressSpace × MemoryEvent) :=
    [(.usual, .allocate "a" 2 .bytes), (.usual, .guard .write "a"),
      (.usual, .release .write "a"), (.usual, .free "a"), (.usual, .allocate "a" 3 .bytes),
      (.usual, .write 0 0 [7, 7]), (.usual, .put 1 2 [9]), (.usual, .put 0 1 [5]),
      (.usual, .allocate "b" 0 .bytes)]
  let u := (start (.new settings .usual)).attempts xs
  let old := (u.coordinator.region? 0).get (by decide +kernel)
  have hold : u.coordinator.region? 0 = some old := (Option.some_get _).symm
  let new := (u.coordinator.region? 1).get (by decide +kernel)
  have hnew : u.coordinator.region? 1 = some new := (Option.some_get _).symm
  let empty := (u.coordinator.region? 2).get (by decide +kernel)
  have hempty : u.coordinator.region? 2 = some empty := (Option.some_get _).symm
  have hu : (start (.new settings .usual)).attempts xs = u := rfl
  obtain ⟨hregions, -, -⟩ := octets_of_attempts hu
  obtain ⟨-, -, -, hread⟩ := hregions 0 old hold
  obtain ⟨-, hnewOctets, -, -⟩ := hregions 1 new hnew
  obtain ⟨-, -, ⟨hlength, -⟩, -⟩ := hregions 2 empty hempty
  have holdContents : old.contents = [7, 5] := by decide +kernel
  have hnewContents : new.contents = [0, 0, 9] := by decide +kernel
  have hzero : empty.size.toNat = 0 := by decide +kernel
  have hname : u.coordinator.table.get? "a" = some 1 := by decide +kernel
  refine ⟨u, old, new, empty, rfl, hold, hnew, hempty, by rw [Coordinator.get, hname],
    holdContents, ?_, ((hnewOctets 0 0).mp ?_).2, hnewContents, by decide +kernel, ?_⟩
  · rw [hread 0 ⟨0, .write⟩ (by decide +kernel) rfl, holdContents]
  · rw [hnewContents]
    rfl
  · rw [hlength, hzero]
    rfl

end MemoryUsers

end LanguageHost
