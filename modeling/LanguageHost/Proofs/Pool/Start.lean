import LanguageHost.Pool.Startup
import LanguageHost.Proofs.Runs
import Mathlib.Data.List.Nodup

/-!
# The start of a pool

A start makes workers for the slots from zero on, the worker of slot `i` being the `i`-th that was
asked for.  `Startup.Sound` says how far it has come, up to a failure after which all that was made
is shut down; `sound_run` keeps that along every start.

Main facts: `fresh_eq` (what a pool looks like that was started) and `nodup_retired` (a start shuts
down no worker twice).
-/

namespace LanguageHost

/-- The first workers of a pool: one for each slot, asked for in the order of the slots. -/
def firstWorkers (n : Nat) : List Worker := (List.range n).map fun i => ⟨i, i⟩

@[simp] theorem length_firstWorkers (n : Nat) : (firstWorkers n).length = n := by
  simp [firstWorkers]

theorem firstWorkers_succ (n : Nat) : firstWorkers (n + 1) = firstWorkers n ++ [⟨n, n⟩] := by
  simp [firstWorkers, List.range_succ]

theorem map_slot_firstWorkers (n : Nat) : (firstWorkers n).map Worker.slot = List.range n := by
  simp [firstWorkers, Function.comp_def]

theorem map_serial_firstWorkers (n : Nat) : (firstWorkers n).map Worker.serial = List.range n := by
  simp [firstWorkers, Function.comp_def]

theorem nodup_firstWorkers (n : Nat) : (firstWorkers n).Nodup := by
  refine List.Nodup.of_map Worker.slot ?_
  rw [map_slot_firstWorkers]
  exact List.nodup_range

namespace Startup

variable {s s' : Startup} {events : List StartupEvent} {room : Room} {name : String}
variable {n grace : Nat}

/-- A start whose first workers were made, while the next one is being made. -/
def building (name : String) (n grace i : Nat) : Startup :=
  { name, size := n, grace, phase := .building, made := firstWorkers i, nextSerial := i
    retired := [] }

/-- A start begins with a worker to be made, where there is room for all of them. -/
theorem begin_eq_ok_iff : begin room name n grace = .ok s ↔
    0 < n ∧ room.breakdown? n = none ∧ s = building name n grace 0 := by
  unfold begin
  split
  · next hn => simp [hn]
  · next hn =>
    have hpos : 0 < n := Nat.pos_of_ne_zero hn
    cases hroom : room.breakdown? n with
    | some b => simp
    | none =>
      simp only [Except.ok.injEq, hpos, true_and]
      exact eq_comm

/-- How far a start has come. -/
structure Sound (s : Startup) : Prop where
  made_eq : s.made = firstWorkers s.made.length
  building : s.phase = .building →
    s.made.length < s.size ∧ s.nextSerial = s.made.length ∧ s.retired = []
  ready : s.phase = .ready → s.made.length = s.size ∧ s.nextSerial = s.size ∧ s.retired = []
  undoing : ∀ cause left, s.phase = .undoing cause left → s.retired ++ left = s.made
  failed : ∀ cause, s.phase = .failed cause → s.retired = s.made

theorem sound_begin (h : begin room name n grace = .ok s) : s.Sound := by
  obtain ⟨hn, -, rfl⟩ := begin_eq_ok_iff.mp h
  exact ⟨rfl, fun _ => ⟨hn, rfl, rfl⟩, nofun, nofun, nofun⟩

theorem sound_step {e : StartupEvent} (hs : s.Sound) (h : s.step e = some s') : s'.Sound := by
  unfold step at h
  split at h
  · next hp =>
    cases h
    obtain ⟨hlt, hserial, hretired⟩ := hs.building hp
    have hmade : s.made ++ [⟨s.made.length, s.nextSerial⟩] = firstWorkers (s.made.length + 1) := by
      rw [firstWorkers_succ, ← hs.made_eq, hserial]
    refine ⟨by simpa using hmade, ?_, ?_, ?_, ?_⟩
    · intro hb
      have : s.made.length + 1 < s.size := by
        by_contra hge
        simp [hge] at hb
      simpa [this, hserial] using hretired
    · intro hr
      have : s.made.length + 1 = s.size := by
        by_contra hne
        have : s.made.length + 1 < s.size := by omega
        simp [this] at hr
      simp [this, hserial, hretired]
    · intro cause left hu
      dsimp only at hu
      split at hu <;> cases hu
    · intro cause hf
      dsimp only at hf
      split at hf <;> cases hf
  · next cause hp =>
    cases h
    obtain ⟨-, -, hretired⟩ := hs.building hp
    refine ⟨hs.made_eq, ?_, ?_, ?_, ?_⟩
    · intro hb
      dsimp only at hb
      split at hb <;> cases hb
    · intro hr
      dsimp only at hr
      split at hr <;> cases hr
    · intro cause left hu
      dsimp only at hu ⊢
      split at hu <;> cases hu
      simp [hretired]
    · intro cause hf
      dsimp only at hf ⊢
      split at hf
      · next hempty => simp [hretired, List.isEmpty_iff.mp hempty]
      · cases hf
  · next cause w left hp =>
    cases h
    have hmade := hs.undoing cause (w :: left) hp
    refine ⟨hs.made_eq, ?_, ?_, ?_, ?_⟩
    · intro hb
      dsimp only at hb
      split at hb <;> cases hb
    · intro hr
      dsimp only at hr
      split at hr <;> cases hr
    · intro cause left hu
      dsimp only at hu ⊢
      split at hu <;> cases hu
      simpa using hmade
    · intro cause hf
      dsimp only at hf ⊢
      split at hf
      · next hempty => simpa [List.isEmpty_iff.mp hempty] using hmade
      · cases hf
  · cases h

theorem plays : Plays step run := ⟨fun _ => rfl, fun _ _ _ => rfl⟩

theorem sound_run (hs : s.Sound) (h : s.run events = some s') : s'.Sound :=
  plays.induction hs (fun _ _ _ _ hq hstep => sound_step hq hstep) h

/-- A step changes nothing of what the start was begun with. -/
theorem size_step {e : StartupEvent} (h : s.step e = some s') : s'.size = s.size := by
  unfold step at h
  split at h <;> cases h <;> rfl

theorem size_run (h : s.run events = some s') : s'.size = s.size :=
  plays.induction (motive := fun q => q.size = s.size) rfl
    (fun _ _ _ _ hq hstep => (size_step hstep).trans hq) h

theorem size_begin (h : begin room name n grace = .ok s) : s.size = n ∧ 0 < n := by
  obtain ⟨hn, -, rfl⟩ := begin_eq_ok_iff.mp h
  exact ⟨rfl, hn⟩

/-- The next worker is made for the next slot. -/
theorem step_made (hp : s.phase = .building) (hmade : s.made = firstWorkers s.nextSerial) :
    s.step .made = some { s with
      made := firstWorkers (s.nextSerial + 1), nextSerial := s.nextSerial + 1
      phase := if s.nextSerial + 1 < s.size then .building else .ready } := by
  have hlen : s.made.length = s.nextSerial := by rw [hmade, length_firstWorkers]
  have hnext : s.made ++ [⟨s.made.length, s.nextSerial⟩] = firstWorkers (s.nextSerial + 1) := by
    rw [firstWorkers_succ, ← hmade, hlen]
  simp only [step, hp, hnext, length_firstWorkers]

/-- A start whose remaining workers are all made is ready. -/
theorem run_made {m : Nat} (hp : s.phase = .building) (hmade : s.made = firstWorkers s.nextSerial)
    (hm : s.nextSerial + (m + 1) = s.size) :
    s.run (List.replicate (m + 1) .made) =
      some { s with
        phase := .ready, made := firstWorkers (s.nextSerial + (m + 1))
        nextSerial := s.nextSerial + (m + 1) } := by
  induction m generalizing s with
  | zero =>
    have hlast : ¬ s.nextSerial + 1 < s.size := by omega
    simp only [List.replicate_succ, List.replicate_zero, run, step_made hp hmade, if_neg hlast,
      Option.bind_some, Nat.zero_add]
  | succ m ih =>
    have hmore : s.nextSerial + 1 < s.size := by omega
    rw [List.replicate_succ, run, step_made hp hmade, if_pos hmore, Option.bind_some]
    rw [ih rfl rfl (by simp only; omega)]
    simp only [Nat.add_assoc, Nat.add_comm 1]

/-- A start shuts down no worker twice. -/
theorem nodup_retired (hs : s.Sound) : s.retired.Nodup := by
  have hmade : s.made.Nodup := by
    rw [hs.made_eq]
    exact nodup_firstWorkers _
  cases hp : s.phase with
  | building =>
    rw [(hs.building hp).2.2]
    exact List.nodup_nil
  | undoing cause left =>
    rw [← hs.undoing cause left hp] at hmade
    exact (List.nodup_append.mp hmade).1
  | failed cause =>
    rw [hs.failed cause hp]
    exact hmade
  | ready =>
    rw [(hs.ready hp).2.2]
    exact List.nodup_nil

end Startup

namespace Pool

/-- A pool that was just started with so many workers. -/
def Fresh (n : Nat) (p : Pool) : Prop :=
  ∃ room name grace now start events s, Startup.begin room name n grace = .ok start ∧
    start.run events = some s ∧ s.phase = .ready ∧ p = s.pool now

/-- A pool that was just started has an idle worker in each slot, and nothing has happened yet. -/
theorem fresh_eq {n : Nat} {p : Pool} (h : Fresh n p) :
    0 < n ∧ ∃ name grace now, p = opened name grace now (firstWorkers n) n := by
  obtain ⟨room, name, grace, now, start, events, s, hb, hr, hp, rfl⟩ := h
  obtain ⟨hsize, hn⟩ := Startup.size_begin hb
  have hs : s.Sound := Startup.sound_run (Startup.sound_begin hb) hr
  obtain ⟨hlen, hserial, -⟩ := hs.ready hp
  have hsize' : s.size = n := (Startup.size_run hr).trans hsize
  refine ⟨hn, s.name, s.grace, now, ?_⟩
  have hmade : s.made = firstWorkers n := by rw [hs.made_eq, hlen, hsize']
  simp only [Startup.pool, hmade, hserial, hsize']

/-- Every pool of first workers can be started. -/
theorem fresh_opened {n : Nat} (hn : 0 < n) (name : String) (grace now : Nat) :
    Fresh n (opened name grace now (firstWorkers n) n) := by
  obtain ⟨m, rfl⟩ := Nat.exists_eq_add_of_lt hn
  rw [Nat.zero_add]
  let start := Startup.building name (m + 1) grace 0
  have hbegin : Startup.begin ⟨0, 0⟩ name (m + 1) grace = .ok start :=
    Startup.begin_eq_ok_iff.mpr ⟨Nat.succ_pos m, rfl, rfl⟩
  have hrun := Startup.run_made (s := start) (m := m) rfl rfl (Nat.zero_add _)
  refine ⟨⟨0, 0⟩, name, grace, now, start, _, _, hbegin, hrun, rfl, ?_⟩
  simp only [Startup.pool, start, Startup.building, Nat.zero_add]

end Pool

end LanguageHost
