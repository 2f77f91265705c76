import LanguageHost.Proofs.Pool.Holders
import LanguageHost.Proofs.Pool.Start

/-!
# The slots of a pool

Idle workers, workers that were handed out, and jobs that still own the slot of their worker share
the slots of a pool between them, with the workers that were lost, whose slots nobody uses again.
A step gives up some slots, which nobody has afterwards, and lowers the number of workers by exactly
as many (`slots_step`); all other slots only pass from one place to another.  `Accounted` collects
what follows for all states, and `accounted_run` says that every run of a fresh pool keeps it.

A worker is lost when the operation on it panics as it is called, and only then (`lost_run`).
-/

open scoped List

namespace LanguageHost

/-- Whether a replacement could not be made. -/
def PoolEvent.isFailure : PoolEvent → Bool
  | .built _ false => true
  | _ => false

/-- How many replacements could not be made. -/
def failures (es : List PoolEvent) : Nat := es.countP PoolEvent.isFailure

theorem failures_concat (es : List PoolEvent) (e : PoolEvent) :
    failures (es ++ [e]) = failures es + failures [e] := List.countP_append

/-- Whether an operation panics as it is called. -/
def PoolEvent.isCrash : PoolEvent → Bool
  | .crash _ => true
  | _ => false

/-- How many operations panicked as they were called. -/
def crashes (es : List PoolEvent) : Nat := es.countP PoolEvent.isCrash

theorem crashes_concat (es : List PoolEvent) (e : PoolEvent) :
    crashes (es ++ [e]) = crashes es + crashes [e] := List.countP_append

/-- The slot that a job still owns. -/
def Job.slots (j : Job) : List Nat := if j.phase.ownsSlot then [j.worker.slot] else []

/-- The worker whose slot a job still owns. -/
def Job.manning (j : Job) : List Worker := if j.phase.ownsSlot then [j.worker] else []

namespace Pool

variable {p p' : Pool} {e : PoolEvent} {t : Ticket} {j : Job} {w : Worker}

/-- The slots of the idle workers, of the workers that were handed out, of the jobs, and of the
workers that were lost. -/
def slots (p : Pool) : List Nat := p.gathered Worker.slot Job.slots ++ p.lost.map Worker.slot

/-- Slots that only pass between those who use them leave the lost ones alone. -/
theorem slots_of_gathered {given : List Nat} (hlost : p'.lost = p.lost)
    (h : p.gathered Worker.slot Job.slots ~ given ++ p'.gathered Worker.slot Job.slots) :
    p.slots ~ given ++ p'.slots := by
  rw [slots, slots, hlost, ← List.append_assoc]
  exact h.append_right _

theorem slots_of_ownsSlot (h : j.phase.ownsSlot = true) : j.slots = [j.worker.slot] := if_pos h

theorem slots_of_not_ownsSlot (h : j.phase.ownsSlot = false) : j.slots = [] := by
  simp [Job.slots, h]

theorem ownsSlot_of_operating (ho : j.phase.operating = true) : j.phase.ownsSlot = true := by
  cases hp : j.phase with
  | running => rfl
  | winding => rfl
  | _ => simp [hp, JobPhase.operating] at ho

/-- A job that owns its slot leaves that slot when it ends. -/
theorem slots_endJob_of_ownsSlot (ho : p.Orderly) (hj : p.job? t = some j)
    (hown : j.phase.ownsSlot = true) : p.slots ~ j.worker.slot :: (p.endJob t).slots := by
  have hperm : p.slots ~ j.slots ++ (p.endJob t).slots :=
    slots_of_gathered rfl (gathered_endJob ho hj)
  rwa [slots_of_ownsSlot hown] at hperm

/-- A worker that is lost keeps its slot. -/
theorem slots_lose (ho : p.Orderly) (hj : p.job? t = some j) (hown : j.phase.ownsSlot = true) :
    p.slots ~ ((p.endJob t).lose j.worker).slots := by
  refine (slots_endJob_of_ownsSlot ho hj hown).trans ?_
  exact List.perm_middle.symm

/-- A job that owns no slot leaves none. -/
theorem slots_endJob_of_not_ownsSlot (ho : p.Orderly) (hj : p.job? t = some j)
    (hown : j.phase.ownsSlot = false) : p.slots ~ (p.endJob t).slots := by
  have hperm : p.slots ~ j.slots ++ (p.endJob t).slots :=
    slots_of_gathered rfl (gathered_endJob ho hj)
  rwa [slots_of_not_ownsSlot hown] at hperm

/-- A job that owns no slot any more has given up the one it had. -/
theorem slots_setJob_of_nil (ho : p.Orderly) (hj : p.job? t = some j)
    (hown : j.phase.ownsSlot = true) {c : Job → Job} (hc : (c j).slots = []) :
    p.slots ~ j.worker.slot :: (p.setJob t c).slots := by
  have hperm : p.slots ~ j.slots ++ (p.setJob t c).slots :=
    slots_of_gathered rfl (gathered_setJob_of_nil ho hj hc)
  rwa [slots_of_ownsSlot hown] at hperm

/-- A job that has its slot afterwards has not given it up. -/
theorem slots_setJob_of_eq (ho : p.Orderly) (hj : p.job? t = some j) {c : Job → Job}
    (hc : (c j).slots = j.slots) : p.slots ~ (p.setJob t c).slots :=
  (gathered_setJob_of_eq ho hj hc).append_right _

/-! ### One step -/

/-- A step gives up some slots and lowers the number of workers by as many.  In a pool that is open
afterwards, only a replacement that could not be made gives up a slot. -/
theorem slots_step (ho : p.Orderly) (h : p.Occurs e p') :
    ∃ given, p.slots ~ given ++ p'.slots ∧ p'.live = p.live - given.length ∧
      p'.overdrawn = (p.overdrawn || decide (p.live < given.length)) ∧
      (p'.closed = false → given.length = failures [e]) := by
  have hlive : p.live = p.live - ([] : List Nat).length := rfl
  have hover : p.overdrawn = (p.overdrawn || decide (p.live < ([] : List Nat).length)) := by simp
  cases h with
  | @fireRunning t j _ _ hj hp =>
    have hown : j.phase.ownsSlot = true := by rw [hp]; rfl
    refine ⟨[], slots_setJob_of_eq ho hj (c := fun k => { k with phase := _ }) ?_, hlive, hover,
      fun _ => rfl⟩
    rw [slots_of_ownsSlot hown, slots_of_ownsSlot rfl]
  | @fireOwn t j hj hp =>
    have hown : j.phase.ownsSlot = true := by rw [hp]; rfl
    refine ⟨[], slots_setJob_of_eq ho hj (c := fun k => { k with phase := _ }) ?_, hlive, hover,
      fun _ => rfl⟩
    rw [slots_of_ownsSlot hown, slots_of_ownsSlot rfl]
  | crash hj hop =>
    exact ⟨[], slots_lose ho hj (ownsSlot_of_operating hop), hlive, hover, fun _ => rfl⟩
  | takeRun _ _ _ hi _ =>
    exact ⟨[], slots_of_gathered rfl (gathered_takeRun hi rfl), hlive, hover, fun _ => rfl⟩
  | takeHeld _ _ _ hi _ =>
    exact ⟨[], slots_of_gathered rfl (gathered_takeHeld hi _), hlive, hover, fun _ => rfl⟩
  | @finishOpen t r j hj hop hc =>
    exact ⟨[], slots_endJob_of_ownsSlot ho hj (ownsSlot_of_operating hop), hlive, hover,
      fun _ => rfl⟩
  | @finishClosed t r j hj hop hc =>
    exact ⟨[j.worker.slot], slots_setJob_of_nil ho hj (ownsSlot_of_operating hop)
      (c := fun k => { k with phase := .returning r }) rfl, rfl, rfl,
      fun hc' => by cases hc.symm.trans hc'⟩
  | @panic t j hj hop =>
    obtain rfl := ticket_eq_of_job? hj
    have hown := slots_of_ownsSlot (ownsSlot_of_operating hop)
    exact ⟨[], slots_setJob_of_eq ho hj (c := fun k => { k with phase := .retiring }) hown.symm,
      hlive, hover, fun _ => rfl⟩
  | @expire t j deadline hj hp _ =>
    obtain rfl := ticket_eq_of_job? hj
    have hown := slots_of_ownsSlot (j := j) (by rw [hp]; rfl)
    exact ⟨[], slots_setJob_of_eq ho hj (c := fun k => { k with phase := .retiring }) hown.symm,
      hlive, hover, fun _ => rfl⟩
  | @downReturning t j r hj hp =>
    exact ⟨[], slots_endJob_of_not_ownsSlot ho hj (by rw [hp]; rfl), hlive, hover, fun _ => rfl⟩
  | @downClosed t j hj hp hc =>
    exact ⟨[j.worker.slot], slots_endJob_of_ownsSlot ho hj (by rw [hp]; rfl), rfl, rfl,
      fun hc' => by cases hc.symm.trans hc'⟩
  | @downOpen t j hj hp hc =>
    have hown := slots_of_ownsSlot (j := j) (by rw [hp]; rfl)
    exact ⟨[], slots_setJob_of_eq ho hj (c := fun k => { k with phase := .rebuilding }) hown.symm,
      hlive, hover, fun _ => rfl⟩
  | @downDiscarding t j hj hp =>
    exact ⟨[], slots_endJob_of_not_ownsSlot ho hj (by rw [hp]; rfl), hlive, hover, fun _ => rfl⟩
  | @builtOpen t j hj hp hc =>
    exact ⟨[], slots_endJob_of_ownsSlot ho hj (by rw [hp]; rfl), hlive, hover, fun _ => rfl⟩
  | @builtClosed t j hj hp hc =>
    exact ⟨[j.worker.slot], slots_setJob_of_nil ho hj (by rw [hp]; rfl)
      (c := fun k => { k with worker := ⟨j.worker.slot, p.nextSerial⟩, phase := .discarding }) rfl,
      rfl, rfl, fun hc' => by cases hc.symm.trans hc'⟩
  | @builtNothing t j hj hp =>
    exact ⟨[j.worker.slot], slots_endJob_of_ownsSlot ho hj (by rw [hp]; rfl), rfl, rfl,
      fun _ => rfl⟩
  | @releaseOpen t w hh hc =>
    exact ⟨[], slots_of_gathered rfl (gathered_held ho hh), hlive, hover, fun _ => rfl⟩
  | @releaseClosed t w hh hc =>
    exact ⟨[w.slot], slots_of_gathered rfl (gathered_held ho hh), rfl, rfl,
      fun hc' => by cases hc.symm.trans hc'⟩
  | close hc =>
    refine ⟨p.idle.map Worker.slot, slots_of_gathered rfl (.refl _), ?_, ?_, nofun⟩
    · simp [closeNext, dropLive]
    · simp [closeNext, dropLive]
  | _ => exact ⟨[], .refl _, hlive, hover, fun _ => rfl⟩

/-- An open pool whose last replacement failed closes; others have workers left. -/
theorem live_pos_step (h : p.Occurs e p') (hpos : p.closed = false → 0 < p.live)
    (hlive : p'.live = p.live - failures [e]) (hc : p'.closed = false) : 0 < p'.live := by
  cases h with
  | builtNothing =>
    have hleft : p.live - 1 ≠ 0 := of_decide_eq_false (Bool.or_eq_false_iff.mp hc).2
    exact Nat.pos_of_ne_zero hleft
  | close => cases hc
  | _ => exact hlive ▸ hpos hc

/-- Nobody puts a worker among the idle ones of a closed pool. -/
theorem idle_step (h : p.Occurs e p') (hidle : p.closed = true → p.idle = [])
    (hlive : p'.live = p'.slots.length) (hc : p'.closed = true) : p'.idle = [] := by
  have hopen : ∀ {l : List Worker}, p.closed = false → p.closed = true → l = [] :=
    fun h h' => by cases h.symm.trans h'
  cases h with
  | takeRun _ _ hc' _ _ => exact hopen hc' hc
  | takeHeld _ _ hc' _ _ => exact hopen hc' hc
  | finishOpen _ _ hc' => exact hopen hc' hc
  | builtOpen _ _ hc' => exact hopen hc' hc
  | releaseOpen _ hc' => exact hopen hc' hc
  | close => rfl
  | builtNothing =>
    -- The pool was closed before, or it closes because no slot has an owner left.
    rcases Bool.or_eq_true_iff.mp hc with hc' | hnone
    · exact hidle hc'
    · have hslots := hlive.symm.trans (of_decide_eq_true hnone)
      have hgathered := List.append_eq_nil_iff.mp (List.eq_nil_of_length_eq_zero hslots)
      exact List.map_eq_nil_iff.mp (List.append_eq_nil_iff.mp hgathered.1).1
  | _ => exact hidle hc

/-! ### All states -/

/-- Where the slots of a pool of so many workers are, after so many failed replacements. -/
structure Accounted (n failed : Nat) (p : Pool) : Prop where
  live_eq : p.live = p.slots.length
  slots_nodup : p.slots.Nodup
  slots_lt : ∀ s ∈ p.slots, s < n
  not_overdrawn : p.overdrawn = false
  idle_of_closed : p.closed = true → p.idle = []
  live_pos : p.closed = false → 0 < p.live
  live_add : p.closed = false → p.live + failed = n

theorem accounted_step {n failed : Nat} (ho : p.Orderly) (ha : Accounted n failed p)
    (h : p.Occurs e p') : Accounted n (failed + failures [e]) p' := by
  obtain ⟨given, hperm, hlive, hover, hopen⟩ := slots_step ho h
  have hcount : p.live = given.length + p'.slots.length := by
    rw [ha.live_eq, hperm.length_eq, List.length_append]
  have hlive' : p'.live = p'.slots.length := by omega
  have hfailed : p'.closed = false → p'.live = p.live - failures [e] := fun hc => by
    rw [hlive, hopen hc]
  refine
    { live_eq := hlive'
      slots_nodup := (List.nodup_append.mp (hperm.nodup_iff.mp ha.slots_nodup)).2.1
      slots_lt := fun s hs => ha.slots_lt s (hperm.mem_iff.mpr (List.mem_append_right _ hs))
      not_overdrawn := ?_
      idle_of_closed := idle_step h ha.idle_of_closed hlive'
      live_pos := fun hc => live_pos_step h ha.live_pos (hfailed hc) hc
      live_add := fun hc => ?_ }
  · -- The slots that are given up were all counted before.
    have henough : ¬ p.live < given.length := by omega
    rw [hover, ha.not_overdrawn, decide_eq_false henough]
    rfl
  · have hadd := ha.live_add (closed_step h hc)
    have := hopen hc
    omega

theorem accounted_opened {n : Nat} (hn : 0 < n) (name : String) (grace now : Nat) :
    Accounted n 0 (opened name grace now (firstWorkers n) n) := by
  have hslots : (opened name grace now (firstWorkers n) n).slots = (List.range n).reverse := by
    simp [slots, gathered, opened, map_slot_firstWorkers]
  refine ⟨?_, ?_, ?_, rfl, (fun hc => by cases hc), ?_, ?_⟩
  · rw [hslots]
    simp [opened]
  · rw [hslots, List.nodup_reverse]
    exact List.nodup_range
  · intro s hs
    rw [hslots, List.mem_reverse] at hs
    exact List.mem_range.mp hs
  · intro _
    simpa [opened] using hn
  · intro _
    simp [opened]

/-- Along every run of a fresh pool the tickets are in order and all slots are accounted for. -/
theorem accounted_run {n : Nat} {p₀ : Pool} {es : List PoolEvent} (h₀ : Fresh n p₀)
    (h : p₀.run es = some p) : p.Orderly ∧ Accounted n (failures es) p := by
  obtain ⟨hn, name, grace, now, rfl⟩ := fresh_eq h₀
  refine run_induction (motive := fun es q => q.Orderly ∧ Accounted n (failures es) q)
    ⟨orderly_opened _ _ _ _ _, accounted_opened hn _ _ _⟩ ?_ h
  intro es q e q' _ hq hs
  have hoccurs := occurs_of_step hs
  refine ⟨orderly_step hq.1 hoccurs, ?_⟩
  rw [failures_concat]
  exact accounted_step hq.1 hq.2 hoccurs

/-! ### What callers see -/

/-- The jobs that still own the slot of their worker. -/
def owners (p : Pool) : List Job := p.jobs.filter fun j => j.phase.ownsSlot

/-- The workers that are idle, were handed out, or belong to a job that owns their slot. -/
def manned (p : Pool) : List Worker := p.idle ++ (p.held.map Prod.snd ++ p.owners.map Job.worker)

theorem manned_eq_gathered (p : Pool) : p.manned = p.gathered id Job.manning := by
  have howners : ∀ jobs : List Job, jobs.flatMap Job.manning =
      (jobs.filter fun j => j.phase.ownsSlot).map Job.worker := by
    intro jobs
    induction jobs with
    | nil => rfl
    | cons j jobs ih =>
      rw [List.flatMap_cons, ih, Job.manning]
      cases hown : j.phase.ownsSlot with
      | true => simp [hown]
      | false => simp [hown]
  rw [manned, gathered, howners, List.map_id]
  rfl

/-- The workers that a pool counts: those that somebody has, and those that are lost. -/
def counted (p : Pool) : List Worker := p.manned ++ p.lost

theorem map_slot_counted (p : Pool) : p.counted.map Worker.slot = p.slots := by
  have hslots : ∀ j : Job, j.slots = j.manning.map Worker.slot := by
    intro j
    unfold Job.slots Job.manning
    split
    · rfl
    · rfl
  simp only [counted, manned_eq_gathered, slots, gathered, List.map_append, List.map_map,
    List.map_flatMap, ← hslots]
  rfl

/-- A worker is lost in a step just when an operation panics as it is called. -/
theorem lost_step (h : p.Occurs e p') : p'.lost.length = p.lost.length + crashes [e] := by
  cases h with
  | _ => rfl

theorem lost_run {n : Nat} {p₀ : Pool} {es : List PoolEvent} (h₀ : Fresh n p₀)
    (h : p₀.run es = some p) : p.lost.length = crashes es := by
  refine run_induction (motive := fun es q => q.lost.length = crashes es) ?_ ?_ h
  · obtain ⟨-, name, grace, now, rfl⟩ := fresh_eq h₀
    rfl
  · intro es q e q' _ hq hs
    rw [lost_step (occurs_of_step hs), hq, crashes_concat]

theorem live_eq_of_run {n : Nat} {p₀ : Pool} {es : List PoolEvent} (h₀ : Fresh n p₀)
    (h : p₀.run es = some p) :
    p.live = p.counted.length ∧
      p.live = p.idle.length + p.held.length + p.owners.length + crashes es := by
  have hlive : p.live = p.counted.length := by
    rw [(accounted_run h₀ h).2.live_eq, ← map_slot_counted, List.length_map]
  refine ⟨hlive, ?_⟩
  rw [hlive, ← lost_run h₀ h]
  simp only [counted, manned, List.length_append, List.length_map, Nat.add_assoc]

/-- In every state of a pool that was started with `n` workers, however requests, releases, closing,
fired tokens, callers that go away and outcomes of any kind come together: the pool counts as many
workers as are idle, were handed out, or belong to a job that owns its slot, and besides these one
for each operation that panicked as it was called; all of them sit in different slots of the `n`; an
open pool has given up a slot for each failed replacement and counts one at least; a closed pool has
no idle worker; and the count was never lowered below zero.  Nobody shares a worker, and at most `n`
operations are under way.

So the workers that somebody has are all that are counted just as long as no operation has panicked
as it was called. -/
theorem live_eq_manned {n : Nat} {p₀ p : Pool} {es : List PoolEvent} (h₀ : Fresh n p₀)
    (h : p₀.run es = some p) :
    (p.live = p.idle.length + p.held.length + p.owners.length + crashes es ∧
      p.lost.length = crashes es ∧
      (p.counted.map Worker.slot).Nodup ∧ ∀ w ∈ p.counted, w.slot < n) ∧
    (p.closed = false → 1 ≤ p.live ∧ p.live ≤ n ∧ failures es ≤ n ∧ p.live = n - failures es) ∧
    (p.closed = true → p.idle = []) ∧
    (p.overdrawn = false ∧ p.stats.available + p.stats.busy = p.live) ∧
    p.manned.Nodup ∧ (p.jobs.filter fun j => j.phase.operating).length ≤ n ∧
    (p.live = p.idle.length + p.held.length + p.owners.length ↔ crashes es = 0) := by
  obtain ⟨-, ha⟩ := accounted_run h₀ h
  have hlost := lost_run h₀ h
  have hlive := (live_eq_of_run h₀ h).2
  have hslots : (p.counted.map Worker.slot).Nodup := by
    rw [map_slot_counted]
    exact ha.slots_nodup
  have hlt : ∀ w ∈ p.counted, w.slot < n := fun w hw =>
    ha.slots_lt _ (map_slot_counted p ▸ List.mem_map_of_mem hw)
  have hbound : p.slots.length ≤ n := by
    have hsub : p.slots ⊆ List.range n := fun s hs => List.mem_range.mpr (ha.slots_lt s hs)
    have := (ha.slots_nodup.subperm hsub).length_le
    rwa [List.length_range] at this
  refine ⟨⟨hlive, hlost, hslots, hlt⟩, fun hc => ?_, ha.idle_of_closed, ⟨ha.not_overdrawn, ?_⟩,
    (hslots.of_map _).of_append_left, ?_, by omega⟩
  · have hpos := ha.live_pos hc
    have hadd := ha.live_add hc
    omega
  · simp only [stats]
    omega
  · have hoperating : (p.jobs.filter fun j => j.phase.operating).length ≤ p.owners.length :=
      (List.monotone_filter_right p.jobs fun j hj => ownsSlot_of_operating hj).length_le
    have := ha.live_eq
    omega

/-- Of two workers one is lost to a panic and cannot be replaced, and the other one is handed
out. -/
theorem live_eq_manned_after_panic :
    ∃ p₀ p, Fresh 2 p₀ ∧
      p₀.run [.askRun false, .take 0, .ask, .take 1, .panic 0, .jobDown 0, .built 0 false] =
        some p ∧
      p.closed = false ∧ p.live = p.idle.length + p.held.length + p.owners.length ∧
      p.live = 1 ∧ p.manned = [⟨0, 0⟩] := by
  let p₀ := opened "pair" 10 0 (firstWorkers 2) 2
  let es : List PoolEvent :=
    [.askRun false, .take 0, .ask, .take 1, .panic 0, .jobDown 0, .built 0 false]
  have h₀ : Fresh 2 p₀ := fresh_opened (by decide) "pair" 10 0
  let p := (p₀.run es).get (by decide +kernel)
  have hrun : p₀.run es = some p := (Option.some_get _).symm
  have hone : p.live = 1 := by decide +kernel
  have hworker : p.manned = [⟨0, 0⟩] := by decide +kernel
  exact ⟨p₀, p, h₀, hrun, by decide +kernel, (live_eq_manned h₀ hrun).1.1, hone, hworker⟩

/-- The only worker of a pool is lost with an operation that panics as it is called: nobody has it,
no job is left, and the open pool goes on counting it. -/
theorem live_ne_manned_after_crash :
    ∃ p₀ p, Fresh 1 p₀ ∧ p₀.run [.askRun false, .take 0, .crash 0] = some p ∧
      p.closed = false ∧ p.live = 1 ∧ p.idle = [] ∧ p.held = [] ∧ p.owners = [] ∧
      p.live ≠ p.idle.length + p.held.length + p.owners.length := by
  let p₀ := opened "single" 10 0 (firstWorkers 1) 1
  let es : List PoolEvent := [.askRun false, .take 0, .crash 0]
  have h₀ : Fresh 1 p₀ := fresh_opened (by decide) "single" 10 0
  let p := (p₀.run es).get (by decide +kernel)
  have hrun : p₀.run es = some p := (Option.some_get _).symm
  have hlive : p.live = 1 := by decide +kernel
  have hidle : p.idle = [] := by decide +kernel
  have hheld : p.held = [] := List.eq_nil_of_length_eq_zero (by decide +kernel)
  have howners : p.owners = [] := List.eq_nil_of_length_eq_zero (by decide +kernel)
  refine ⟨p₀, p, h₀, hrun, by decide +kernel, hlive, hidle, hheld, howners, ?_⟩
  rw [hlive, hidle, hheld, howners]
  decide

end Pool

end LanguageHost
