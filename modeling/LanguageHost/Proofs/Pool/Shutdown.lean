import LanguageHost.Proofs.Pool.Slots

/-!
# The shutdown of workers

A worker is made, serves, is being shut down, and is shut down.  While it serves it is idle, was
handed out, has an operation under way on it, or waits for closing to come to it.  A worker that is
lost with an operation that panicked as it was called stays where it is for ever: nobody uses it,
and nobody shuts it down.  Every step moves some workers on to the next of these stages and none
back (`unretired_step`, `underway_step`), so each worker is in one stage at a time: `Custody`.

A release or a closing that is abandoned leaves workers behind, so both are ruled out here.
-/

open scoped List

namespace LanguageHost

/-- Whether the worker of a job is being shut down. -/
def JobPhase.shutting : JobPhase → Bool
  | returning _ | retiring | discarding => true
  | running | winding _ | rebuilding => false

/-- The worker on which a job has an operation under way. -/
def Job.serving (j : Job) : List Worker := if j.phase.operating then [j.worker] else []

/-- The worker that a job shuts down. -/
def Job.underway (j : Job) : List Worker := if j.phase.shutting then [j.worker] else []

/-- Whether a replacement was made. -/
def PoolEvent.isReplacement : PoolEvent → Bool
  | .built _ true => true
  | _ => false

/-- How many replacements were made. -/
def replacements (es : List PoolEvent) : Nat := es.countP PoolEvent.isReplacement

theorem replacements_concat (es : List PoolEvent) (e : PoolEvent) :
    replacements (es ++ [e]) = replacements es + replacements [e] := List.countP_append

/-- Whether somebody goes away before a shutdown is over. -/
def PoolEvent.abandons : PoolEvent → Bool
  | .abandonRelease _ | .abandonClose => true
  | _ => false

namespace Pool

variable {p p' q : Pool} {e : PoolEvent} {es es' : List PoolEvent} {t : Ticket} {j : Job}
variable {w : Worker}

/-- The workers that are idle, were handed out, or have an operation under way on them. -/
def usable (p : Pool) : List Worker := p.gathered id Job.serving

/-- The workers whose shutdown has not begun: those that may be used, those that closing has yet to
come to, and those that were lost. -/
def unretired (p : Pool) : List Worker := p.usable ++ (p.closing.drop 1 ++ p.lost)

/-- The workers that are being shut down. -/
def underway (p : Pool) : List Worker :=
  p.jobs.flatMap Job.underway ++ (p.discards.map Prod.snd ++ p.closing.take 1)

/-- The workers whose shutdown is over with an event. -/
def downed (p : Pool) : PoolEvent → List Worker
  | .jobDown t => (p.job? t).toList.map Job.worker
  | .released t => (p.discards.filter fun d => d.1 = t).map Prod.snd
  | .closedOne => p.closing.take 1
  | _ => []

/-- The workers whose shutdown is over after a run. -/
def shutDown (p : Pool) : List PoolEvent → List Worker
  | [] => []
  | e :: es => p.downed e ++ (p.step e).elim [] fun q => q.shutDown es

theorem shutDown_append (h : p.run es = some q) :
    p.shutDown (es ++ es') = p.shutDown es ++ q.shutDown es' := by
  induction es generalizing p with
  | nil =>
    cases h
    rfl
  | cons e es ih =>
    obtain ⟨p₁, hstep, hrest⟩ := Option.bind_eq_some_iff.mp h
    simp only [List.cons_append, shutDown, hstep, Option.elim_some, ih hrest, List.append_assoc]

theorem shutDown_concat (h : p.run es = some q) (hs : q.step e = some p') :
    p.shutDown (es ++ [e]) = p.shutDown es ++ q.downed e := by
  rw [shutDown_append h]
  simp only [shutDown, hs, Option.elim_some, List.append_nil]

theorem serving_of_operating (h : j.phase.operating = true) : j.serving = [j.worker] := if_pos h

theorem serving_of_not_operating (h : j.phase.operating = false) : j.serving = [] := by
  simp [Job.serving, h]

theorem underway_of_operating (h : j.phase.operating = true) : j.underway = [] := by
  cases hp : j.phase with
  | running => simp [Job.underway, hp, JobPhase.shutting]
  | winding => simp [Job.underway, hp, JobPhase.shutting]
  | _ => simp [hp, JobPhase.operating] at h

/-! ### One step -/

/-- An operation that ends leaves its worker. -/
theorem usable_endJob_of_operating (ho : p.Orderly) (hj : p.job? t = some j)
    (hop : j.phase.operating = true) : p.usable ~ j.worker :: (p.endJob t).usable := by
  have hperm : p.usable ~ j.serving ++ (p.endJob t).usable := gathered_endJob ho hj
  rwa [serving_of_operating hop] at hperm

/-- A job without an operation leaves no worker that may be used. -/
theorem usable_endJob_of_not_operating (ho : p.Orderly) (hj : p.job? t = some j)
    (hop : j.phase.operating = false) : p.usable ~ (p.endJob t).usable := by
  have hperm : p.usable ~ j.serving ++ (p.endJob t).usable := gathered_endJob ho hj
  rwa [serving_of_not_operating hop] at hperm

/-- A job that has no operation any more has given up its worker. -/
theorem usable_setJob_of_operating (ho : p.Orderly) (hj : p.job? t = some j)
    (hop : j.phase.operating = true) {c : Job → Job} (hc : (c j).serving = []) :
    p.usable ~ j.worker :: (p.setJob t c).usable := by
  have hperm : p.usable ~ j.serving ++ (p.setJob t c).usable := gathered_setJob_of_nil ho hj hc
  rwa [serving_of_operating hop] at hperm

/-- A worker that is lost is not used any more, and its shutdown never begins. -/
theorem unretired_lose (ho : p.Orderly) (hj : p.job? t = some j)
    (hop : j.phase.operating = true) :
    p.unretired ~ ((p.endJob t).lose j.worker).unretired := by
  have husable := (usable_endJob_of_operating ho hj hop).append_right (p.closing.drop 1 ++ p.lost)
  refine husable.trans (List.perm_middle.symm.trans ?_)
  exact List.perm_middle.symm.append_left _

/-- What a step does to the workers whose shutdown has not begun: new ones come in, and those whose
shutdown begins leave. -/
theorem unretired_step (ho : p.Orderly) (hclosing : p.closed = false → p.closing = [])
    (he : e.abandons = false) (h : p.Occurs e p') :
    ∃ new begun, p'.made = p.made ++ new ∧ p'.retired = begun ++ p.retired ∧
      new ++ p.unretired ~ begun ++ p'.unretired := by
  have hmade : p.made = p.made ++ [] := (List.append_nil _).symm
  cases h with
  | @fireRunning t j _ _ hj hp =>
    have hop : j.phase.operating = true := by rw [hp]; rfl
    have husable := gathered_setJob_of_eq (f := id) (g := Job.serving) ho hj
      (c := fun k => { k with phase := .winding (p.now + p.grace) })
      (by rw [serving_of_operating hop, serving_of_operating rfl])
    exact ⟨[], [], hmade, rfl, husable.append_right _⟩
  | @fireOwn t j hj hp =>
    have hop : j.phase.operating = true := by rw [hp]; rfl
    have husable := gathered_setJob_of_eq (f := id) (g := Job.serving) ho hj
      (c := fun k => { k with phase := .winding (p.now + p.grace) })
      (by rw [serving_of_operating hop, serving_of_operating rfl])
    exact ⟨[], [], hmade, rfl, husable.append_right _⟩
  | crash hj hop => exact ⟨[], [], hmade, rfl, unretired_lose ho hj hop⟩
  | takeRun _ _ _ hi _ =>
    exact ⟨[], [], hmade, rfl, (gathered_takeRun hi rfl).append_right _⟩
  | takeHeld _ _ _ hi _ =>
    exact ⟨[], [], hmade, rfl, (gathered_takeHeld hi _).append_right _⟩
  | finishOpen hj hop _ =>
    exact ⟨[], [], hmade, rfl, (usable_endJob_of_operating ho hj hop).append_right _⟩
  | @finishClosed t r j hj hop _ =>
    have husable := usable_setJob_of_operating ho hj hop
      (c := fun k => { k with phase := .returning r }) rfl
    exact ⟨[], [j.worker], hmade, rfl, husable.append_right _⟩
  | @panic t j hj hop =>
    obtain rfl := ticket_eq_of_job? hj
    have husable := usable_setJob_of_operating ho hj hop
      (c := fun k => { k with phase := .retiring }) rfl
    exact ⟨[], [j.worker], hmade, rfl, husable.append_right _⟩
  | @expire t j deadline hj hp _ =>
    obtain rfl := ticket_eq_of_job? hj
    have husable := usable_setJob_of_operating ho hj (by rw [hp]; rfl)
      (c := fun k => { k with phase := .retiring }) rfl
    exact ⟨[], [j.worker], hmade, rfl, husable.append_right _⟩
  | @downReturning t j r hj hp =>
    have husable := usable_endJob_of_not_operating ho hj (by rw [hp]; rfl)
    exact ⟨[], [], hmade, rfl, husable.append_right _⟩
  | @downClosed t j hj hp _ =>
    have husable := usable_endJob_of_not_operating ho hj (by rw [hp]; rfl)
    exact ⟨[], [], hmade, rfl, husable.append_right _⟩
  | @downOpen t j hj hp _ =>
    have husable := gathered_setJob_of_eq (f := id) (g := Job.serving) ho hj
      (c := fun k => { k with phase := .rebuilding })
      (by rw [serving_of_not_operating rfl, serving_of_not_operating (by rw [hp]; rfl)])
    exact ⟨[], [], hmade, rfl, husable.append_right _⟩
  | @downDiscarding t j hj hp =>
    have husable := usable_endJob_of_not_operating ho hj (by rw [hp]; rfl)
    exact ⟨[], [], hmade, rfl, husable.append_right _⟩
  | @builtOpen t j hj hp _ =>
    have husable := usable_endJob_of_not_operating ho hj (by rw [hp]; rfl)
    exact ⟨[⟨j.worker.slot, p.nextSerial⟩], [], rfl, rfl, (husable.append_right _).cons _⟩
  | @builtClosed t j hj hp _ =>
    have husable := gathered_setJob_of_eq (f := id) (g := Job.serving) ho hj
      (c := fun k => { k with worker := ⟨j.worker.slot, p.nextSerial⟩, phase := .discarding })
      (by rw [serving_of_not_operating rfl, serving_of_not_operating (by rw [hp]; rfl)])
    exact ⟨[⟨j.worker.slot, p.nextSerial⟩], [⟨j.worker.slot, p.nextSerial⟩], rfl, rfl,
      (husable.append_right _).cons _⟩
  | @builtNothing t j hj hp =>
    have husable := usable_endJob_of_not_operating ho hj (by rw [hp]; rfl)
    exact ⟨[], [], hmade, rfl, husable.append_right _⟩
  | releaseOpen hh _ => exact ⟨[], [], hmade, rfl, (gathered_held ho hh).append_right _⟩
  | @releaseClosed t w hh _ =>
    exact ⟨[], [w], hmade, rfl, (gathered_held ho hh).append_right _⟩
  | close hc =>
    -- The idle workers pass to closing, which begins with the one at the bottom at once.
    refine ⟨[], p.idle.reverse.take 1, hmade, rfl, ?_⟩
    have hdrained : p.idle.map id ~ p.idle.reverse.take 1 ++ p.idle.reverse.drop 1 := by
      rw [List.take_append_drop, List.map_id]
      exact (List.reverse_perm _).symm
    let rest := p.held.map (fun h => id h.2) ++ p.jobs.flatMap Job.serving
    calc p.unretired
        = (p.idle.map id ++ rest) ++ p.lost := by rw [unretired, hclosing hc]; rfl
      _ ~ ((p.idle.reverse.take 1 ++ p.idle.reverse.drop 1) ++ rest) ++ p.lost :=
          (hdrained.append_right _).append_right _
      _ = p.idle.reverse.take 1 ++ ((p.idle.reverse.drop 1 ++ rest) ++ p.lost) := by
          simp only [List.append_assoc]
      _ ~ p.idle.reverse.take 1 ++ ((rest ++ p.idle.reverse.drop 1) ++ p.lost) :=
          (List.perm_append_comm.append_right _).append_left _
      _ = p.idle.reverse.take 1 ++ (rest ++ (p.idle.reverse.drop 1 ++ p.lost)) := by
          rw [List.append_assoc rest]
  | @closedOne w closing hc =>
    refine ⟨[], closing.take 1, hmade, rfl, ?_⟩
    calc p.unretired
        = p.usable ++ (closing ++ p.lost) := by rw [unretired, hc]; rfl
      _ = p.usable ++ (closing.take 1 ++ (closing.drop 1 ++ p.lost)) := by
          rw [← List.append_assoc (closing.take 1), List.take_append_drop]
      _ ~ closing.take 1 ++ (p.usable ++ (closing.drop 1 ++ p.lost)) :=
          perm_append_middle [] p.usable _ _
  | abandonRelease => cases he
  | abandonClose => cases he
  | _ => exact ⟨[], [], hmade, rfl, .refl _⟩

/-- A job that begins to shut down a worker adds it to those that are being shut down. -/
theorem underway_setJob (ho : p.Orderly) (hj : p.job? t = some j) (hold : j.underway = [])
    {c : Job → Job} (hc : (c j).underway = [w]) :
    w :: p.jobs.flatMap Job.underway ~ (p.setJob t c).jobs.flatMap Job.underway := by
  have hend := flatMap_endJob (g := Job.underway) ho hj
  have hset := flatMap_setJob (g := Job.underway) ho hj c
  rw [hold, List.nil_append] at hend
  rw [hc] at hset
  exact (hend.cons w).trans hset.symm

/-- Changing a job that shuts no worker down, before and after, changes nothing of that. -/
theorem underway_setJob_of_nil (ho : p.Orderly) (hj : p.job? t = some j) (hold : j.underway = [])
    {c : Job → Job} (hc : (c j).underway = []) :
    p.jobs.flatMap Job.underway ~ (p.setJob t c).jobs.flatMap Job.underway := by
  have hend := flatMap_endJob (g := Job.underway) ho hj
  have hset := flatMap_setJob (g := Job.underway) ho hj c
  rw [hold, List.nil_append] at hend
  rw [hc, List.nil_append] at hset
  exact hend.trans hset.symm

/-- A job that shuts no worker down leaves none when it ends. -/
theorem underway_endJob_of_nil (ho : p.Orderly) (hj : p.job? t = some j) (hold : j.underway = []) :
    p.jobs.flatMap Job.underway ~ (p.endJob t).jobs.flatMap Job.underway := by
  have hend := flatMap_endJob (g := Job.underway) ho hj
  rwa [hold, List.nil_append] at hend

/-- A job that has shut its worker down leaves it. -/
theorem underway_endJob (ho : p.Orderly) (hj : p.job? t = some j) (hs : j.phase.shutting = true) :
    p.jobs.flatMap Job.underway ~ j.worker :: (p.endJob t).jobs.flatMap Job.underway := by
  have hend := flatMap_endJob (g := Job.underway) ho hj
  have hold : j.underway = [j.worker] := if_pos hs
  rwa [hold] at hend

theorem downed_jobDown (hj : p.job? t = some j) : p.downed (.jobDown t) = [j.worker] := by
  rw [downed, hj]
  rfl

/-- When closing comes to other workers, these take the place of the one it has shut down. -/
theorem underway_closing (p : Pool) (closing : List Worker) :
    closing.take 1 ++ p.underway ~ p.closing.take 1 ++ { p with closing }.underway := by
  let others := p.jobs.flatMap Job.underway ++ p.discards.map Prod.snd
  calc closing.take 1 ++ p.underway
      = (closing.take 1 ++ others) ++ p.closing.take 1 := by
        simp only [underway, others, List.append_assoc]
    _ ~ p.closing.take 1 ++ (closing.take 1 ++ others) := List.perm_append_comm
    _ ~ p.closing.take 1 ++ (others ++ closing.take 1) := List.perm_append_comm.append_left _
    _ ~ p.closing.take 1 ++
        (p.jobs.flatMap Job.underway ++ (p.discards.map Prod.snd ++ closing.take 1)) :=
        .of_eq (by simp only [others, List.append_assoc])

/-- What a step does to the workers that are being shut down: those whose shutdown begins come in,
and those whose shutdown is over leave. -/
theorem underway_step (ho : p.Orderly) (hclosing : p.closed = false → p.closing = [])
    (he : e.abandons = false) (h : p.Occurs e p') :
    ∃ begun, p'.retired = begun ++ p.retired ∧ begun ++ p.underway ~ p.downed e ++ p'.underway := by
  cases h with
  | @fireRunning t j _ _ hj hp =>
    have hunderway := underway_setJob_of_nil ho hj (by rw [Job.underway, hp]; rfl)
      (c := fun k => { k with phase := .winding (p.now + p.grace) }) rfl
    exact ⟨[], rfl, hunderway.append_right _⟩
  | @fireOwn t j hj hp =>
    have hunderway := underway_setJob_of_nil ho hj (by rw [Job.underway, hp]; rfl)
      (c := fun k => { k with phase := .winding (p.now + p.grace) }) rfl
    exact ⟨[], rfl, hunderway.append_right _⟩
  | crash hj hop =>
    exact ⟨[], rfl, (underway_endJob_of_nil ho hj (underway_of_operating hop)).append_right _⟩
  | @takeRun t w idle _ _ _ _ _ =>
    have hjobs : (p.jobs ++ [(⟨t, w, .running⟩ : Job)]).flatMap Job.underway =
        p.jobs.flatMap Job.underway := by
      rw [List.flatMap_append, List.flatMap_singleton]
      exact List.append_nil _
    exact ⟨[], rfl, (List.Perm.of_eq hjobs.symm).append_right _⟩
  | finishOpen hj hop _ =>
    exact ⟨[], rfl, (underway_endJob_of_nil ho hj (underway_of_operating hop)).append_right _⟩
  | @finishClosed t r j hj hop _ =>
    have hunderway := underway_setJob ho hj (underway_of_operating hop)
      (c := fun k => { k with phase := .returning r }) rfl
    exact ⟨[j.worker], rfl, hunderway.append_right _⟩
  | @panic t j hj hop =>
    obtain rfl := ticket_eq_of_job? hj
    have hunderway := underway_setJob ho hj (underway_of_operating hop)
      (c := fun k => { k with phase := .retiring }) rfl
    exact ⟨[j.worker], rfl, hunderway.append_right _⟩
  | @expire t j deadline hj hp _ =>
    obtain rfl := ticket_eq_of_job? hj
    have hunderway := underway_setJob ho hj (by rw [Job.underway, hp]; rfl)
      (c := fun k => { k with phase := .retiring }) rfl
    exact ⟨[j.worker], rfl, hunderway.append_right _⟩
  | @downReturning t j r hj hp =>
    refine ⟨[], rfl, ?_⟩
    rw [downed_jobDown hj]
    exact (underway_endJob ho hj (by rw [hp]; rfl)).append_right _
  | @downClosed t j hj hp _ =>
    refine ⟨[], rfl, ?_⟩
    rw [downed_jobDown hj]
    exact (underway_endJob ho hj (by rw [hp]; rfl)).append_right _
  | @downOpen t j hj hp _ =>
    have hset := flatMap_setJob (g := Job.underway) ho hj fun k => { k with phase := .rebuilding }
    have hunderway := (underway_endJob ho hj (by rw [hp]; rfl)).trans (hset.symm.cons _)
    refine ⟨[], rfl, ?_⟩
    rw [downed_jobDown hj]
    exact hunderway.append_right _
  | @downDiscarding t j hj hp =>
    refine ⟨[], rfl, ?_⟩
    rw [downed_jobDown hj]
    exact (underway_endJob ho hj (by rw [hp]; rfl)).append_right _
  | @builtOpen t j hj hp _ =>
    have hold : j.underway = [] := by rw [Job.underway, hp]; rfl
    exact ⟨[], rfl, (underway_endJob_of_nil ho hj hold).append_right _⟩
  | @builtClosed t j hj hp _ =>
    have hunderway := underway_setJob ho hj (by rw [Job.underway, hp]; rfl)
      (c := fun k => { k with worker := ⟨j.worker.slot, p.nextSerial⟩, phase := .discarding }) rfl
    exact ⟨[⟨j.worker.slot, p.nextSerial⟩], rfl, hunderway.append_right _⟩
  | @builtNothing t j hj hp =>
    have hold : j.underway = [] := by rw [Job.underway, hp]; rfl
    exact ⟨[], rfl, (underway_endJob_of_nil ho hj hold).append_right _⟩
  | @releaseClosed t w _ _ =>
    have hdiscards : w :: (p.discards.map Prod.snd ++ p.closing.take 1) ~
        (p.discards ++ [(t, w)]).map Prod.snd ++ p.closing.take 1 := by
      rw [List.map_append, List.append_assoc]
      exact List.perm_middle.symm
    have hbegun : w :: p.underway ~ p.jobs.flatMap Job.underway ++
        w :: (p.discards.map Prod.snd ++ p.closing.take 1) := List.perm_middle.symm
    exact ⟨[w], rfl, hbegun.trans (hdiscards.append_left _)⟩
  | @released t _ =>
    have hdiscards : p.discards.map Prod.snd ~ p.downed (.released t) ++
        (p.discards.filter fun d => d.1 ≠ t).map Prod.snd := by
      simp only [downed, ← List.map_append, ne_eq, decide_not]
      exact ((List.filter_append_perm (fun d : Ticket × Worker => d.1 = t) _).symm).map _
    have hunderway := (hdiscards.append_right (p.closing.take 1)).append_left
      (p.jobs.flatMap Job.underway)
    refine ⟨[], rfl, hunderway.trans ?_⟩
    rw [List.append_assoc]
    exact perm_append_middle [] _ _ _
  | close hc =>
    have hunderway := underway_closing p p.idle.reverse
    rw [hclosing hc] at hunderway
    exact ⟨p.idle.reverse.take 1, rfl, hunderway⟩
  | @closedOne w closing _ => exact ⟨closing.take 1, rfl, underway_closing p closing⟩
  | abandonRelease => cases he
  | abandonClose => cases he
  | _ => exact ⟨[], rfl, .refl _⟩

/-- A step makes at most one worker, with a serial number that none had before. -/
theorem made_step (h : p.Occurs e p') :
    (p'.made = p.made ∧ p.nextSerial ≤ p'.nextSerial ∧ replacements [e] = 0) ∨
      ∃ slot, p'.made = p.made ++ [⟨slot, p.nextSerial⟩] ∧ p'.nextSerial = p.nextSerial + 1 ∧
        replacements [e] = 1 := by
  cases h with
  | builtOpen => exact .inr ⟨_, rfl, rfl, rfl⟩
  | builtClosed => exact .inr ⟨_, rfl, rfl, rfl⟩
  | builtNothing => exact .inl ⟨rfl, Nat.le_succ _, rfl⟩
  | _ => exact .inl ⟨rfl, Nat.le_refl _, rfl⟩

/-- Only a closed pool has workers that closing has yet to shut down. -/
theorem closing_step (h : p.Occurs e p') (hclosing : p.closed = false → p.closing = [])
    (hc : p'.closed = false) : p'.closing = [] := by
  have hold := hclosing (closed_step h hc)
  cases h with
  | close => cases hc
  | closedOne hcons => cases hold.symm.trans hcons
  | abandonClose => rfl
  | _ => exact hold

/-! ### All states -/

/-- The stages of the workers of a pool that was started with the workers in `first`, has replaced
so many, and has shut down those in `ended`. -/
structure Custody (first : List Worker) (replaced : Nat) (ended : List Worker) (p : Pool) :
    Prop where
  first_made : first <+: p.made
  length_made : p.made.length = first.length + replaced
  serial_nodup : (p.made.map Worker.serial).Nodup
  serial_lt : ∀ w ∈ p.made, w.serial < p.nextSerial
  made_perm : p.made ~ p.retired ++ p.unretired
  retired_perm : p.retired ~ ended ++ p.underway
  closing_of_open : p.closed = false → p.closing = []

/-- No worker is in two stages, or in one of them twice. -/
theorem Custody.nodup {first ended : List Worker} {replaced : Nat}
    (h : Custody first replaced ended p) : (p.retired ++ p.unretired).Nodup :=
  h.made_perm.nodup_iff.mp (h.serial_nodup.of_map _)

/-- A worker that is made has a serial number that no other one has. -/
theorem serials_step {first ended : List Worker} {replaced : Nat}
    (hp : Custody first replaced ended p) (h : p.Occurs e p') :
    p'.made.length = first.length + (replaced + replacements [e]) ∧
      (p'.made.map Worker.serial).Nodup ∧ ∀ w ∈ p'.made, w.serial < p'.nextSerial := by
  rcases made_step h with ⟨hsame, hle, hnone⟩ | ⟨slot, hnew, hnext, hone⟩
  · rw [hsame, hnone]
    exact ⟨hp.length_made, hp.serial_nodup,
      fun w hw => Nat.lt_of_lt_of_le (hp.serial_lt w hw) hle⟩
  · rw [hnew, hnext, hone, List.length_append, hp.length_made, List.map_append,
      List.nodup_append']
    refine ⟨rfl, ⟨hp.serial_nodup, List.nodup_singleton _, ?_⟩, fun w hw => ?_⟩
    · refine List.disjoint_singleton.mpr fun hmem => ?_
      obtain ⟨w, hw, heq⟩ := List.mem_map.mp hmem
      exact Nat.lt_irrefl _ (heq ▸ hp.serial_lt w hw)
    · rcases List.mem_append.mp hw with hw | hw
      · exact Nat.lt_succ_of_lt (hp.serial_lt w hw)
      · rw [List.mem_singleton.mp hw]
        exact Nat.lt_succ_self _

theorem custody_step {first ended : List Worker} {replaced : Nat} (ho : p.Orderly)
    (hp : Custody first replaced ended p) (he : e.abandons = false) (h : p.Occurs e p') :
    Custody first (replaced + replacements [e]) (ended ++ p.downed e) p' := by
  obtain ⟨new, begun, hmade, hretired, hunretired⟩ := unretired_step ho hp.closing_of_open he h
  obtain ⟨begun', hretired', hunderway⟩ := underway_step ho hp.closing_of_open he h
  -- What leaves the workers that serve is what joins those that are being shut down.
  obtain rfl : begun = begun' := List.append_cancel_right (hretired.symm.trans hretired')
  obtain ⟨hlength, hnodup, hlt⟩ := serials_step hp h
  have hfirst : first <+: p'.made := hmade ▸ hp.first_made.trans (List.prefix_append _ _)
  refine ⟨hfirst, hlength, hnodup, hlt, ?_, ?_, closing_step h hp.closing_of_open⟩
  · calc p'.made
        = p.made ++ new := hmade
      _ ~ (p.retired ++ p.unretired) ++ new := hp.made_perm.append_right _
      _ = p.retired ++ (p.unretired ++ new) := List.append_assoc _ _ _
      _ ~ p.retired ++ (new ++ p.unretired) := List.perm_append_comm.append_left _
      _ ~ p.retired ++ (begun ++ p'.unretired) := hunretired.append_left _
      _ = (p.retired ++ begun) ++ p'.unretired := (List.append_assoc _ _ _).symm
      _ ~ (begun ++ p.retired) ++ p'.unretired := List.perm_append_comm.append_right _
      _ = p'.retired ++ p'.unretired := by rw [hretired]
  · calc p'.retired
        = begun ++ p.retired := hretired
      _ ~ begun ++ (ended ++ p.underway) := hp.retired_perm.append_left _
      _ ~ ended ++ (begun ++ p.underway) := by
        rw [← List.append_assoc, ← List.append_assoc]
        exact List.perm_append_comm.append_right _
      _ ~ ended ++ (p.downed e ++ p'.underway) := hunderway.append_left _
      _ = (ended ++ p.downed e) ++ p'.underway := (List.append_assoc _ _ _).symm

theorem custody_opened (n : Nat) (name : String) (grace now : Nat) :
    Custody (firstWorkers n) 0 [] (opened name grace now (firstWorkers n) n) where
  first_made := List.prefix_rfl
  length_made := rfl
  serial_nodup := by simp [opened, map_serial_firstWorkers, List.nodup_range]
  serial_lt := by simp [opened, firstWorkers]
  made_perm := by
    simp only [opened, unretired, usable, gathered, List.map_id, List.map_nil, List.flatMap_nil,
      List.append_nil, List.nil_append, List.drop_nil]
    exact (List.reverse_perm _).symm
  retired_perm := by simp [opened, underway]
  closing_of_open := fun _ => rfl

/-- Along every run of a fresh pool in which nobody goes away before a shutdown is over, each
worker is in one stage. -/
theorem custody_run {n : Nat} {p₀ : Pool} (h₀ : Fresh n p₀)
    (hes : ∀ e ∈ es, e.abandons = false) (h : p₀.run es = some p) :
    Custody (firstWorkers n) (replacements es) (p₀.shutDown es) p := by
  refine run_induction (motive := fun es q => (∀ e ∈ es, e.abandons = false) →
    Custody (firstWorkers n) (replacements es) (p₀.shutDown es) q) (fun _ => ?_) ?_ h hes
  · obtain ⟨-, name, grace, now, rfl⟩ := fresh_eq h₀
    exact custody_opened n name grace now
  · intro es q e q' hrun hq hs hall
    have hcustody := hq fun e he => hall e (List.mem_append_left _ he)
    rw [replacements_concat, shutDown_concat hrun hs]
    exact custody_step (accounted_run h₀ hrun).1 hcustody (hall e (by simp)) (occurs_of_step hs)

/-! ### The life of a worker -/

/-- A shutdown that was begun stays so. -/
theorem retired_suffix (h : p.Occurs e p') : p.retired <:+ p'.retired := by
  cases h with
  | finishClosed => exact List.suffix_cons _ _
  | panic => exact List.suffix_cons _ _
  | expire => exact List.suffix_cons _ _
  | builtClosed => exact List.suffix_cons _ _
  | releaseClosed => exact List.suffix_cons _ _
  | close => exact List.suffix_append _ _
  | closedOne => exact List.suffix_append _ _
  | _ => exact List.suffix_rfl

/-- A worker that was lost stays so. -/
theorem lost_suffix (h : p.Occurs e p') : p.lost <:+ p'.lost := by
  cases h with
  | crash => exact List.suffix_cons _ _
  | _ => exact List.suffix_rfl

/-- The workers whose shutdown has begun, and those that were lost. -/
def spent (p : Pool) : List Worker := p.retired ++ p.lost

theorem spent_subset_of_step (h : p.Occurs e p') : p.spent ⊆ p'.spent := fun _ hw =>
  (List.mem_append.mp hw).elim
    (fun hw => List.mem_append_left _ ((retired_suffix h).subset hw))
    (fun hw => List.mem_append_right _ ((lost_suffix h).subset hw))

theorem spent_subset_of_run (h : p.run es = some p') : p.spent ⊆ p'.spent :=
  run_induction (motive := fun _ q => p.spent ⊆ q.spent) (List.Subset.refl _)
    (fun _ _ _ _ _ hq hs => List.Subset.trans hq (spent_subset_of_step (occurs_of_step hs))) h

/-- An operation panics, once it is under way or as it is called, or is dropped after the time to
end is over. -/
def PoolEvent.GivesUp (e : PoolEvent) (t : Ticket) : Prop :=
  e = .panic t ∨ e = .crash t ∨ e = .expire t

/-- As soon as an operation is given up, the shutdown of its worker begins, or the worker is
lost. -/
theorem mem_spent_of_givesUp (he : PoolEvent.GivesUp e t) (hj : p.job? t = some j)
    (hs : p.step e = some p') : j.worker ∈ p'.spent := by
  rcases he with rfl | rfl | rfl
  · cases occurs_of_step hs with
    | panic hj' _ =>
      cases hj.symm.trans hj'
      exact List.mem_append_left _ List.mem_cons_self
  · cases occurs_of_step hs with
    | crash hj' _ =>
      cases hj.symm.trans hj'
      exact List.mem_append_right _ List.mem_cons_self
  · cases occurs_of_step hs with
    | expire hj' _ _ =>
      cases hj.symm.trans hj'
      exact List.mem_append_left _ List.mem_cons_self

/-- The shutdown of a worker has begun in a run, or an operation on it was given up. -/
def Spent (p₀ : Pool) (es : List PoolEvent) (w : Worker) : Prop :=
  (∃ q, p₀.run es = some q ∧ w ∈ q.retired) ∨
    ∃ before e after t q j, es = before ++ e :: after ∧ PoolEvent.GivesUp e t ∧
      p₀.run before = some q ∧ q.job? t = some j ∧ j.worker = w

/-- Nothing is left to be done by jobs, by closing, or by those who released a worker. -/
def Quiet (p : Pool) : Prop := p.jobs = [] ∧ p.discards = [] ∧ p.closing = []

theorem mem_spent_of_run {p₀ : Pool} (h : p₀.run (es ++ es') = some p) (hw : Spent p₀ es w) :
    w ∈ p.spent := by
  obtain ⟨q, hq, hrest⟩ := run_append_eq_some.mp h
  refine spent_subset_of_run hrest ?_
  rcases hw with ⟨q', hq', hw⟩ | ⟨before, e, after, t, q', j, rfl, he, hq', hj, rfl⟩
  · cases hq.symm.trans hq'
    exact List.mem_append_left _ hw
  · obtain ⟨q₁, hq₁, hafter⟩ := run_append_eq_some.mp hq
    cases hq₁.symm.trans hq'
    obtain ⟨q₂, hstep, hafter⟩ := Option.bind_eq_some_iff.mp hafter
    exact spent_subset_of_run hafter (mem_spent_of_givesUp he hj hstep)

/-- Each worker is in one of these: those whose shutdown has begun, those that were lost, those that
closing has yet to come to, and those that may be used. -/
theorem Custody.nodup_spent {first ended : List Worker} {replaced : Nat}
    (hp : Custody first replaced ended p) :
    (p.spent ++ (p.closing.drop 1 ++ p.usable)).Nodup := by
  refine List.Perm.nodup_iff ?_ |>.mp hp.nodup
  calc p.retired ++ (p.usable ++ (p.closing.drop 1 ++ p.lost))
      ~ p.retired ++ ((p.closing.drop 1 ++ p.lost) ++ p.usable) :=
        List.perm_append_comm.append_left _
    _ ~ p.retired ++ ((p.lost ++ p.closing.drop 1) ++ p.usable) :=
        (List.perm_append_comm.append_right _).append_left _
    _ = p.spent ++ (p.closing.drop 1 ++ p.usable) := by simp only [spent, List.append_assoc]

/-- A spent worker is not idle, was not handed out, and has no operation. -/
theorem not_usable_of_spent {first ended : List Worker} {replaced : Nat}
    (hp : Custody first replaced ended p) (hw : w ∈ p.spent) :
    w ∉ p.idle ∧ (∀ t, (t, w) ∉ p.held) ∧ ∀ j ∈ p.jobs, j.phase.operating = true → j.worker ≠ w := by
  have hnot : w ∉ p.usable := fun hu =>
    List.disjoint_of_nodup_append hp.nodup_spent hw (List.mem_append_right _ hu)
  simp only [usable, gathered, List.mem_append, not_or] at hnot
  obtain ⟨hidle, hheld, hjobs⟩ := hnot
  refine ⟨by simpa using hidle, fun t ht => hheld (List.mem_map.mpr ⟨(t, w), ht, rfl⟩), ?_⟩
  rintro j hj hop rfl
  refine hjobs (List.mem_flatMap.mpr ⟨j, hj, ?_⟩)
  rw [serving_of_operating hop]
  exact List.mem_singleton_self _

/-- In a closed pool where nothing is left to be done, all workers are shut down but those that were
lost. -/
theorem shutDown_perm_of_quiet {n : Nat} {p₀ : Pool} (h₀ : Fresh n p₀)
    (hes : ∀ e ∈ es, e.abandons = false) (h : p₀.run es = some p) (hc : p.closed = true)
    (hheld : p.held = []) (hq : p.Quiet) :
    p.made ~ p.spent ∧ p.retired ~ p₀.shutDown es := by
  obtain ⟨hjobs, hdiscards, hclosing⟩ := hq
  have hp := custody_run h₀ hes h
  have hidle := (accounted_run h₀ h).2.idle_of_closed hc
  have hunretired : p.unretired = p.lost := by
    simp [unretired, usable, gathered, hidle, hheld, hjobs, hclosing]
  have hunderway : p.underway = [] := by simp [underway, hjobs, hdiscards, hclosing]
  have hmade := hp.made_perm
  have hretired := hp.retired_perm
  rw [hunretired] at hmade
  rw [hunderway, List.append_nil] at hretired
  exact ⟨hmade, hretired⟩

/-- A start that fails shuts down each worker that it made exactly once.  In a pool that was
started, and in which nobody goes away before a shutdown is over: no worker is shut down twice; a
worker whose shutdown has begun, or on which an operation panicked or was dropped, is never again
idle, handed out or given to an operation; and once the pool is closed, every worker was released
and nothing is left to be done, each worker that was ever made is shut down exactly once, unless it
was lost with an operation that panicked as it was called: such a worker, one for each of these
operations, is never shut down. -/
theorem shut_down_once {room : Room} {name : String} {n grace : Nat} {start s : Startup}
    {begun : List StartupEvent} (hb : Startup.begin room name n grace = .ok start)
    (hs : start.run begun = some s) :
    (∀ w, s.retired.count w ≤ 1) ∧
    (∀ cause, s.phase = .failed cause → ∀ w ∈ s.made, s.retired.count w = 1) ∧
    ∀ now es p, s.phase = .ready → (s.pool now).run es = some p →
      (∀ e ∈ es, e.abandons = false) →
      (s.made <+: p.made ∧ p.made.length = n + replacements es ∧ p.made.Nodup) ∧
      (∀ w, p.retired.count w ≤ 1) ∧
      (∀ before after w, es = before ++ after → Spent (s.pool now) before w →
        w ∉ p.idle ∧ (∀ t, (t, w) ∉ p.held) ∧
          ∀ j ∈ p.jobs, j.phase.operating = true → j.worker ≠ w) ∧
      (p.lost.length = crashes es ∧
        ∀ w ∈ p.lost, w ∈ p.made ∧ p.retired.count w = 0 ∧ ((s.pool now).shutDown es).count w = 0) ∧
      (p.closed = true → p.held = [] → p.Quiet →
        ∀ w ∈ p.made, w ∉ p.lost →
          p.retired.count w = 1 ∧ ((s.pool now).shutDown es).count w = 1) := by
  have hsound : s.Sound := Startup.sound_run (Startup.sound_begin hb) hs
  refine ⟨List.nodup_iff_count_le_one.mp (Startup.nodup_retired hsound), ?_, ?_⟩
  · intro cause hfailed w hw
    rw [← hsound.failed cause hfailed] at hw
    exact List.count_eq_one_of_mem (Startup.nodup_retired hsound) hw
  · intro now es p hready hrun hes
    have h₀ : Fresh n (s.pool now) :=
      ⟨room, name, grace, now, start, begun, s, hb, hs, hready, rfl⟩
    have hp := custody_run h₀ hes hrun
    have hsize : s.made.length = n := by
      rw [(hsound.ready hready).1, Startup.size_run hs, (Startup.size_begin hb).1]
    have hfirst : s.made = firstWorkers n := by rw [hsound.made_eq, hsize]
    have hnodup : p.made.Nodup := hp.serial_nodup.of_map _
    have hretired : p.retired.Nodup :=
      (List.nodup_append.mp (hp.made_perm.nodup_iff.mp hnodup)).1
    refine ⟨⟨hfirst ▸ hp.first_made, ?_, hnodup⟩, List.nodup_iff_count_le_one.mp hretired, ?_,
      ⟨lost_run h₀ hrun, fun w hw => ?_⟩, ?_⟩
    · rw [hp.length_made, length_firstWorkers]
    · rintro before after w rfl hw
      exact not_usable_of_spent hp (mem_spent_of_run hrun hw)
    · have hunretired : w ∈ p.unretired := List.mem_append_right _ (List.mem_append_right _ hw)
      have hnot : w ∉ p.retired := fun hmem =>
        List.disjoint_of_nodup_append hp.nodup hmem hunretired
      have hended : w ∉ (s.pool now).shutDown es := fun hmem =>
        hnot (hp.retired_perm.mem_iff.mpr (List.mem_append_left _ hmem))
      exact ⟨hp.made_perm.mem_iff.mpr (List.mem_append_right _ hunretired),
        List.count_eq_zero_of_not_mem hnot, List.count_eq_zero_of_not_mem hended⟩
    · intro hc hheld hq w hw hkept
      obtain ⟨hmade, hended⟩ := shutDown_perm_of_quiet h₀ hes hrun hc hheld hq
      have hmem : w ∈ p.retired :=
        (List.mem_append.mp (hmade.mem_iff.mp hw)).resolve_right hkept
      have hone : p.retired.count w = 1 := List.count_eq_one_of_mem hretired hmem
      exact ⟨hone, (hended.count_eq w).symm.trans hone⟩

/-- Of three workers one is handed out, one panics, and one is idle when the pool is closed; the
replacement comes too late.  A start of two workers fails with the second one. -/
theorem shut_down_once_after_late_replacement :
    (∃ start s, Startup.begin ⟨64, 4096⟩ "pair" 2 10 = .ok start ∧
      start.run [.made, .unmade .poolClosed, .down] = some s ∧
      ∀ w ∈ s.made, s.retired.count w = 1) ∧
    ∃ start s p, Startup.begin ⟨64, 4096⟩ "trio" 3 10 = .ok start ∧
      start.run [.made, .made, .made] = some s ∧
      (s.pool 0).run
        [.ask, .take 0, .askRun false, .take 1, .panic 1, .jobDown 1, .close, .closedOne,
          .built 1 true, .jobDown 1, .release 0, .released 0] = some p ∧
      p.made.length = 4 ∧
      ∀ w ∈ p.made, p.retired.count w = 1 := by
  constructor
  · let start := Startup.building "pair" 2 10 0
    let begun : List StartupEvent := [.made, .unmade .poolClosed, .down]
    have hs : start.run begun = some ((start.run begun).getD start) := rfl
    have hb : Startup.begin ⟨64, 4096⟩ "pair" 2 10 = .ok start := rfl
    exact ⟨start, _, hb, hs, (shut_down_once hb hs).2.1 .poolClosed rfl⟩
  · let start := Startup.building "trio" 3 10 0
    let begun : List StartupEvent := [.made, .made, .made]
    have hb : Startup.begin ⟨64, 4096⟩ "trio" 3 10 = .ok start := rfl
    let s := (start.run begun).getD start
    have hs : start.run begun = some s := rfl
    let es : List PoolEvent :=
      [.ask, .take 0, .askRun false, .take 1, .panic 1, .jobDown 1, .close, .closedOne,
        .built 1 true, .jobDown 1, .release 0, .released 0]
    let p := ((s.pool 0).run es).get (by decide +kernel)
    have hrun : (s.pool 0).run es = some p := (Option.some_get _).symm
    have hes : ∀ e ∈ es, e.abandons = false := by simp [es, PoolEvent.abandons]
    obtain ⟨⟨-, hmade, -⟩, -, -, ⟨hlost, -⟩, honce⟩ :=
      (shut_down_once hb hs).2.2 0 es p rfl hrun hes
    have hc : p.closed = true := by decide +kernel
    have hcount : 3 + replacements es = 4 := rfl
    have hheld : p.held = [] := by decide +kernel
    have hjobs : p.jobs.isEmpty = true := by decide +kernel
    have hquiet : p.Quiet := ⟨List.isEmpty_iff.mp hjobs, by decide +kernel, by decide +kernel⟩
    have hnone : p.lost = [] := List.eq_nil_of_length_eq_zero hlost
    refine ⟨start, s, p, hb, hs, hrun, hmade.trans hcount, fun w hw => ?_⟩
    exact (honce hc hheld hquiet w hw (hnone ▸ List.not_mem_nil)).1

/-- The operation on the only worker of a pool panics as it is called.  The pool is then closed, no
worker is handed out and nothing is left to be done, and the worker was never shut down. -/
theorem not_shut_down_after_crash :
    ∃ start s p, Startup.begin ⟨64, 4096⟩ "single" 1 10 = .ok start ∧ start.run [.made] = some s ∧
      s.phase = .ready ∧
      (s.pool 0).run [.askRun false, .take 0, .crash 0, .learn 0, .close] = some p ∧
      p.closed = true ∧ p.held = [] ∧ p.Quiet ∧ p.made = [⟨0, 0⟩] ∧ p.retired = [] := by
  let start := Startup.building "single" 1 10 0
  let s := (start.run [.made]).getD start
  let es : List PoolEvent := [.askRun false, .take 0, .crash 0, .learn 0, .close]
  let p := ((s.pool 0).run es).get (by decide +kernel)
  have hrun : (s.pool 0).run es = some p := (Option.some_get _).symm
  have hjobs : p.jobs.isEmpty = true := by decide +kernel
  have hquiet : p.Quiet := ⟨List.isEmpty_iff.mp hjobs, by decide +kernel, by decide +kernel⟩
  exact ⟨start, s, p, rfl, rfl, rfl, hrun, by decide +kernel, by decide +kernel, hquiet,
    by decide +kernel, by decide +kernel⟩

end Pool

end LanguageHost
