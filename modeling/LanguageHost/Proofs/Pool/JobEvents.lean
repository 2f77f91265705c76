import LanguageHost.Proofs.Pool.Closed

/-!
# The events of a job

A job goes on when its operation ends, panics or is dropped, when its worker has been shut down, and
when a new worker was made or could not be made.  `Turn` says what each of these events does to the
job and to everything that the pool counts, and `turn_of_step` that it does: there is one case for
an operation under way, one for a worker that is being replaced, before and after it was shut down,
and one for a worker that is only shut down.

The second part is about the time at which the token of an operation fires, the one that it was
handed: its caller's token fires it, and so may the operation itself.
-/

namespace LanguageHost

/-- Whether the job of a ticket goes on with an event. -/
def PoolEvent.moves (t : Ticket) : PoolEvent → Bool
  | .finish u _ | .panic u | .crash u | .expire u | .jobDown u | .built u _ => decide (u = t)
  | _ => false

/-- Whether the token fires that the operation of a ticket was handed. -/
def PoolEvent.fires (t : Ticket) : PoolEvent → Bool
  | .fire u | .fireOwn u => decide (u = t)
  | _ => false

namespace Pool

variable {p q q' : Pool} {e : PoolEvent} {es : List PoolEvent} {t : Ticket} {w : Worker} {j : Job}

/-- The events with which the job of a ticket went on. -/
def course (t : Ticket) (es : List PoolEvent) : List PoolEvent := es.filter (PoolEvent.moves t)

theorem course_concat_of_moves (he : e.moves t = true) :
    course t (es ++ [e]) = course t es ++ [e] := by
  rw [course, List.filter_append, List.filter_cons_of_pos he, List.filter_nil, ← course]

theorem course_concat_of_not (he : e.moves t = false) : course t (es ++ [e]) = course t es := by
  rw [course, List.filter_append, List.filter_cons_of_neg (by simp [he]), List.filter_nil,
    List.append_nil, ← course]

/-! ### What an event of a job does -/

/-- What a step changes of what a pool counts: how many workers it has lost, and how many had to be
replaced; which workers became idle, which ones are shut down from now on, and which ones were
made. -/
structure Changes (p p' : Pool) (lost replaced : Nat) (idle retired made : List Worker) : Prop where
  live_eq : p'.live + lost = p.live
  replaced_eq : p'.replaced = p.replaced + replaced
  idle_eq : p'.idle = idle ++ p.idle
  retired_eq : p'.retired = retired ++ p.retired
  made_eq : p'.made = p.made ++ made

/-- The operation of a job ends: its worker becomes idle, or is shut down in a closed pool before
the result is sent. -/
inductive GivesBack (q : Pool) (j : Job) : PoolEvent → Pool → Prop where
  | idle {r : Outcome Json} {q' : Pool} (hopen : q.closed = false)
      (hchanges : Changes q q' 0 0 [j.worker] [] []) (hjob : q'.job? j.ticket = none) :
      GivesBack q j (.finish j.ticket r) q'
  | closed {r : Outcome Json} {q' : Pool} (hclosed : q.closed = true)
      (hchanges : Changes q q' 1 0 [] [j.worker] [])
      (hjob : q'.job? j.ticket = some { j with phase := .returning r }) :
      GivesBack q j (.finish j.ticket r) q'

/-- The operation of a job is given up, and its worker is shut down. -/
structure GivesUp (q : Pool) (j : Job) (e : PoolEvent) (q' : Pool) : Prop where
  event : e = .panic j.ticket ∨ e = .expire j.ticket ∧ ∃ d, j.phase = .winding d ∧ d ≤ q.now
  changes : Changes q q' 0 0 [] [j.worker] []
  job : q'.job? j.ticket = some { j with phase := .retiring }

/-- The operation of a job panics as it is called: the pool has lost its worker, and neither shuts it
down nor replaces it, and it counts it as before. -/
structure Crashes (q : Pool) (j : Job) (e : PoolEvent) (q' : Pool) : Prop where
  event : e = .crash j.ticket
  changes : Changes q q' 0 0 [] [] []
  lost_eq : q'.lost = j.worker :: q.lost
  closed_eq : q'.closed = q.closed
  job : q'.job? j.ticket = none

/-- The worker of an operation that was given up has been shut down: a new one is asked for, unless
the pool is closed. -/
inductive GoesDown (q : Pool) (j : Job) : PoolEvent → Pool → Prop where
  | unreplaced {q' : Pool} (hclosed : q.closed = true) (hchanges : Changes q q' 1 1 [] [] [])
      (hjob : q'.job? j.ticket = none) : GoesDown q j (.jobDown j.ticket) q'
  | rebuilding {q' : Pool} (hopen : q.closed = false) (hchanges : Changes q q' 0 1 [] [] [])
      (hjob : q'.job? j.ticket = some { j with phase := .rebuilding }) :
      GoesDown q j (.jobDown j.ticket) q'

/-- The new worker that the next attempt makes for the slot of a job. -/
def replacement (q : Pool) (w : Worker) : Worker := ⟨w.slot, q.nextSerial⟩

/-- A new worker was made for the slot of a job, or could not be made. -/
inductive Rebuilt (q : Pool) (j : Job) : PoolEvent → Pool → Prop where
  | placed {q' : Pool} (hopen : q.closed = false)
      (hchanges : Changes q q' 0 0 [q.replacement j.worker] [] [q.replacement j.worker])
      (hjob : q'.job? j.ticket = none) : Rebuilt q j (.built j.ticket true) q'
  | late {q' : Pool} (hclosed : q.closed = true)
      (hchanges : Changes q q' 1 0 [] [q.replacement j.worker] [q.replacement j.worker])
      (hjob : q'.job? j.ticket = some ⟨j.ticket, q.replacement j.worker, .discarding⟩) :
      Rebuilt q j (.built j.ticket true) q'
  | failed {q' : Pool} (hchanges : Changes q q' 1 0 [] [] [])
      (hcloses : q'.closed = true ↔ q.closed = true ∨ q'.live = 0)
      (hjob : q'.job? j.ticket = none) : Rebuilt q j (.built j.ticket false) q'

/-- The worker of a job that has nothing else to do has been shut down. -/
structure Clears (q : Pool) (j : Job) (e : PoolEvent) (q' : Pool) : Prop where
  event : e = .jobDown j.ticket
  changes : Changes q q' 0 0 [] [] []
  job : q'.job? j.ticket = none

/-- What an event of a job does, whatever the job is at. -/
inductive Turn (q : Pool) (j : Job) (e : PoolEvent) (q' : Pool) : Prop where
  | operation (hop : j.phase.operating = true)
      (h : GivesBack q j e q' ∨ GivesUp q j e q' ∨ Crashes q j e q')
  | retiring (hp : j.phase = .retiring) (h : GoesDown q j e q')
  | rebuilding (hp : j.phase = .rebuilding) (h : Rebuilt q j e q')
  | clearing (hp : j.phase = .discarding ∨ ∃ r, j.phase = .returning r) (h : Clears q j e q')

namespace Turn

theorem of_operating (h : Turn q j e q') (hop : j.phase.operating = true) :
    GivesBack q j e q' ∨ GivesUp q j e q' ∨ Crashes q j e q' := by
  cases h with
  | operation _ h => exact h
  | retiring hp => simp [hp, JobPhase.operating] at hop
  | rebuilding hp => simp [hp, JobPhase.operating] at hop
  | clearing hp => rcases hp with hp | ⟨r, hp⟩ <;> simp [hp, JobPhase.operating] at hop

theorem of_retiring (h : Turn q ⟨t, w, .retiring⟩ e q') : GoesDown q ⟨t, w, .retiring⟩ e q' := by
  cases h with
  | operation hop => cases hop
  | retiring _ h => exact h
  | rebuilding hp => cases hp
  | clearing hp => rcases hp with hp | ⟨r, hp⟩ <;> cases hp

theorem of_rebuilding (h : Turn q ⟨t, w, .rebuilding⟩ e q') :
    Rebuilt q ⟨t, w, .rebuilding⟩ e q' := by
  cases h with
  | operation hop => cases hop
  | retiring hp => cases hp
  | rebuilding _ h => exact h
  | clearing hp => rcases hp with hp | ⟨r, hp⟩ <;> cases hp

theorem of_clearing (h : Turn q j e q')
    (hp : j.phase = .discarding ∨ ∃ r, j.phase = .returning r) : Clears q j e q' := by
  cases h with
  | operation hop => rcases hp with hp | ⟨r, hp⟩ <;> simp [hp, JobPhase.operating] at hop
  | retiring hp' => rcases hp with hp | ⟨r, hp⟩ <;> cases hp.symm.trans hp'
  | rebuilding hp' => rcases hp with hp | ⟨r, hp⟩ <;> cases hp.symm.trans hp'
  | clearing _ h => exact h

end Turn

/-- The pool counts the worker of a job that owns its slot. -/
theorem live_pos_of_ownsSlot {n failed : Nat} (ho : q.Orderly) (ha : Accounted n failed q)
    (hj : q.job? t = some j) (hown : j.phase.ownsSlot = true) : 0 < q.live := by
  have hlen := (slots_endJob_of_ownsSlot ho hj hown).length_eq
  rw [List.length_cons] at hlen
  rw [ha.live_eq, hlen]
  exact Nat.succ_pos _

/-- Every event of a job takes the turn that is the job's. -/
theorem turn_of_step {n failed : Nat} (ho : q.Orderly) (ha : Accounted n failed q)
    (h : q.Occurs e q') (he : e.moves t = true) :
    ∃ j, q.job? t = some j ∧ Turn q j e q' := by
  -- Where the pool loses a worker, that of the job was counted before.
  have hlost : ∀ {j}, q.job? t = some j → j.phase.ownsSlot = true → q.live - 1 + 1 = q.live :=
    fun hj hown => Nat.sub_add_cancel (live_pos_of_ownsSlot ho ha hj hown)
  have hmade : q.made = q.made ++ [] := (List.append_nil _).symm
  cases h with
  | finishOpen hj hop hopen =>
    obtain rfl := of_decide_eq_true he
    obtain rfl := ticket_eq_of_job? hj
    refine ⟨_, hj, Turn.operation hop (.inl (.idle hopen ?_ (job?_endJob_self q _)))⟩
    exact ⟨rfl, rfl, rfl, rfl, hmade⟩
  | finishClosed hj hop hclosed =>
    obtain rfl := of_decide_eq_true he
    obtain rfl := ticket_eq_of_job? hj
    refine ⟨_, hj, Turn.operation hop (.inl (.closed hclosed ?_ (job?_setPhase_self _ hj)))⟩
    exact ⟨hlost hj (ownsSlot_of_operating hop), rfl, rfl, rfl, hmade⟩
  | panic hj hop =>
    obtain rfl := of_decide_eq_true he
    obtain rfl := ticket_eq_of_job? hj
    refine ⟨_, hj, Turn.operation hop (.inr (.inl ⟨.inl rfl, ?_, job?_setPhase_self _ hj⟩))⟩
    exact ⟨rfl, rfl, rfl, rfl, hmade⟩
  | crash hj hop =>
    obtain rfl := of_decide_eq_true he
    obtain rfl := ticket_eq_of_job? hj
    refine ⟨_, hj, Turn.operation hop (.inr (.inr ⟨rfl, ?_, rfl, rfl, job?_endJob_self q _⟩))⟩
    exact ⟨rfl, rfl, rfl, rfl, hmade⟩
  | @expire _ j _ hj hp hd =>
    obtain rfl := of_decide_eq_true he
    obtain rfl := ticket_eq_of_job? hj
    have hop : j.phase.operating = true := by rw [hp]; rfl
    refine ⟨_, hj, Turn.operation hop
      (.inr (.inl ⟨.inr ⟨rfl, _, hp, hd⟩, ?_, job?_setPhase_self _ hj⟩))⟩
    exact ⟨rfl, rfl, rfl, rfl, hmade⟩
  | downReturning hj hp =>
    obtain rfl := of_decide_eq_true he
    obtain rfl := ticket_eq_of_job? hj
    exact ⟨_, hj, .clearing (.inr ⟨_, hp⟩)
      ⟨rfl, ⟨rfl, rfl, rfl, rfl, hmade⟩, job?_endJob_self q _⟩⟩
  | downClosed hj hp hclosed =>
    obtain rfl := of_decide_eq_true he
    obtain rfl := ticket_eq_of_job? hj
    refine ⟨_, hj, .retiring hp (.unreplaced hclosed ?_ (job?_endJob_self q _))⟩
    exact ⟨hlost hj (by rw [hp]; rfl), rfl, rfl, rfl, hmade⟩
  | downOpen hj hp hopen =>
    obtain rfl := of_decide_eq_true he
    obtain rfl := ticket_eq_of_job? hj
    exact ⟨_, hj, .retiring hp
      (.rebuilding hopen ⟨rfl, rfl, rfl, rfl, hmade⟩ (job?_setPhase_self _ hj))⟩
  | downDiscarding hj hp =>
    obtain rfl := of_decide_eq_true he
    obtain rfl := ticket_eq_of_job? hj
    exact ⟨_, hj, .clearing (.inl hp) ⟨rfl, ⟨rfl, rfl, rfl, rfl, hmade⟩, job?_endJob_self q _⟩⟩
  | builtOpen hj hp hopen =>
    obtain rfl := of_decide_eq_true he
    obtain rfl := ticket_eq_of_job? hj
    exact ⟨_, hj, .rebuilding hp
      (.placed hopen ⟨rfl, rfl, rfl, rfl, rfl⟩ (job?_endJob_self q _))⟩
  | @builtClosed _ j hj hp hclosed =>
    obtain rfl := of_decide_eq_true he
    obtain rfl := ticket_eq_of_job? hj
    have hset := job?_setJob q j.ticket j.ticket
      (f := fun k => { k with worker := ⟨j.worker.slot, q.nextSerial⟩, phase := .discarding })
      fun _ => rfl
    rw [if_pos rfl, hj] at hset
    refine ⟨_, hj, .rebuilding hp (.late hclosed ?_ hset)⟩
    exact ⟨hlost hj (by rw [hp]; rfl), rfl, rfl, rfl, rfl⟩
  | builtNothing hj hp =>
    obtain rfl := of_decide_eq_true he
    obtain rfl := ticket_eq_of_job? hj
    refine ⟨_, hj, .rebuilding hp (.failed ?_ ?_ (job?_endJob_self q _))⟩
    · exact ⟨hlost hj (by rw [hp]; rfl), rfl, rfl, rfl, hmade⟩
    · exact Bool.or_eq_true_iff.trans (or_congr_right decide_eq_true_iff)
  | _ => cases he

/-! ### When a token fires -/

/-- The time at which the token that the operation of a run was handed fires among events. -/
def firesAt? (p : Pool) (t : Ticket) : List PoolEvent → Option Nat
  | [] => none
  | e :: es => if e.fires t then some p.now else (p.step e).bind fun q => q.firesAt? t es

theorem firesAt?_append (t : Ticket) (es' : List PoolEvent) (h : p.run es = some q) :
    p.firesAt? t (es ++ es') = (p.firesAt? t es).or (q.firesAt? t es') := by
  induction es generalizing p with
  | nil =>
    cases h
    rfl
  | cons e es ih =>
    obtain ⟨p₁, hstep, hrest⟩ := Option.bind_eq_some_iff.mp h
    rw [List.cons_append, firesAt?, firesAt?, hstep, Option.bind_some, Option.bind_some, ih hrest]
    split
    · exact (Option.some_or ..).symm
    · rfl

theorem firesAt?_concat_of_not (h : p.run es = some q) (he : e.fires t = false) :
    p.firesAt? t (es ++ [e]) = p.firesAt? t es := by
  have hlast : q.firesAt? t [e] = none := by
    rw [firesAt?, if_neg (by simp [he])]
    cases q.step e <;> rfl
  rw [firesAt?_append t [e] h, hlast, Option.or_none]

theorem firesAt?_concat_of_fires (h : p.run es = some q) (he : e.fires t = true) :
    p.firesAt? t (es ++ [e]) = (p.firesAt? t es).or (some q.now) := by
  rw [firesAt?_append t _ h, firesAt?, if_pos he]

theorem eq_fire_of_fires (h : e.fires t = true) : e = .fire t ∨ e = .fireOwn t := by
  cases e with
  | fire u => exact .inl (congrArg PoolEvent.fire (of_decide_eq_true h))
  | fireOwn u => exact .inr (congrArg PoolEvent.fireOwn (of_decide_eq_true h))
  | _ => cases h

/-- The token of an operation fires because its caller's does, or once the operation was started. -/
theorem fired_or_started_of_firesAt? {n c : Nat} (h₀ : Fresh n p) (h : p.run es = some q)
    (hc : p.firesAt? t es = some c) : t ∈ q.fired ∨ t ∈ q.started.map Prod.fst := by
  refine run_induction (motive := fun es q => ∀ c, p.firesAt? t es = some c →
    t ∈ q.fired ∨ t ∈ q.started.map Prod.fst) nofun ?_ h c hc
  intro es q e q' hq hcause hs c hc
  have ho := occurs_of_step hs
  cases he : e.fires t with
  | false =>
    rw [firesAt?_concat_of_not hq he] at hc
    exact (hcause c hc).imp (fun hf => fired_subset ho hf)
      fun hw => ((started_suffix ho).map Prod.fst).subset hw
  | true =>
    rcases eq_fire_of_fires he with rfl | rfl
    · exact .inl (hasFired_iff.mp (hasFired_of_fire hs)).2
    · cases ho with
      | fireOwn hj _ =>
        have hstarted := (accounted_run h₀ hq).1.job_started _ (mem_jobs_of_job? hj)
        exact .inr (ticket_eq_of_job? hj ▸ hstarted)

theorem grace_run (h : p.run es = some q) : q.grace = p.grace :=
  run_induction (motive := fun _ q => q.grace = p.grace) rfl
    (fun _ _ _ _ _ hq hs => (grace_step (occurs_of_step hs)).trans hq) h

end Pool

end LanguageHost
