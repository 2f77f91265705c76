import LanguageHost.Proofs.Pool.Outcome

/-!
# What becomes of jobs

The job of a run serves with the worker on which its operation was started until the operation has
come to its end; then it gives the worker back, or shuts it down and sees to a replacement for its
slot, unless the worker is lost because the operation panicked as it was called.  `Pool.JobStep` says what an event does to the job that it is about, and what is known of jobs
is read off it: `Pool.Serves` for each of their phases, and `Pool.JobEnds` for their end.

An event that is about the job of one ticket leaves the jobs of all others alone
(`job?_step_of_ne`).
-/

namespace LanguageHost

/-- The ticket whose job an event is about. -/
def PoolEvent.jobTicket? : PoolEvent → Option Ticket
  | .fire t | .take t | .finish t _ | .panic t | .crash t | .fireOwn t | .expire t | .jobDown t
  | .built t _ => some t
  | .ask | .askRun _ | .withdraw _ | .learn _ | .release _ | .released _ | .abandonRelease _
  | .close | .closedOne | .abandonClose | .wait _ => none

namespace Pool

variable {p q q' : Pool} {e : PoolEvent} {es : List PoolEvent} {t u : Ticket} {w : Worker}
variable {j : Job} {phase : JobPhase}

/-! ### What an event leaves alone -/

/-- A new job is not the job of another ticket. -/
theorem find?_jobs_concat (jobs : List Job) (w : Worker) (phase : JobPhase) (hne : t ≠ u) :
    (jobs ++ [(⟨u, w, phase⟩ : Job)]).find? (fun j => j.ticket = t) =
      jobs.find? fun j => j.ticket = t := by
  have hother : List.find? (fun j : Job => decide (j.ticket = t)) [⟨u, w, phase⟩] = none := by
    simp [Ne.symm hne]
  rw [List.find?_append, hother, Option.or_none]

theorem job?_setPhase (p : Pool) (t u : Ticket) (phase : JobPhase) :
    (p.setPhase t phase).job? u =
      if u = t then (p.job? u).map fun j => { j with phase } else p.job? u :=
  job?_setJob p t u fun _ => rfl

/-- Another phase of a job leaves the jobs of all others alone. -/
theorem job?_setPhase_of_ne (p : Pool) (phase : JobPhase) (hne : t ≠ u) :
    (p.setPhase u phase).job? t = p.job? t := by
  rw [job?_setPhase, if_neg hne]

theorem job?_setPhase_self (phase : JobPhase) (hj : p.job? t = some j) :
    (p.setPhase t phase).job? t = some { j with phase } := by
  rw [job?_setPhase, if_pos rfl, hj, Option.map_some]

theorem job?_endJob_of_ne (p : Pool) (hne : t ≠ u) : (p.endJob u).job? t = p.job? t := by
  rw [job?_endJob, if_neg hne]

theorem sent?_send_self (p : Pool) (t : Ticket) (r : Outcome Json) :
    (p.send t r).sent? t = some r := by
  rw [sent?_send, if_pos rfl]

theorem sent?_send_of_ne (p : Pool) (r : Outcome Json) (hne : t ≠ u) :
    (p.send u r).sent? t = p.sent? t := by
  rw [sent?_send, if_neg hne]

/-- Giving up an operation leaves the jobs and the results of all others alone. -/
theorem giveUp_of_ne (p : Pool) (err : HostError) (hj : p.job? u = some j) (hne : t ≠ u) :
    (p.giveUp j err).job? t = p.job? t ∧ (p.giveUp j err).sent? t = p.sent? t := by
  obtain rfl := ticket_eq_of_job? hj
  exact ⟨job?_setPhase_of_ne _ _ hne, sent?_send_of_ne p _ hne⟩

/-- An event that is not about the job of a ticket leaves it alone, and its result. -/
theorem job?_step_of_ne (h : q.Occurs e q') (ht : e.jobTicket? ≠ some t) :
    q'.job? t = q.job? t ∧ q'.sent? t = q.sent? t := by
  have hother : ∀ {u}, e.jobTicket? = some u → t ≠ u := fun hu heq => ht (heq ▸ hu)
  cases h with
  | fireRunning => exact ⟨job?_setPhase_of_ne _ _ (hother rfl), rfl⟩
  | takeRun => exact ⟨find?_jobs_concat _ _ _ (hother rfl), rfl⟩
  | finishOpen => exact ⟨job?_endJob_of_ne q (hother rfl), sent?_send_of_ne q _ (hother rfl)⟩
  | finishClosed => exact ⟨job?_setPhase_of_ne _ _ (hother rfl), rfl⟩
  | panic hj => exact giveUp_of_ne q _ hj (hother rfl)
  | crash => exact ⟨job?_endJob_of_ne q (hother rfl), rfl⟩
  | fireOwn => exact ⟨job?_setPhase_of_ne _ _ (hother rfl), rfl⟩
  | expire hj => exact giveUp_of_ne q _ hj (hother rfl)
  | downReturning => exact ⟨job?_endJob_of_ne q (hother rfl), sent?_send_of_ne q _ (hother rfl)⟩
  | downClosed => exact ⟨job?_endJob_of_ne q (hother rfl), rfl⟩
  | downOpen => exact ⟨job?_setPhase_of_ne _ _ (hother rfl), rfl⟩
  | downDiscarding => exact ⟨job?_endJob_of_ne q (hother rfl), rfl⟩
  | builtOpen => exact ⟨job?_endJob_of_ne q (hother rfl), rfl⟩
  | @builtClosed u j =>
    have hset := job?_setJob q u t
      (f := fun k => { k with worker := ⟨j.worker.slot, q.nextSerial⟩, phase := .discarding })
      fun _ => rfl
    exact ⟨hset.trans (if_neg (hother rfl)), rfl⟩
  | builtNothing => exact ⟨job?_endJob_of_ne q (hother rfl), rfl⟩
  | _ => exact ⟨rfl, rfl⟩

/-- A token that has not fired fires only by its own event, or before its ticket has come. -/
theorem not_fired_step (h : q.Occurs e q') (ht : t < q.asked) (hfire : e ≠ .fire t)
    (hnot : t ∉ q.fired) : t ∉ q'.fired := by
  cases h with
  | askFired =>
    intro hmem
    rcases List.mem_cons.mp hmem with rfl | hmem
    · exact Nat.lt_irrefl _ ht
    · exact hnot hmem
  | fire =>
    intro hmem
    rcases List.mem_cons.mp hmem with rfl | hmem
    · exact hfire rfl
    · exact hnot hmem
  | fireRunning =>
    intro hmem
    rcases List.mem_cons.mp hmem with rfl | hmem
    · exact hfire rfl
    · exact hnot hmem
  | _ => exact hnot

/-! ### What an event does to a job -/

/-- What becomes of the job of a ticket by an event that is about it. -/
inductive JobStep (q : Pool) (t : Ticket) : PoolEvent → Pool → Prop where
  /-- A token fires where no operation is under way, or a caller takes no worker for one. -/
  | stays {e : PoolEvent} {q' : Pool} (hjob : q'.job? t = q.job? t)
      (hsent : q'.sent? t = q.sent? t) (hstarted : q'.started = q.started)
      (hfired : t ∈ q'.fired → t ∈ q.fired ∨ ∀ j, q.job? t = some j → j.phase ≠ .running) :
      JobStep q t e q'
  | starts {w : Worker} {q' : Pool} (hg : t ∈ q.granted) (hr : t ∈ q.runs)
      (hnot : q.hasFired t = false) (hjob : q'.job? t = (q.job? t).or (some ⟨t, w, .running⟩))
      (hsent : q'.sent? t = q.sent? t) (hstarted : q'.started = (t, w) :: q.started)
      (hfired : q'.fired = q.fired) : JobStep q t (.take t) q'
  /-- The operation is told to stop, by its caller's token or by its own. -/
  | told {j : Job} {e : PoolEvent} {q' : Pool} (he : e = .fire t ∨ e = .fireOwn t)
      (hj : q.job? t = some j) (hp : j.phase = .running)
      (hjob : q'.job? t = some { j with phase := .winding (q'.now + q'.grace) })
      (hsent : q'.sent? t = q.sent? t) (hstarted : q'.started = q.started) :
      JobStep q t e q'
  /-- The operation has ended in a closed pool. -/
  | returning {j : Job} {r : Outcome Json} {q' : Pool} (hj : q.job? t = some j)
      (hop : j.phase.operating = true) (hclosed : q.closed = true)
      (hjob : q'.job? t = some { j with phase := .returning r }) (hsent : q'.sent? t = q.sent? t)
      (hstarted : q'.started = q.started) (hretired : q'.retired = j.worker :: q.retired) :
      JobStep q t (.finish t r) q'
  /-- The operation is given up. -/
  | retiring {j : Job} {e : PoolEvent} {q' : Pool} (hj : q.job? t = some j)
      (hop : j.phase.operating = true) (hjob : q'.job? t = some { j with phase := .retiring })
      (hstarted : q'.started = q.started) (hretired : q'.retired = j.worker :: q.retired) :
      JobStep q t e q'
  | rebuilding {j : Job} {q' : Pool} (hj : q.job? t = some j) (hp : j.phase = .retiring)
      (hjob : q'.job? t = some { j with phase := .rebuilding })
      (hstarted : q'.started = q.started) : JobStep q t (.jobDown t) q'
  | discarding {j : Job} {w : Worker} {q' : Pool} (hj : q.job? t = some j)
      (hp : j.phase = .rebuilding) (hclosed : q.closed = true) (hslot : w.slot = j.worker.slot)
      (hjob : q'.job? t = some { j with worker := w, phase := .discarding })
      (hstarted : q'.started = q.started) : JobStep q t (.built t true) q'
  /-- The worker is given back. -/
  | back {j : Job} {r : Outcome Json} {q' : Pool} (hj : q.job? t = some j)
      (hop : j.phase.operating = true) (hopen : q.closed = false) (hjob : q'.job? t = none)
      (hidle : q'.idle = j.worker :: q.idle) : JobStep q t (.finish t r) q'
  /-- The operation has panicked as it was called, and the worker is lost. -/
  | lost {j : Job} {q' : Pool} (hj : q.job? t = some j) (hop : j.phase.operating = true)
      (hjob : q'.job? t = none) (hlost : q'.lost = j.worker :: q.lost)
      (hidle : q'.idle = q.idle) (hlive : q'.live = q.live) : JobStep q t (.crash t) q'
  /-- The worker has been shut down, and is not replaced. -/
  | shut {j : Job} {q' : Pool} (hj : q.job? t = some j)
      (hphase : (j.phase = .discarding ∨ ∃ r, j.phase = .returning r) ∨
        j.phase = .retiring ∧ q.closed = true) (hjob : q'.job? t = none) :
      JobStep q t (.jobDown t) q'
  | replaced {j : Job} {q' : Pool} (hj : q.job? t = some j) (hp : j.phase = .rebuilding)
      (hopen : q.closed = false) (hjob : q'.job? t = none)
      (hidle : q'.idle = ⟨j.worker.slot, q.nextSerial⟩ :: q.idle) : JobStep q t (.built t true) q'
  | shrunk {j : Job} {q' : Pool} (hj : q.job? t = some j) (hp : j.phase = .rebuilding)
      (hjob : q'.job? t = none) (hidle : q'.idle = q.idle) (hlive : q'.live = q.live - 1) :
      JobStep q t (.built t false) q'

theorem job?_endJob_self (p : Pool) (t : Ticket) : (p.endJob t).job? t = none := by
  rw [job?_endJob, if_pos rfl]

theorem jobStep_of_step (h : q.Occurs e q') (ht : e.jobTicket? = some t) : q.JobStep t e q' := by
  cases h with
  | fire hr hf hnot =>
    obtain rfl := Option.some.inj ht
    exact .stays rfl rfl rfl fun _ => .inr hnot
  | fireRunning hr hf hj hp =>
    obtain rfl := Option.some.inj ht
    exact .told (.inl rfl) hj hp (job?_setPhase_self _ hj) rfl rfl
  | fireOwn hj hp =>
    obtain rfl := Option.some.inj ht
    exact .told (.inr rfl) hj hp (job?_setPhase_self _ hj) rfl rfl
  | crash hj hop =>
    obtain rfl := Option.some.inj ht
    exact .lost hj hop (job?_endJob_self q _) rfl rfl rfl
  | takeFired => exact .stays rfl rfl rfl .inl
  | takeClosed => exact .stays rfl rfl rfl .inl
  | takeNothing => exact .stays rfl rfl rfl .inl
  | takeHeld => exact .stays rfl rfl rfl .inl
  | @takeRun u w idle hg hf hc hi hr =>
    obtain rfl : u = t := Option.some.inj ht
    have hnew : [(⟨u, w, .running⟩ : Job)].find? (fun j => j.ticket = u) =
        some ⟨u, w, .running⟩ := by simp
    refine .starts hg hr hf ?_ rfl rfl rfl
    rw [← hnew]
    exact List.find?_append
  | finishOpen hj hop hopen =>
    obtain rfl := Option.some.inj ht
    exact .back hj hop hopen (job?_endJob_self q _) rfl
  | finishClosed hj hop hc =>
    obtain rfl := Option.some.inj ht
    exact .returning hj hop hc (job?_setPhase_self _ hj) rfl rfl rfl
  | panic hj hop =>
    obtain rfl := Option.some.inj ht
    obtain rfl := ticket_eq_of_job? hj
    exact .retiring hj hop (job?_setPhase_self _ hj) rfl rfl
  | expire hj hp =>
    obtain rfl := Option.some.inj ht
    obtain rfl := ticket_eq_of_job? hj
    exact .retiring hj (by rw [hp]; rfl) (job?_setPhase_self _ hj) rfl rfl
  | downReturning hj hp =>
    obtain rfl := Option.some.inj ht
    exact .shut hj (.inl (.inr ⟨_, hp⟩)) (job?_endJob_self q _)
  | downClosed hj hp hc =>
    obtain rfl := Option.some.inj ht
    exact .shut hj (.inr ⟨hp, hc⟩) (job?_endJob_self q _)
  | downOpen hj hp =>
    obtain rfl := Option.some.inj ht
    exact .rebuilding hj hp (job?_setPhase_self _ hj) rfl
  | downDiscarding hj hp =>
    obtain rfl := Option.some.inj ht
    exact .shut hj (.inl (.inl hp)) (job?_endJob_self q _)
  | builtOpen hj hp hopen =>
    obtain rfl := Option.some.inj ht
    exact .replaced hj hp hopen (job?_endJob_self q _) rfl
  | @builtClosed u k hj hp hc =>
    obtain rfl : u = t := Option.some.inj ht
    have hset := job?_setJob q u u
      (f := fun i => { i with worker := ⟨k.worker.slot, q.nextSerial⟩, phase := .discarding })
      fun _ => rfl
    rw [if_pos rfl, hj] at hset
    exact .discarding (w := ⟨k.worker.slot, q.nextSerial⟩) hj hp hc rfl hset rfl
  | builtNothing hj hp =>
    obtain rfl := Option.some.inj ht
    exact .shrunk hj hp (job?_endJob_self q _) rfl rfl
  | _ => cases ht

/-! ### Jobs and their workers -/

/-- What is known of the job of a run whose operation was started on a worker. -/
structure Serves (p : Pool) (w : Worker) (j : Job) : Prop where
  slot_eq : j.worker.slot = w.slot
  worker_eq : j.phase ≠ .discarding → j.worker = w
  retired : j.phase.operating = false → w ∈ p.retired
  closed : (j.phase = .discarding ∨ ∃ r, j.phase = .returning r) → p.closed = true
  /-- An operation whose token has fired was told to stop, and has time until the deadline. -/
  told : j.ticket ∈ p.fired → j.phase ≠ .running
  deadline : ∀ d, j.phase = .winding d → d ≤ p.now + p.grace

theorem grace_step (h : q.Occurs e q') : q'.grace = q.grace := by
  cases h with
  | _ => rfl

theorem time_step (h : q.Occurs e q') : q.now + q.grace ≤ q'.now + q'.grace := by
  rw [grace_step h]
  refine Nat.add_le_add_right ?_ _
  rcases now_step h with heq | ⟨time, -, hlt, heq⟩
  · exact Nat.le_of_eq heq.symm
  · rw [heq]
    exact Nat.le_of_lt hlt

theorem closed_of_step (h : q.Occurs e q') (hc : q.closed = true) : q'.closed = true := by
  by_contra hopen
  cases hc.symm.trans (closed_step h (by simpa using hopen))

/-- A job that nothing becomes of serves as before. -/
theorem Serves.step (hs : Serves q w j) (h : q.Occurs e q')
    (htold : j.ticket ∈ q'.fired → j.phase ≠ .running) : Serves q' w j where
  slot_eq := hs.slot_eq
  worker_eq := hs.worker_eq
  retired := fun hop => (retired_suffix h).subset (hs.retired hop)
  closed := fun hphase => closed_of_step h (hs.closed hphase)
  told := htold
  deadline := fun d hd => Nat.le_trans (hs.deadline d hd) (time_step h)

/-- All jobs serve with the workers on which their operations were started. -/
def JobsServe (p : Pool) : Prop :=
  ∀ t w j, (t, w) ∈ p.started → p.job? t = some j → Serves p w j

/-- An operation serves with the worker on which it is started. -/
theorem serves_of_starts {w' : Worker} (ho : q.Orderly) (hg : t ∈ q.granted) (hr : t ∈ q.runs)
    (hnot : q.hasFired t = false) (hjob : q'.job? t = (q.job? t).or (some ⟨t, w', .running⟩))
    (hstarted : q'.started = (t, w') :: q.started) (hfired : q'.fired = q.fired)
    (hw : (t, w) ∈ q'.started) (hj : q'.job? t = some j) : Serves q' w j := by
  have hbefore := not_started_of_members ho (mem_members.mpr (.inr hg))
  obtain rfl : w = w' := by
    rw [hstarted] at hw
    rcases List.mem_cons.mp hw with heq | hold
    · exact (Prod.mk.inj heq).2
    · exact absurd (List.mem_map_of_mem hold) hbefore
  -- There was no job before, for only operations that were started have one.
  have hnone : q.job? t = none := by
    refine List.find?_eq_none.mpr fun k hk hkt => hbefore ?_
    exact (of_decide_eq_true hkt) ▸ ho.job_started k hk
  rw [hnone, Option.none_or, hj] at hjob
  obtain rfl := Option.some.inj hjob
  have hquiet : t ∉ q'.fired := fun hmem => by
    rw [hfired] at hmem
    cases (hasFired_iff.mpr ⟨hr, hmem⟩).symm.trans hnot
  exact
    { slot_eq := rfl
      worker_eq := fun _ => rfl
      retired := nofun
      closed := by simp
      told := fun hmem => absurd hmem hquiet
      deadline := nofun }

/-- A worker whose operation has ended or was given up is shut down. -/
theorem serves_of_retired (hold : Serves q w j) (hop : j.phase.operating = true)
    (hretired : q'.retired = j.worker :: q.retired) (hphase : phase.operating = false)
    (hnot : phase ≠ .discarding) (hclosed : (∃ r, phase = .returning r) → q'.closed = true) :
    Serves q' w { j with phase } := by
  have hworker : j.worker = w := hold.worker_eq fun hp => by
    rw [hp] at hop
    cases hop
  exact
    { slot_eq := hold.slot_eq
      worker_eq := fun _ => hworker
      retired := fun _ => by
        rw [hretired, hworker]
        exact List.mem_cons_self
      closed := fun hc => hclosed (hc.resolve_left hnot)
      told := fun _ hp => by
        rw [show phase = .running from hp] at hphase
        cases hphase
      deadline := fun d hd => by
        rw [show phase = .winding d from hd] at hphase
        cases hphase }

/-- Whatever becomes of a job, it serves. -/
theorem JobStep.serves (hstep : q.JobStep t e q') (h : q.Occurs e q') (hs : q.JobsServe)
    (ho : q.Orderly) (hw : (t, w) ∈ q'.started) (hj : q'.job? t = some j) : Serves q' w j := by
  have hsame : ∀ {k}, q'.job? t = some k → j = k := fun hk => Option.some.inj (hj.symm.trans hk)
  have hgone : q'.job? t = none → Serves q' w j := fun hnone => by cases hnone.symm.trans hj
  cases hstep with
  | stays hjob _ hstarted hfired =>
    have hbefore : q.job? t = some j := hjob.symm.trans hj
    have hold := hs t w j (hstarted ▸ hw) hbefore
    refine hold.step h fun hmem => ?_
    obtain rfl := ticket_eq_of_job? hj
    rcases hfired hmem with hmem | hnot
    · exact hold.told hmem
    · exact hnot j hbefore
  | starts hg hr hnot hjob _ hstarted hfired =>
    exact serves_of_starts ho hg hr hnot hjob hstarted hfired hw hj
  | told _ hk hp hjob _ hstarted =>
    obtain rfl := hsame hjob
    have hold := hs t w _ (hstarted ▸ hw) hk
    exact
      { slot_eq := hold.slot_eq
        worker_eq := fun _ => hold.worker_eq (by rw [hp]; nofun)
        retired := nofun
        closed := by simp
        told := fun _ => nofun
        deadline := fun d hd => Nat.le_of_eq (JobPhase.winding.inj hd).symm }
  | returning hk hop hclosed hjob _ hstarted hretired =>
    obtain rfl := hsame hjob
    have hold := hs t w _ (hstarted ▸ hw) hk
    exact serves_of_retired hold hop hretired rfl nofun fun _ => closed_of_step h hclosed
  | retiring hk hop hjob hstarted hretired =>
    obtain rfl := hsame hjob
    have hold := hs t w _ (hstarted ▸ hw) hk
    exact serves_of_retired hold hop hretired rfl nofun (by simp)
  | rebuilding hk hp hjob hstarted =>
    obtain rfl := hsame hjob
    have hold := hs t w _ (hstarted ▸ hw) hk
    exact
      { slot_eq := hold.slot_eq
        worker_eq := fun _ => hold.worker_eq (by rw [hp]; nofun)
        retired := fun _ => (retired_suffix h).subset (hold.retired (by rw [hp]; rfl))
        closed := by simp
        told := fun _ => nofun
        deadline := nofun }
  | discarding hk hp hclosed hslot hjob hstarted =>
    obtain rfl := hsame hjob
    have hold := hs t w _ (hstarted ▸ hw) hk
    exact
      { slot_eq := hslot.trans hold.slot_eq
        worker_eq := fun hnot => absurd rfl hnot
        retired := fun _ => (retired_suffix h).subset (hold.retired (by rw [hp]; rfl))
        closed := fun _ => closed_of_step h hclosed
        told := fun _ => nofun
        deadline := nofun }
  | back _ _ _ hnone => exact hgone hnone
  | lost _ _ hnone => exact hgone hnone
  | shut _ _ hnone => exact hgone hnone
  | replaced _ _ _ hnone => exact hgone hnone
  | shrunk _ _ hnone => exact hgone hnone

/-- Only the caller of a run starts its operation. -/
theorem mem_started_of_step (h : q.Occurs e q') (ht : e.jobTicket? ≠ some t)
    (hw : (t, w) ∈ q'.started) : (t, w) ∈ q.started := by
  cases h with
  | takeRun =>
    rcases List.mem_cons.mp hw with heq | hold
    · exact absurd (congrArg some (Prod.mk.inj heq).1.symm) ht
    · exact hold
  | _ => exact hw

theorem jobsServe_step (hs : q.JobsServe) (ho : q.Orderly) (h : q.Occurs e q') : q'.JobsServe := by
  intro t w j hw hj
  by_cases ht : e.jobTicket? = some t
  · exact (jobStep_of_step h ht).serves h hs ho hw hj
  · obtain ⟨hjobs, -⟩ := job?_step_of_ne h ht
    have hj' : q.job? t = some j := hjobs.symm.trans hj
    have hw' : (t, w) ∈ q.started := mem_started_of_step h ht hw
    have hold := hs t w j hw' hj'
    obtain rfl := ticket_eq_of_job? hj'
    have hasked := ho.claims_asked j.ticket
      (List.mem_append_right _ (List.mem_append_right _ (List.mem_map_of_mem hw')))
    refine hold.step h fun hmem => hold.told ?_
    by_contra hnot
    exact not_fired_step h hasked (fun heq => ht (by rw [heq]; rfl)) hnot hmem

theorem jobsServe_run {n : Nat} {p₀ : Pool} (h₀ : Fresh n p₀) (h : p₀.run es = some q) :
    q.JobsServe := by
  refine run_induction (motive := fun _ q => q.JobsServe) ?_ ?_ h
  · obtain ⟨-, name, grace, now, rfl⟩ := fresh_eq h₀
    exact nofun
  · intro es q e q' hq hs hstep
    exact jobsServe_step hs (accounted_run h₀ hq).1 (occurs_of_step hstep)

/-- How the job of a run comes to its end in a step: it gives the worker back, or a replacement for
its slot; or the worker was shut down, and the pool has shrunk because there was no replacement, or
it is closed. -/
inductive JobEnds (q : Pool) (t : Ticket) (w : Worker) (e : PoolEvent) (q' : Pool) : Prop where
  | back {r : Outcome Json} (he : e = .finish t r) (hopen : q.closed = false)
      (hidle : q'.idle = w :: q.idle)
  | replaced (he : e = .built t true) (hopen : q.closed = false) (hretired : w ∈ q.retired)
      (hidle : q'.idle = ⟨w.slot, q.nextSerial⟩ :: q.idle)
  | shrunk (he : e = .built t false) (hretired : w ∈ q.retired) (hidle : q'.idle = q.idle)
      (hlive : q'.live = q.live - 1)
  | shut (he : e = .jobDown t) (hclosed : q.closed = true) (hretired : w ∈ q.retired)

/-- A job that is there before a step and not afterwards has come to its end in it, unless its
operation panicked as it was called. -/
theorem jobEnds_of_step (h : q.Occurs e q') (hs : Serves q w j) (hcrash : e ≠ .crash t)
    (hj : q.job? t = some j) (hnone : q'.job? t = none) : JobEnds q t w e q' := by
  have hsame : ∀ {k}, q.job? t = some k → k = j := fun hk => Option.some.inj (hk.symm.trans hj)
  have hthere : ∀ {k}, q'.job? t = some k → JobEnds q t w e q' := fun hk => by
    cases hnone.symm.trans hk
  by_cases ht : e.jobTicket? = some t
  · cases jobStep_of_step h ht with
    | back hk hop hopen _ hidle =>
      obtain rfl := hsame hk
      have hworker := hs.worker_eq fun hp => by
        rw [hp] at hop
        cases hop
      exact .back rfl hopen (hworker ▸ hidle)
    | lost => exact absurd rfl hcrash
    | shut hk hphase =>
      obtain rfl := hsame hk
      rcases hphase with (hp | ⟨r, hp⟩) | ⟨hp, hclosed⟩
      · exact .shut rfl (hs.closed (.inl hp)) (hs.retired (by rw [hp]; rfl))
      · exact .shut rfl (hs.closed (.inr ⟨r, hp⟩)) (hs.retired (by rw [hp]; rfl))
      · exact .shut rfl hclosed (hs.retired (by rw [hp]; rfl))
    | replaced hk hp hopen _ hidle =>
      obtain rfl := hsame hk
      exact .replaced rfl hopen (hs.retired (by rw [hp]; rfl)) (hs.slot_eq ▸ hidle)
    | shrunk hk hp _ hidle hlive =>
      obtain rfl := hsame hk
      exact .shrunk rfl (hs.retired (by rw [hp]; rfl)) hidle hlive
    | stays hjob => exact hthere (hjob.trans hj)
    | starts _ _ _ hjob =>
      rw [hj, Option.some_or] at hjob
      exact hthere hjob
    | told _ _ _ hjob => exact hthere hjob
    | returning _ _ _ hjob => exact hthere hjob
    | retiring _ _ hjob => exact hthere hjob
    | rebuilding _ _ hjob => exact hthere hjob
    | discarding _ _ _ _ hjob => exact hthere hjob
  · exact hthere ((job?_step_of_ne h ht).1.trans hj)

/-- What may be done for a job: its operation may end, and may be dropped once the deadline is over;
its worker may be shut down; a replacement may be made, or fail to be made. -/
def CanGoOn (p : Pool) (j : Job) : Prop :=
  match j.phase with
  | .running => ∀ r, (p.step (.finish j.ticket r)).isSome
  | .winding deadline => (∀ r, (p.step (.finish j.ticket r)).isSome) ∧
      (deadline ≤ p.now → (p.step (.expire j.ticket)).isSome)
  | .returning _ | .retiring | .discarding => (p.step (.jobDown j.ticket)).isSome
  | .rebuilding => ∀ made, (p.step (.built j.ticket made)).isSome

/-- Nothing keeps a job from going on. -/
theorem canGoOn (hj : p.job? t = some j) : p.CanGoOn j := by
  obtain rfl := ticket_eq_of_job? hj
  unfold CanGoOn
  split
  · next hp => exact fun r => by simp [step, hj, hp, JobPhase.operating]
  · next deadline hp =>
    exact ⟨fun r => by simp [step, hj, hp, JobPhase.operating],
      fun hdue => by simp [step, hj, hp, hdue]⟩
  · next hp => simp [step, hj, jobDown, hp]
  · next hp =>
    simp only [step, hj, Option.bind_some, jobDown, hp]
    split <;> rfl
  · next hp => simp [step, hj, jobDown, hp]
  · next hp => exact fun made => by simp [step, hj, hp]

/-! ### Callers that go away -/

/-- No worker changes hands, and no job begins or ends. -/
structure Unmoved (p q : Pool) : Prop where
  stats_eq : q.stats = p.stats
  idle_eq : q.idle = p.idle
  held_eq : q.held = p.held
  started_eq : q.started = p.started
  retired_eq : q.retired = p.retired
  jobs_eq : q.jobs.map (fun j => (j.ticket, j.worker)) = p.jobs.map fun j => (j.ticket, j.worker)

theorem Unmoved.refl (p : Pool) : Unmoved p p := ⟨rfl, rfl, rfl, rfl, rfl, rfl⟩

theorem Unmoved.trans (h : Unmoved p q) (h' : Unmoved q q') : Unmoved p q' where
  stats_eq := h'.stats_eq.trans h.stats_eq
  idle_eq := h'.idle_eq.trans h.idle_eq
  held_eq := h'.held_eq.trans h.held_eq
  started_eq := h'.started_eq.trans h.started_eq
  retired_eq := h'.retired_eq.trans h.retired_eq
  jobs_eq := h'.jobs_eq.trans h.jobs_eq

/-- A token that fires moves no worker. -/
theorem unmoved_fire (h : q.Occurs (.fire t) q') : Unmoved q q' := by
  cases h with
  | fire => exact ⟨rfl, rfl, rfl, rfl, rfl, rfl⟩
  | fireRunning =>
    refine ⟨rfl, rfl, rfl, rfl, rfl, ?_⟩
    simp only [setPhase, setJob, List.map_map]
    refine List.map_congr_left fun k _ => ?_
    simp only [Function.comp_apply]
    split <;> rfl

/-- A caller that goes away moves no worker, and leaves its permit to the next one in line. -/
theorem unmoved_withdraw (ho : q.Orderly) (h : q.Occurs (.withdraw t) q') :
    Unmoved q q' ∧ q'.members.Perm (q.members.filter (· ≠ t)) ∧
      (q.closed = false → q'.allPermits = q.allPermits) := by
  cases h with
  | withdraw =>
    refine ⟨⟨rfl, rfl, rfl, rfl, rfl, rfl⟩, Line.members_leave ho.members_nodup q.closed t,
      fun hopen => ?_⟩
    have hleave := Line.allPermits_leave ho.members_nodup t
    rw [← hopen] at hleave
    exact hleave

/-- The operation of a run is never started once its token has fired. -/
theorem not_started_run_of_fired (hf : p.hasFired t = true) (hnot : t ∉ p.started.map Prod.fst)
    (h : p.run es = some q) : t ∉ q.started.map Prod.fst := by
  refine (run_induction (motive := fun _ q => q.hasFired t = true ∧
    t ∉ q.started.map Prod.fst) ⟨hf, hnot⟩ ?_ h).2
  rintro es q e q' - ⟨hf, hnot⟩ hs
  have hoccurs := occurs_of_step hs
  refine ⟨hasFired_step hoccurs hf, ?_⟩
  cases hoccurs with
  | takeRun _ hopen =>
    intro hmem
    rcases List.mem_cons.mp hmem with rfl | hmem
    · cases hopen.symm.trans hf
    · exact hnot hmem
  | _ => exact hnot

end Pool

end LanguageHost
