import LanguageHost.Proofs.Pool.Replacement

/-!
# A closed pool stays closed

A pool is closed by somebody, or because its last worker is lost.  After that it winds up: workers
come back, and those who wait are told that there is none for them.  Nothing else is left to
happen, and three accounts say so, each of them kept by every step of a closed pool.

The first one counts the workers that were asked for (`Pool.orders`).  It grows only when an open
pool has shut down a worker that has to be replaced (`Pool.orders_step`), so in a closed pool no
worker is asked for, although one that was asked for before may still come.  The second one is
about the workers that the pool counts, because they were handed out, belong to jobs or are lost with
operations that panicked as they were called: those that are not counted any more are being shut
down (`Pool.Dismisses`).  The third one is about callers: whoever waited
when the pool was closed, or came later, gets no worker (`Pool.Barred`).

`Pool.WindsUp` puts the accounts together, and `Pool.closed_for_good` draws the conclusions.
-/

open scoped List

namespace LanguageHost

/-- The ticket of a job for which a new worker is being made. -/
def Job.ordering (j : Job) : List Ticket :=
  match j.phase with
  | .rebuilding => [j.ticket]
  | _ => []

namespace Pool

variable {p₀ p q q' r : Pool} {e : PoolEvent} {es later : List PoolEvent} {t : Ticket} {j : Job}
variable {back : List Worker}

/-! ### Workers that are asked for -/

/-- How many workers were asked for: those that came or could not be made, and those that are being
made. -/
def orders (p : Pool) : Nat := p.nextSerial + (p.jobs.flatMap Job.ordering).length

theorem ordering_of_ne (h : j.phase ≠ .rebuilding) : j.ordering = [] := by
  unfold Job.ordering
  split
  · next hp => exact absurd hp h
  · rfl

theorem ordering_of_rebuilding (h : j.phase = .rebuilding) : j.ordering.length = 1 := by
  rw [Job.ordering, h]
  rfl

theorem orders_endJob (ho : p.Orderly) (hj : p.job? t = some j) :
    p.orders = j.ordering.length + (p.endJob t).orders := by
  have hlen := (flatMap_endJob (g := Job.ordering) ho hj).length_eq
  have hserial : (p.endJob t).nextSerial = p.nextSerial := rfl
  rw [List.length_append] at hlen
  rw [orders, orders, hserial, hlen]
  omega

theorem orders_setJob (ho : p.Orderly) (hj : p.job? t = some j) (c : Job → Job) :
    (p.setJob t c).orders + j.ordering.length = (c j).ordering.length + p.orders := by
  have hend := orders_endJob ho hj
  have hset := (flatMap_setJob (g := Job.ordering) ho hj c).length_eq
  have hserial : (p.setJob t c).nextSerial = (p.endJob t).nextSerial := rfl
  rw [List.length_append] at hset
  rw [orders, hserial, hset, hend, orders]
  omega

/-- A job that asks for no worker, before and after, changes nothing. -/
theorem orders_setJob_of_nil (ho : p.Orderly) (hj : p.job? t = some j) (hold : j.ordering = [])
    {c : Job → Job} (hc : (c j).ordering = []) : (p.setJob t c).orders = p.orders := by
  have hset := orders_setJob ho hj c
  rw [hold, hc, List.length_nil] at hset
  omega

theorem orders_endJob_of_nil (ho : p.Orderly) (hj : p.job? t = some j) (hold : j.ordering = []) :
    (p.endJob t).orders = p.orders := by
  have hend := orders_endJob ho hj
  rw [hold, List.length_nil] at hend
  omega

/-- A worker is asked for only when an open pool has shut down one that has to be replaced. -/
theorem orders_step (ho : q.Orderly) (h : q.Occurs e q') :
    q'.orders = q.orders ∨ q.closed = false ∧ q'.orders = q.orders + 1 ∧
      ∃ t j, e = .jobDown t ∧ q.job? t = some j ∧ j.phase = .retiring := by
  have hoperating : ∀ {j : Job}, j.phase.operating = true → j.ordering = [] := by
    intro j hop
    refine ordering_of_ne ?_
    intro hp
    rw [hp] at hop
    cases hop
  cases h with
  | fireRunning _ _ hj hp =>
    exact .inl (orders_setJob_of_nil ho hj (hoperating (by rw [hp]; rfl)) rfl)
  | fireOwn hj hp =>
    exact .inl (orders_setJob_of_nil (p := q) ho hj (hoperating (by rw [hp]; rfl)) rfl)
  | crash hj hop => exact .inl (orders_endJob_of_nil (p := q) ho hj (hoperating hop))
  | takeRun =>
    refine .inl ?_
    simp [orders, Job.ordering]
  | finishOpen hj hop => exact .inl (orders_endJob_of_nil ho hj (hoperating hop))
  | @finishClosed _ r _ hj hop =>
    exact .inl (orders_setJob_of_nil ho hj (hoperating hop)
      (c := fun k => { k with phase := .returning r }) rfl)
  | @panic t j hj hop =>
    obtain rfl := ticket_eq_of_job? hj
    exact .inl (orders_setJob_of_nil ho hj (hoperating hop)
      (c := fun k => { k with phase := .retiring }) rfl)
  | @expire t j deadline hj hp _ =>
    obtain rfl := ticket_eq_of_job? hj
    exact .inl (orders_setJob_of_nil ho hj (hoperating (by rw [hp]; rfl))
      (c := fun k => { k with phase := .retiring }) rfl)
  | downReturning hj hp =>
    exact .inl (orders_endJob_of_nil (p := q) ho hj (ordering_of_ne (by rw [hp]; exact nofun)))
  | downClosed hj hp =>
    exact .inl (orders_endJob_of_nil (p := q) ho hj (ordering_of_ne (by rw [hp]; exact nofun)))
  | @downOpen t j hj hp hc =>
    refine .inr ⟨hc, ?_, t, j, rfl, hj, hp⟩
    have hset := orders_setJob ho hj fun k => { k with phase := .rebuilding }
    rw [ordering_of_ne (j := j) (by rw [hp]; exact nofun), ordering_of_rebuilding rfl] at hset
    exact hset.trans (Nat.add_comm _ _)
  | downDiscarding hj hp =>
    exact .inl (orders_endJob_of_nil (p := q) ho hj (ordering_of_ne (by rw [hp]; exact nofun)))
  | @builtOpen t j hj hp _ =>
    have hend := orders_endJob ho hj
    rw [ordering_of_rebuilding hp] at hend
    refine .inl ?_
    rw [hend, orders, orders]
    exact (Nat.add_right_comm _ _ _).trans (Nat.add_comm _ _)
  | @builtClosed t j hj hp _ =>
    have hset := orders_setJob ho hj fun k =>
      { k with worker := ⟨j.worker.slot, q.nextSerial⟩, phase := .discarding }
    rw [ordering_of_rebuilding hp, ordering_of_ne (by exact nofun), List.length_nil,
      Nat.zero_add] at hset
    exact .inl ((Nat.add_right_comm _ _ _).trans hset)
  | @builtNothing t j hj hp =>
    have hend := orders_endJob ho hj
    rw [ordering_of_rebuilding hp] at hend
    refine .inl ?_
    rw [hend, orders, orders]
    exact (Nat.add_right_comm _ _ _).trans (Nat.add_comm _ _)
  | _ => exact .inl rfl

/-! ### Workers that come back -/

/-- A job that owns a slot and runs no operation has its worker shut down. -/
theorem mem_retired_of_job (hs : q.JobsServe) (ho : q.Orderly) (hj : q.job? t = some j)
    (hop : j.phase.operating = false) (hown : j.phase.ownsSlot = true) : j.worker ∈ q.retired := by
  have hnot : j.phase ≠ .discarding := by
    intro hp
    rw [hp] at hown
    cases hown
  obtain ⟨⟨u, w⟩, hw, hu⟩ := List.mem_map.mp (ho.job_started j (mem_jobs_of_job? hj))
  obtain rfl : u = t := hu.trans (ticket_eq_of_job? hj)
  have hserves := hs u w j hw hj
  rw [hserves.worker_eq hnot]
  exact hserves.retired hop

theorem counted_of_manned (hmanned : p.manned ~ back ++ q.manned) (hlost : q.lost = p.lost) :
    p.counted ~ back ++ q.counted := by
  rw [counted, counted, hlost, ← List.append_assoc]
  exact hmanned.append_right _

/-- The workers in `back` are those that were counted before and are not any more.  The shutdown of
each of them has begun, and so has that of every worker that was made meanwhile. -/
structure Dismisses (p : Pool) (back : List Worker) (q : Pool) : Prop where
  counted : p.counted ~ back ++ q.counted
  retired : ∀ w ∈ back, w ∈ q.retired
  made : ∀ w ∈ q.made, w ∈ p.made ∨ w ∈ q.retired

/-- Nothing has changed about the workers that are counted. -/
theorem dismisses_nothing (hcounted : p.counted ~ q.counted) (hmade : q.made = p.made) :
    Dismisses p [] q :=
  ⟨hcounted, nofun, fun _ hw => .inl (hmade ▸ hw)⟩

/-- One worker has come back. -/
theorem dismisses_one {w : Worker} (hmanned : p.manned ~ w :: q.manned) (hlost : q.lost = p.lost)
    (hw : w ∈ q.retired) (hmade : q.made = p.made) : Dismisses p [w] q := by
  refine ⟨counted_of_manned hmanned hlost, ?_, fun _ hw => .inl (hmade ▸ hw)⟩
  intro v hv
  rw [List.mem_singleton.mp hv]
  exact hw

/-- What a step of a closed pool does to the workers that are counted. -/
theorem dismisses_step (ho : q.Orderly) (hs : q.JobsServe) (hc : q.closed = true)
    (h : q.Occurs e q') : ∃ back, Dismisses q back q' := by
  have howns : ∀ {j : Job}, j.phase.ownsSlot = true → j.manning = [j.worker] := fun h => if_pos h
  -- A job keeps its slot, gives it up, or ends.
  have hkeep : ∀ {t j} {c : Job → Job}, q.job? t = some j → j.phase.ownsSlot = true →
      (c j).manning = [j.worker] → q.counted ~ (q.setJob t c).counted := by
    intro t j c hj hown hc
    have hmanned : q.manned ~ [] ++ (q.setJob t c).manned := by
      rw [manned_eq_gathered, List.nil_append, manned_eq_gathered]
      exact gathered_setJob_of_eq ho hj (hc.trans (howns hown).symm)
    exact counted_of_manned hmanned rfl
  have hgive : ∀ {t j} {c : Job → Job}, q.job? t = some j → j.phase.ownsSlot = true →
      (c j).manning = [] → q.manned ~ j.worker :: (q.setJob t c).manned := by
    intro t j c hj hown hc
    have hperm := gathered_setJob_of_nil (f := id) ho hj hc
    rwa [← manned_eq_gathered, ← manned_eq_gathered, howns hown] at hperm
  have hend : ∀ {t j}, q.job? t = some j → q.manned ~ j.manning ++ (q.endJob t).manned := by
    intro t j hj
    rw [manned_eq_gathered, manned_eq_gathered]
    exact gathered_endJob ho hj
  have hopen : q.closed = false → ∃ back, Dismisses q back q' := fun h => by cases h.symm.trans hc
  cases h with
  | @fireRunning t j _ _ hj hp =>
    have hcounted := hkeep hj (by rw [hp]; rfl)
      (c := fun k => { k with phase := .winding (q.now + q.grace) }) rfl
    exact ⟨[], dismisses_nothing hcounted rfl⟩
  | @fireOwn t j hj hp =>
    have hcounted := hkeep hj (by rw [hp]; rfl)
      (c := fun k => { k with phase := .winding (q.now + q.grace) }) rfl
    exact ⟨[], dismisses_nothing hcounted rfl⟩
  | @crash t j hj hop =>
    have hmanned := hend hj
    rw [howns (ownsSlot_of_operating hop)] at hmanned
    exact ⟨[], dismisses_nothing ((hmanned.append_right _).trans List.perm_middle.symm) rfl⟩
  | takeRun _ _ h => exact hopen h
  | takeHeld _ _ h => exact hopen h
  | finishOpen _ _ h => exact hopen h
  | @finishClosed t r j hj hop _ =>
    have hmanned := hgive hj (ownsSlot_of_operating hop)
      (c := fun k => { k with phase := .returning r }) rfl
    exact ⟨[j.worker], dismisses_one hmanned rfl List.mem_cons_self rfl⟩
  | @panic t j hj hop =>
    obtain rfl := ticket_eq_of_job? hj
    have hcounted := hkeep hj (ownsSlot_of_operating hop)
      (c := fun k => { k with phase := .retiring }) rfl
    exact ⟨[], dismisses_nothing hcounted rfl⟩
  | @expire t j deadline hj hp _ =>
    obtain rfl := ticket_eq_of_job? hj
    have hcounted := hkeep hj (by rw [hp]; rfl) (c := fun k => { k with phase := .retiring }) rfl
    exact ⟨[], dismisses_nothing hcounted rfl⟩
  | @downReturning t j r hj hp =>
    have hmanned := hend hj
    rw [Job.manning, hp] at hmanned
    exact ⟨[], dismisses_nothing (counted_of_manned hmanned rfl) rfl⟩
  | @downClosed t j hj hp _ =>
    have hmanned := hend hj
    rw [howns (by rw [hp]; rfl)] at hmanned
    have hretired := mem_retired_of_job hs ho hj (by rw [hp]; rfl) (by rw [hp]; rfl)
    exact ⟨[j.worker], dismisses_one hmanned rfl hretired rfl⟩
  | downOpen _ _ h => exact hopen h
  | @downDiscarding t j hj hp =>
    have hmanned := hend hj
    rw [Job.manning, hp] at hmanned
    exact ⟨[], dismisses_nothing (counted_of_manned hmanned rfl) rfl⟩
  | builtOpen _ _ h => exact hopen h
  | @builtClosed t j hj hp _ =>
    have hmanned := hgive hj (by rw [hp]; rfl)
      (c := fun k => { k with worker := ⟨j.worker.slot, q.nextSerial⟩, phase := .discarding }) rfl
    have hretired := mem_retired_of_job hs ho hj (by rw [hp]; rfl) (by rw [hp]; rfl)
    refine ⟨[j.worker], counted_of_manned hmanned rfl, ?_, ?_⟩
    · intro w hw
      rw [List.mem_singleton.mp hw]
      exact List.mem_cons_of_mem _ hretired
    · intro w hw
      rcases List.mem_append.mp hw with hold | hnew
      · exact .inl hold
      · rw [List.mem_singleton.mp hnew]
        exact .inr List.mem_cons_self
  | @builtNothing t j hj hp =>
    have hmanned := hend hj
    rw [howns (by rw [hp]; rfl)] at hmanned
    have hretired := mem_retired_of_job hs ho hj (by rw [hp]; rfl) (by rw [hp]; rfl)
    exact ⟨[j.worker], dismisses_one hmanned rfl hretired rfl⟩
  | releaseOpen _ h => exact hopen h
  | @releaseClosed t w hh _ =>
    have hmanned := gathered_held (f := id) (g := Job.manning) ho hh
    rw [← manned_eq_gathered, ← manned_eq_gathered] at hmanned
    exact ⟨[w], dismisses_one hmanned rfl List.mem_cons_self rfl⟩
  | close h => exact hopen h
  | _ => exact ⟨[], dismisses_nothing (.refl _) rfl⟩

theorem Dismisses.trans {back' : List Worker} (h : Dismisses p back q) (h' : Dismisses q back' r)
    (hkept : q.retired ⊆ r.retired) : Dismisses p (back ++ back') r where
  counted := by
    rw [List.append_assoc]
    exact h.counted.trans (h'.counted.append_left back)
  retired := by
    intro w hw
    rcases List.mem_append.mp hw with hw | hw
    · exact hkept (h.retired w hw)
    · exact h'.retired w hw
  made := by
    intro w hw
    rcases h'.made w hw with hw | hw
    · exact (h.made w hw).imp_right fun hw => hkept hw
    · exact .inr hw

/-! ### Callers without a worker -/

/-- In a run a caller is told of a failure, before or after its token has fired, and of nothing
else later. -/
structure Fails (p : Pool) (later : List PoolEvent) (q : Pool) (t : Ticket) (err : HostError)
    (fired : Bool) : Prop where
  told : ∃ e r r', Happens p later e r r' ∧ r.answer? t = none ∧
    r'.answer? t = some (.error err) ∧ r'.hasFired t = fired
  kept : q.answer? t = some (.error err)

/-- What has become of a caller that waited in a closed pool, or that came later. -/
inductive Barred (p : Pool) (later : List PoolEvent) (q : Pool) (t : Ticket) : Prop where
  /-- It still waits. -/
  | waits (hmember : t ∈ q.members)
  /-- It has gone away. -/
  | gone (hgone : .withdraw t ∈ later)
  /-- It was told that the pool is closed. -/
  | refused (hfails : Fails p later q t .poolClosed false)
  /-- It asked for a run, and its token fired first. -/
  | cancelled (hfails : Fails p later q t .operationCancelled true)

theorem Fails.concat {err : HostError} {fired : Bool} (h : Fails p later q t err fired)
    (ho : q.Orderly) (hs : q.step e = some q') : Fails p (later ++ [e]) q' t err fired where
  told := by
    obtain ⟨e', r, r', hwhen, htold⟩ := h.told
    exact ⟨e', r, r', hwhen.concat e, htold⟩
  kept := answer?_step ho (occurs_of_step hs) h.kept

/-- A caller is told the failure that there is for whoever waits. -/
theorem barred_of_told (hq : p.run later = some q) (hs : q.step e = some q')
    (hnone : q.answer? t = none) (htold : q'.answer? t = some (.error (q'.lineError t))) :
    Barred p (later ++ [e]) q' t := by
  have hwhen : Happens p (later ++ [e]) e q q' := ⟨later, [], rfl, hq, hs⟩
  unfold lineError at htold
  cases hfired : q'.hasFired t with
  | true =>
    rw [hfired, if_pos rfl] at htold
    exact .cancelled ⟨⟨e, q, q', hwhen, hnone, htold, hfired⟩, htold⟩
  | false =>
    rw [hfired, if_neg Bool.false_ne_true] at htold
    exact .refused ⟨⟨e, q, q', hwhen, hnone, htold, hfired⟩, htold⟩

/-- Nobody in the line of a closed pool leaves it with a worker. -/
theorem barred_of_members (hu : q.Used) (hc : q.closed = true) (hq : p.run later = some q)
    (hs : q.step e = some q') (hmember : t ∈ q.members) : Barred p (later ++ [e]) q' t := by
  by_cases hmember' : t ∈ q'.members
  · exact .waits hmember'
  · rcases leaves_closed hu hc hs hmember hmember' with rfl | htold
    · exact .gone (List.mem_append_right _ List.mem_cons_self)
    · exact barred_of_told hq hs (answer?_of_members hu.orderly hmember) htold

/-- Whoever comes to a closed pool waits, unless its token has fired already. -/
theorem barred_of_asked (hu : q.Used) (hq : p.run later = some q) (hs : q.step e = some q')
    (hnew : ¬ t < q.asked) (ht : t < q'.asked) : Barred p (later ++ [e]) q' t := by
  obtain ⟨n, p₀, es, h₀, hrun⟩ := id hu
  rcases asked_step (queued_run h₀ hrun) hs ht hnew with hline | ⟨hfired, htold⟩
  · exact .waits (Line.mem_inTurn.mp hline)
  · have hnone : q.answer? t = none := by
      refine answer?_eq_none ?_
      intro hmem
      refine hnew (hu.orderly.callers_asked t ?_)
      exact List.mem_append_right _ (List.mem_append_right _ hmem)
    refine barred_of_told hq hs hnone ?_
    rw [lineError, hfired]
    exact htold

theorem Barred.step (h : Barred p later q t) (hu : q.Used) (hc : q.closed = true)
    (hq : p.run later = some q) (hs : q.step e = some q') : Barred p (later ++ [e]) q' t := by
  cases h with
  | waits hmember => exact barred_of_members hu hc hq hs hmember
  | gone hgone => exact .gone (List.mem_append_left _ hgone)
  | refused hfails => exact .refused (hfails.concat hu.orderly hs)
  | cancelled hfails => exact .cancelled (hfails.concat hu.orderly hs)

/-- Whoever waits no longer, has not gone away, and has no token that fired, was told that the pool
is closed. -/
theorem Barred.answer?_eq (h : Barred p later q t) (hq : p.run later = some q)
    (hline : t ∉ q.members) (hstays : .withdraw t ∉ later) (hnot : q.hasFired t = false) :
    q.answer? t = some (.error .poolClosed) := by
  cases h with
  | waits hmember => exact absurd hmember hline
  | gone hgone => exact absurd hgone hstays
  | refused hfails => exact hfails.kept
  | cancelled hfails =>
    obtain ⟨e, r, r', ⟨before, after, rfl, hr, hs⟩, -, -, hfired⟩ := hfails.told
    obtain ⟨r₁, hr₁, hafter⟩ := run_append_eq_some.mp hq
    cases hr₁.symm.trans hr
    rw [run_cons, hs, Option.bind_some] at hafter
    cases (hasFired_run hafter hfired).symm.trans hnot

/-! ### All states of a closed pool -/

/-- What has happened in a closed pool that has gone on. -/
structure WindsUp (p : Pool) (later : List PoolEvent) (q : Pool) : Prop where
  closed : q.closed = true
  /-- No worker was asked for. -/
  orders_eq : q.orders = p.orders
  /-- No operation was started. -/
  started_eq : q.started = p.started
  /-- Nobody was handed a worker. -/
  held_subset : q.held ⊆ p.held
  /-- The workers that have come back are shut down. -/
  dismisses : ∃ back, Dismisses p back q
  /-- Whoever waited, or has come since, got no worker. -/
  barred : ∀ t, t ∈ p.members ∨ p.asked ≤ t → t < q.asked → Barred p later q t

theorem windsUp_step (hu : q.Used) (h : WindsUp p later q) (hq : p.run later = some q)
    (hs : q.step e = some q') : WindsUp p (later ++ [e]) q' := by
  have hoccurs := occurs_of_step hs
  have hc := h.closed
  refine
    { closed := closed_of_step hoccurs hc
      orders_eq := ?_
      started_eq := (started_step_of_closed hoccurs hc).trans h.started_eq
      held_subset := fun _ hmem => h.held_subset (held_step_of_closed hoccurs hc hmem)
      dismisses := ?_
      barred := ?_ }
  · rcases orders_step hu.orderly hoccurs with hsame | ⟨hopen, -⟩
    · exact hsame.trans h.orders_eq
    · cases hopen.symm.trans hc
  · obtain ⟨n, p₀, es, h₀, hrun⟩ := id hu
    obtain ⟨back, hback⟩ := h.dismisses
    obtain ⟨back', hback'⟩ := dismisses_step hu.orderly (jobsServe_run h₀ hrun) hc hoccurs
    exact ⟨back ++ back', hback.trans hback' (retired_suffix hoccurs).subset⟩
  · intro t ht hasked
    by_cases hold : t < q.asked
    · exact (h.barred t ht hold).step hu hc hq hs
    · exact barred_of_asked hu hq hs hold hasked

theorem windsUp_run (hu : p.Used) (hc : p.closed = true) (hq : p.run later = some q) :
    q.Used ∧ WindsUp p later q := by
  refine run_induction (motive := fun later q => q.Used ∧ WindsUp p later q) ?_ ?_ hq
  · refine ⟨hu, hc, rfl, rfl, List.Subset.refl _, ⟨[], dismisses_nothing (.refl _) rfl⟩, ?_⟩
    intro t ht hasked
    rcases ht with hmember | hnew
    · exact .waits hmember
    · exact absurd hasked (Nat.not_lt_of_le hnew)
  · intro later q e q' hrun hold hs
    exact ⟨hold.1.step hs, windsUp_step hold.1 hold.2 hrun hs⟩

/-- In this step a pool is closed: by somebody, or because no worker is left. -/
structure Closes (p : Pool) (e : PoolEvent) (p' : Pool) : Prop where
  before : p.closed = false
  after : p'.closed = true
  cause : e = .close ∨ (∃ t, e = .built t false) ∧ p'.live = 0

theorem closes_run {n : Nat} (h₀ : Fresh n p₀) (h : p₀.run es = some p) (hc : p.closed = true) :
    ∃ e r r', Happens p₀ es e r r' ∧ Closes r e r' := by
  refine run_induction (motive := fun es q => q.closed = true →
    ∃ e r r', Happens p₀ es e r r' ∧ Closes r e r') ?_ ?_ h hc
  · obtain ⟨-, name, grace, now, rfl⟩ := fresh_eq h₀
    exact nofun
  · intro es q e q' hrun hold hs hclosed
    cases hc : q.closed with
    | true =>
      obtain ⟨e', r, r', hwhen, hcloses⟩ := hold hc
      exact ⟨e', r, r', hwhen.concat e, hcloses⟩
    | false =>
      refine ⟨e, q, q', ⟨es, [], rfl, hrun, hs⟩, hc, hclosed, ?_⟩
      have hopen : ∀ {P : Prop}, q.closed = true → P := fun h => by cases hc.symm.trans h
      have hoccurs := occurs_of_step hs
      cases hoccurs with
      | close => exact .inl rfl
      | @builtNothing t j hj hp =>
        rcases Bool.or_eq_true_iff.mp hclosed with hbefore | hnone
        · exact hopen hbefore
        · exact .inr ⟨⟨t, rfl⟩, of_decide_eq_true hnone⟩
      | _ => exact hopen hclosed

/-- In a run in which nobody goes away before a shutdown is over, a worker whose shutdown has begun
is shut down once: its shutdown is over, or under way. -/
theorem shut_down_of_retired {n : Nat} (h₀ : Fresh n p₀) (hes : ∀ e ∈ es, e.abandons = false)
    (h : p₀.run es = some p) {w : Worker} (hw : w ∈ p.retired) :
    p.retired.count w = 1 ∧ (w ∈ p₀.shutDown es ∨ w ∈ p.underway) := by
  have hp := custody_run h₀ hes h
  have hretired : p.retired.Nodup := (List.nodup_append.mp hp.nodup).1
  exact ⟨List.count_eq_one_of_mem hretired hw, List.mem_append.mp (hp.retired_perm.mem_iff.mp hw)⟩

/-- Closing a pool again does nothing. -/
theorem step_close_of_closed (hc : p.closed = true) : p.step .close = some p := by
  rw [step, close, if_pos hc]

/-- A pool is closed by somebody, or because no worker is left, and then it winds up whatever else
happens (`WindsUp`): it stays closed, no worker is asked for or handed out, and whoever waits, or
comes later, is told that it is closed, unless it goes away or asked for a run whose token fired
first.  Nothing keeps it from being told, and at rest nobody waits.  The pool has no idle worker,
and closing it again changes nothing.  It counts the workers that were handed out or belong to jobs
that own their slots, and one for each operation that panicked as it was called.  These become fewer
as workers come back, each of which is shut down, as is every worker that is made too late: once, if
nobody goes away before a shutdown is over. -/
theorem closed_for_good {n : Nat} (h₀ : Fresh n p₀) (hp : p₀.run es = some p)
    (hc : p.closed = true) (hq : p.run later = some q) :
    (∃ e r r', Happens p₀ es e r r' ∧ Closes r e r') ∧
    WindsUp p later q ∧
    (∀ t, t ∈ p.members ∨ p.asked ≤ t → t < q.asked → t ∉ q.members → .withdraw t ∉ later →
      q.hasFired t = false → q.answer? t = some (.error .poolClosed)) ∧
    (∀ t ∈ q.members, ∃ e q', (e = .learn t ∨ e = .take t) ∧ q.step e = some q' ∧
      q'.answer? t = some (.error (q.lineError t))) ∧
    (q.AtRest → q.members = []) ∧
    (q.idle = [] ∧ q.step .close = some q) ∧
    (q.live = q.held.length + q.owners.length + crashes (es ++ later) ∧ q.live ≤ p.live) ∧
    ∃ back, Dismisses p back q ∧ p.live = back.length + q.live ∧
      ((∀ e ∈ es ++ later, e.abandons = false) → ∀ w, w ∈ back ∨ w ∈ q.made ∧ w ∉ p.made →
        q.retired.count w = 1 ∧ (w ∈ p₀.shutDown (es ++ later) ∨ w ∈ q.underway)) := by
  have hrun : p₀.run (es ++ later) = some q := run_append_eq_some.mpr ⟨p, hp, hq⟩
  obtain ⟨hu, hwinds⟩ := windsUp_run ⟨n, p₀, es, h₀, hp⟩ hc hq
  obtain ⟨back, hback⟩ := hwinds.dismisses
  have hidle : q.idle = [] := hu.idle_eq hwinds.closed
  have hleft : p.live = back.length + q.live := by
    rw [(live_eq_of_run h₀ hp).1, (live_eq_of_run h₀ hrun).1, hback.counted.length_eq,
      List.length_append]
  refine ⟨closes_run h₀ hp hc, hwinds, ?_, ?_, ?_, ⟨hidle, step_close_of_closed hwinds.closed⟩,
    ⟨?_, by omega⟩, back, hback, hleft, ?_⟩
  · intro t ht hasked hline hstays hnot
    exact (hwinds.barred t ht hasked).answer?_eq hq hline hstays hnot
  · intro t ht
    exact learns_lineError hu.orderly hwinds.closed ht
  · intro hrest
    have hturn := inTurn_eq_nil_of_atRest hu.orderly (queued_run h₀ hrun) hrest (.inl hwinds.closed)
    exact List.nil_perm.mp (hturn ▸ q.inTurn_perm_members)
  · rw [(live_eq_of_run h₀ hrun).2, hidle, List.length_nil, Nat.zero_add]
  · intro hes w hw
    refine shut_down_of_retired h₀ hes hrun ?_
    rcases hw with hw | ⟨hmade, hnew⟩
    · exact hback.retired w hw
    · exact (hback.made w hmade).resolve_left hnew

/-- Of three workers one is being replaced when the pool is closed, one was handed out, and one has
an operation under way; all of them come back.  Of two callers who wait for a worker the token of
one fires; the other one is told that the pool is closed, and so is one who comes later. -/
theorem closed_for_good_while_replacing :
    ∃ p₀ p q later, Fresh 3 p₀ ∧
      p₀.run [.askRun false, .take 0, .ask, .take 1, .askRun false, .take 2, .ask, .askRun false,
        .panic 0, .jobDown 0, .close] = some p ∧
      later = [.ask, .fire 4, .learn 4, .learn 3, .learn 5, .built 0 true, .jobDown 0, .release 1,
        .released 1, .finish 2 (.ok .null), .jobDown 2, .close] ∧
      p.run later = some q ∧ p.closed = true ∧ p.live = 3 ∧ q.live = 0 ∧ q.orders = 4 ∧
      WindsUp p later q ∧ q.answer? 3 = some (.error .poolClosed) ∧
      q.answer? 5 = some (.error .poolClosed) ∧ q.hasFired 4 = true ∧
      ∃ back, Dismisses p back q ∧ back.length = 3 ∧ ∀ w ∈ back, q.retired.count w = 1 := by
  let p₀ := opened "trio" 10 0 (firstWorkers 3) 3
  have h₀ : Fresh 3 p₀ := fresh_opened (by decide) "trio" 10 0
  let es : List PoolEvent := [.askRun false, .take 0, .ask, .take 1, .askRun false, .take 2, .ask,
    .askRun false, .panic 0, .jobDown 0, .close]
  let later : List PoolEvent := [.ask, .fire 4, .learn 4, .learn 3, .learn 5, .built 0 true,
    .jobDown 0, .release 1, .released 1, .finish 2 (.ok .null), .jobDown 2, .close]
  let p := (p₀.run es).get (by decide +kernel)
  have hp : p₀.run es = some p := (Option.some_get _).symm
  let q := (p.run later).get (by decide +kernel)
  have hq : p.run later = some q := (Option.some_get _).symm
  have hc : p.closed = true := by decide +kernel
  obtain ⟨-, hwinds, htold, -, -, -, -, back, hback, hleft, hshut⟩ := closed_for_good h₀ hp hc hq
  have hwaited : q.answer? 3 = some (.error .poolClosed) :=
    htold 3 (by decide +kernel) (by decide +kernel) (by decide +kernel) (by simp [later])
      (by decide +kernel)
  have hcame : q.answer? 5 = some (.error .poolClosed) :=
    htold 5 (by decide +kernel) (by decide +kernel) (by decide +kernel) (by simp [later])
      (by decide +kernel)
  have hlive : p.live = 3 := by decide +kernel
  have hnone : q.live = 0 := by decide +kernel
  have hes : ∀ e ∈ es ++ later, e.abandons = false := by simp [es, later, PoolEvent.abandons]
  exact ⟨p₀, p, q, later, h₀, hp, rfl, hq, hc, hlive, hnone, by decide +kernel, hwinds, hwaited,
    hcame, by decide +kernel, back, hback, by omega, fun w hw => (hshut hes w (.inl hw)).1⟩

/-- Somebody releases the only worker of a closed pool and goes away before it was shut down: the
worker was given back, and its shutdown is neither over nor under way. -/
theorem not_shut_down_after_abandoned_release :
    ∃ p₀ p q, Fresh 1 p₀ ∧ p₀.run [.ask, .take 0, .close] = some p ∧ p.closed = true ∧
      p.run [.release 0, .abandonRelease 0] = some q ∧ p.held = [(0, ⟨0, 0⟩)] ∧ q.held = [] ∧
      p₀.shutDown [.ask, .take 0, .close, .release 0, .abandonRelease 0] = [] ∧
      q.underway = [] := by
  let p₀ := opened "single" 10 0 (firstWorkers 1) 1
  have h₀ : Fresh 1 p₀ := fresh_opened (by decide) "single" 10 0
  let es : List PoolEvent := [.ask, .take 0, .close]
  let p := (p₀.run es).get (by decide +kernel)
  have hp : p₀.run es = some p := (Option.some_get _).symm
  let q := (p.run [.release 0, .abandonRelease 0]).get (by decide +kernel)
  have hq : p.run [.release 0, .abandonRelease 0] = some q := (Option.some_get _).symm
  exact ⟨p₀, p, q, h₀, hp, by decide +kernel, hq, by decide +kernel, by decide +kernel,
    by decide +kernel, by decide +kernel⟩

end Pool

end LanguageHost
