import LanguageHost.Proofs.Engine.Pools
import LanguageHost.Proofs.Pool.Jobs
import LanguageHost.Proofs.Pool.Turns

/-!
# What goes on in a closed pool

No operation is started in a closed pool.  One that is under way on a worker, and whose token does
not fire, comes to its own end; its worker is shut down, and its caller gets its result
(`Pool.Drains`).  A caller that waits for a worker, and whose token does not fire, is told that the
pool is closed (`Pool.TurnedAway`).
-/

namespace LanguageHost

namespace Pool

variable {p q q' : Pool} {e : PoolEvent} {es : List PoolEvent} {t u : Ticket} {w : Worker}
variable {r : Outcome Json} {j : Job}

/-! ### What a step leaves alone -/

/-- The job of an operation that was not given up has sent nothing yet. -/
def Unsent (p : Pool) : Prop :=
  ∀ t j, p.job? t = some j → (j.phase.operating = true ∨ ∃ r, j.phase = .returning r) →
    p.sent? t = none

theorem unsent_step {p₀ : Pool} (hu : q.Unsent) (ho : q.Orderly) (htr : Traced p₀ es q)
    (h : q.Occurs e q') : q'.Unsent := by
  intro t j hj hphase
  -- Where the job has ended, or was given up, there is nothing to show.
  have hended : q'.job? t = none → q'.sent? t = none := fun hnone => by cases hnone.symm.trans hj
  have hgiven : ∀ {k}, q'.job? t = some k → k.phase.operating = false →
      (∀ r, k.phase ≠ .returning r) → q'.sent? t = none := by
    intro k hk hop hret
    obtain rfl := Option.some.inj (hj.symm.trans hk)
    rcases hphase with hop' | ⟨r, hr⟩
    · cases hop.symm.trans hop'
    · exact absurd hr (hret r)
  by_cases ht : e.jobTicket? = some t
  · cases jobStep_of_step h ht with
    | stays hjob hsent => exact hsent.trans (hu t j (hjob.symm.trans hj) hphase)
    | starts hg _ _ _ hsent =>
      refine hsent.trans (Option.eq_none_iff_forall_ne_some.mpr fun r hr => ?_)
      obtain ⟨w, hw, -⟩ := htr.earned t r hr
      exact not_started_of_members ho (mem_members.mpr (.inr hg)) (List.mem_map_of_mem hw)
    | told _ hk hp _ hsent => exact hsent.trans (hu t _ hk (.inl (by rw [hp]; rfl)))
    | returning hk hop _ _ hsent => exact hsent.trans (hu t _ hk (.inl hop))
    | retiring _ _ hjob => exact hgiven hjob rfl nofun
    | rebuilding _ _ hjob => exact hgiven hjob rfl nofun
    | discarding _ _ _ _ hjob => exact hgiven hjob rfl nofun
    | back _ _ _ hnone => exact hended hnone
    | lost _ _ hnone => exact hended hnone
    | shut _ _ hnone => exact hended hnone
    | replaced _ _ _ hnone => exact hended hnone
    | shrunk _ _ hnone => exact hended hnone
  · obtain ⟨hjobs, hsents⟩ := job?_step_of_ne h ht
    exact hsents.trans (hu t j (hjobs.symm.trans hj) hphase)

theorem unsent_run {n : Nat} {p₀ : Pool} (h₀ : Fresh n p₀) (h : p₀.run es = some q) :
    q.Unsent := by
  refine run_induction (motive := fun _ q => q.Unsent) ?_ ?_ h
  · obtain ⟨-, name, grace, now, rfl⟩ := fresh_eq h₀
    exact nofun
  · intro es q e q' hq hu hs
    exact unsent_step hu (accounted_run h₀ hq).1 (traced_run h₀ hq) (occurs_of_step hs)

/-- What a caller was told stays so. -/
theorem answer?_step (ho : q.Orderly) (h : q.Occurs e q') (ha : q.answer? t = some r) :
    q'.answer? t = some r := by
  obtain ⟨new, hnew⟩ := answers_suffix h
  have hnodup : (q'.answers.map Prod.fst).Nodup := by
    have hcallers := (orderly_step ho h).callers_nodup
    exact (List.nodup_append.mp (List.nodup_append.mp hcallers).2.1).2.1
  obtain ⟨a, hfind, rfl⟩ := Option.map_eq_some_iff.mp ha
  have hmem : a ∈ q.answers := List.mem_of_find?_eq_some hfind
  have hticket : a.1 = t := by simpa using List.find?_some hfind
  have hnone : new.find? (fun a => a.1 = t) = none := by
    refine List.find?_eq_none.mpr fun b hb hbt => ?_
    rw [← hnew, List.map_append] at hnodup
    have hsame : b.1 = a.1 := by simpa [hticket] using hbt
    exact List.disjoint_of_nodup_append hnodup (List.mem_map_of_mem hb)
      (hsame ▸ List.mem_map_of_mem hmem)
  rw [answer?, ← hnew, List.find?_append, hnone, Option.none_or, hfind, Option.map_some]

/-- Whoever watches a job was told nothing. -/
theorem answer?_of_watching (ho : q.Orderly) (ht : t ∈ q.watching) : q.answer? t = none := by
  have hrest := (List.nodup_append.mp ho.callers_nodup).2.1
  exact answer?_eq_none fun hmem => List.disjoint_of_nodup_append hrest ht hmem

/-- No operation is started in a closed pool. -/
theorem started_step_of_closed (h : q.Occurs e q') (hc : q.closed = true) :
    q'.started = q.started := by
  cases h with
  | takeRun _ _ hopen => cases hopen.symm.trans hc
  | _ => rfl

/-! ### Operations -/

/-- The result with which the operation of a ticket ends first among events: its own, or the
failure of an operation that panicked. -/
def endsWith? (p : Pool) (t : Ticket) (es : List PoolEvent) : Option (Outcome Json) :=
  es.findSome? fun
    | .finish u r => if u = t then some r else none
    | .panic u => if u = t then some (.error p.panicError) else none
    | _ => none

theorem endsWith?_concat (p : Pool) (t : Ticket) (es : List PoolEvent) (e : PoolEvent) :
    p.endsWith? t (es ++ [e]) = (p.endsWith? t es).or (p.endsWith? t [e]) :=
  List.findSome?_append ..

theorem endsWith?_of_some (h : p.endsWith? t es = some r) (e : PoolEvent) :
    p.endsWith? t (es ++ [e]) = some r := by
  rw [endsWith?_concat, h, Option.some_or]

theorem endsWith?_of_none (h : p.endsWith? t es = none) (e : PoolEvent) :
    p.endsWith? t (es ++ [e]) = p.endsWith? t [e] := by
  rw [endsWith?_concat, h, Option.none_or]

/-- Where an operation is that was under way on a worker when a pool was closed, after events that
have come since. -/
inductive Drains (p : Pool) (t : Ticket) (w : Worker) (es : List PoolEvent) (q : Pool) : Prop where
  | underway (hjob : q.job? t = some ⟨t, w, .running⟩) (hsent : q.sent? t = none)
      (hend : p.endsWith? t es = none)
  /-- It has ended, and its result is sent as soon as its worker has been shut down. -/
  | returning {r : Outcome Json} (hjob : q.job? t = some ⟨t, w, .returning r⟩)
      (hsent : q.sent? t = none) (hend : p.endsWith? t es = some r) (hretired : w ∈ q.retired)
  /-- It has panicked, which was told at once, and its worker is being shut down. -/
  | retiring {r : Outcome Json} (hjob : q.job? t = some ⟨t, w, .retiring⟩)
      (hsent : q.sent? t = some r) (hend : p.endsWith? t es = some r) (hretired : w ∈ q.retired)
  /-- Its result was sent, and its worker has been shut down. -/
  | ended {r : Outcome Json} (hjob : q.job? t = none) (hsent : q.sent? t = some r)
      (hend : p.endsWith? t es = some r) (hretired : w ∈ q.retired)

namespace Drains

/-- The result that was sent is the one with which the operation has ended. -/
theorem endsWith?_of_sent (h : Drains p t w es q) (hs : q.sent? t = some r) :
    p.endsWith? t es = some r := by
  cases h with
  | underway _ hsent => cases hsent.symm.trans hs
  | returning _ hsent => cases hsent.symm.trans hs
  | retiring _ hsent hend =>
    rw [← hs, hsent]
    exact hend
  | ended _ hsent hend =>
    rw [← hs, hsent]
    exact hend

/-- Where nothing becomes of the job of an operation, it stays where it is. -/
theorem of_eq (h : Drains p t w es q) (hjobs : q'.job? t = q.job? t)
    (hsents : q'.sent? t = q.sent? t) (hkept : q.retired ⊆ q'.retired)
    (he : p.endsWith? t es = none → p.endsWith? t [e] = none) : Drains p t w (es ++ [e]) q' := by
  cases h with
  | underway hjob hsent hend =>
    exact .underway (hjobs.trans hjob) (hsents.trans hsent)
      ((endsWith?_of_none hend e).trans (he hend))
  | returning hjob hsent hend hretired =>
    exact .returning (hjobs.trans hjob) (hsents.trans hsent) (endsWith?_of_some hend e)
      (hkept hretired)
  | retiring hjob hsent hend hretired =>
    exact .retiring (hjobs.trans hjob) (hsents.trans hsent) (endsWith?_of_some hend e)
      (hkept hretired)
  | ended hjob hsent hend hretired =>
    exact .ended (hjobs.trans hjob) (hsents.trans hsent) (endsWith?_of_some hend e)
      (hkept hretired)

/-- An event that is not about the job of an operation leaves it where it is. -/
theorem of_ne (h : Drains p t w es q) (ho : q.Occurs e q') (ht : e.jobTicket? ≠ some t) :
    Drains p t w (es ++ [e]) q' := by
  obtain ⟨hjobs, hsents⟩ := job?_step_of_ne ho ht
  refine h.of_eq hjobs hsents (retired_suffix ho).subset fun _ => ?_
  cases e with
  | finish u r =>
    have hne : u ≠ t := fun heq => ht (congrArg some heq)
    simp [endsWith?, hne]
  | panic u =>
    have hne : u ≠ t := fun heq => ht (congrArg some heq)
    simp [endsWith?, hne]
  | _ => rfl

/-- A caller that takes no worker leaves the job of an operation where it is. -/
theorem of_take (h : Drains p t w es q) (hc : q.closed = true) (ho : q.Occurs (.take u) q') :
    Drains p t w (es ++ [.take u]) q' := by
  cases ho with
  | takeRun _ _ hopen => cases hopen.symm.trans hc
  | _ => exact h.of_eq rfl rfl (List.Subset.refl _) fun _ => rfl

/-- The job of the operation tells where it is. -/
theorem job_cases (h : Drains p t w es q) (hj : q.job? t = some j) :
    (j = ⟨t, w, .running⟩ ∧ q.sent? t = none ∧ p.endsWith? t es = none) ∨
      (∃ r, j = ⟨t, w, .returning r⟩ ∧ q.sent? t = none ∧ p.endsWith? t es = some r ∧
        w ∈ q.retired) ∨
      ∃ r, j = ⟨t, w, .retiring⟩ ∧ q.sent? t = some r ∧ p.endsWith? t es = some r ∧
        w ∈ q.retired := by
  cases h with
  | underway hjob hsent hend =>
    exact .inl ⟨Option.some.inj (hj.symm.trans hjob), hsent, hend⟩
  | returning hjob hsent hend hretired =>
    exact .inr (.inl ⟨_, Option.some.inj (hj.symm.trans hjob), hsent, hend, hretired⟩)
  | retiring hjob hsent hend hretired =>
    exact .inr (.inr ⟨_, Option.some.inj (hj.symm.trans hjob), hsent, hend, hretired⟩)
  | ended hjob => cases hjob.symm.trans hj

/-- The operation is under way, or its worker is being shut down. -/
theorem phase_cases (h : Drains p t w es q) (hj : q.job? t = some j) :
    j.phase = .running ∨ (∃ r, j.phase = .returning r) ∨ j.phase = .retiring := by
  rcases h.job_cases hj with ⟨rfl, -⟩ | ⟨r, rfl, -⟩ | ⟨r, rfl, -⟩
  · exact .inl rfl
  · exact .inr (.inl ⟨r, rfl⟩)
  · exact .inr (.inr rfl)

/-- What the end of an operation does. -/
theorem finish (h : Drains p t w es q) (hc : q.closed = true) (ho : q.Occurs (.finish t r) q') :
    Drains p t w (es ++ [.finish t r]) q' := by
  cases ho with
  | finishOpen _ _ hopen => cases hopen.symm.trans hc
  | finishClosed hj hop =>
    rcases h.job_cases hj with ⟨rfl, hsent, hend⟩ | ⟨_, rfl, -⟩ | ⟨_, rfl, -⟩
    · refine .returning (job?_setPhase_self _ hj) hsent ?_ List.mem_cons_self
      rw [endsWith?_of_none hend]
      simp [endsWith?]
    · cases hop
    · cases hop

/-- What the panic of an operation does. -/
theorem panic (h : Drains p t w es q) (hname : q.name = p.name) (ho : q.Occurs (.panic t) q') :
    Drains p t w (es ++ [.panic t]) q' := by
  cases ho with
  | panic hj hop =>
    rcases h.job_cases hj with ⟨rfl, hsent, hend⟩ | ⟨_, rfl, -⟩ | ⟨_, rfl, -⟩
    · refine .retiring (job?_setPhase_self _ hj) (sent?_send_self q t _) ?_ List.mem_cons_self
      rw [endsWith?_of_none hend]
      simp [endsWith?, panicError, hname]
    · cases hop
    · cases hop

/-- What the shutdown of a worker does. -/
theorem jobDown (h : Drains p t w es q) (hc : q.closed = true) (ho : q.Occurs (.jobDown t) q') :
    Drains p t w (es ++ [.jobDown t]) q' := by
  cases ho with
  | downReturning hj hp =>
    rcases h.job_cases hj with ⟨rfl, -⟩ | ⟨r, rfl, -, hend, hretired⟩ | ⟨_, rfl, -⟩
    · cases hp
    · cases hp
      exact .ended (job?_endJob_self q t) (sent?_send_self q t _)
        (endsWith?_of_some hend _) hretired
    · cases hp
  | downClosed hj hp =>
    rcases h.job_cases hj with ⟨rfl, -⟩ | ⟨_, rfl, -⟩ | ⟨r, rfl, hsent, hend, hretired⟩
    · cases hp
    · cases hp
    · exact .ended (job?_endJob_self q t) hsent (endsWith?_of_some hend _)
        hretired
  | downOpen _ _ hopen => cases hopen.symm.trans hc
  | downDiscarding hj hp =>
    rcases h.phase_cases hj with hrunning | ⟨r, hreturning⟩ | hretiring
    · cases hp.symm.trans hrunning
    · cases hp.symm.trans hreturning
    · cases hp.symm.trans hretiring

/-- An operation in a closed pool, whose token does not fire, comes to its own end step by step. -/
theorem step (h : Drains p t w es q) (hname : q.name = p.name) (hc : q.closed = true)
    (ho : q.Occurs e q') (htame : e.isUnruly = false) (hfire : e ≠ .fire t) : Drains p t w (es ++ [e]) q' := by
  by_cases ht : e.jobTicket? = some t
  · cases e with
    | fire u => exact absurd (congrArg PoolEvent.fire (Option.some.inj ht)) hfire
    | take u => exact h.of_take hc ho
    | finish u r =>
      obtain rfl : u = t := Option.some.inj ht
      exact h.finish hc ho
    | panic u =>
      obtain rfl : u = t := Option.some.inj ht
      exact h.panic hname ho
    | crash u => cases htame
    | fireOwn u => cases htame
    | expire u =>
      obtain rfl : u = t := Option.some.inj ht
      cases ho with
      | expire hj hp =>
        rcases h.phase_cases hj with hrunning | ⟨r, hreturning⟩ | hretiring
        · cases hp.symm.trans hrunning
        · cases hp.symm.trans hreturning
        · cases hp.symm.trans hretiring
    | jobDown u =>
      obtain rfl : u = t := Option.some.inj ht
      exact h.jobDown hc ho
    | built u made =>
      obtain rfl : u = t := Option.some.inj ht
      have hnever : ∀ {j}, q.job? u = some j → j.phase ≠ .rebuilding := by
        intro j hj hp
        rcases h.phase_cases hj with hrunning | ⟨r, hreturning⟩ | hretiring
        · cases hp.symm.trans hrunning
        · cases hp.symm.trans hreturning
        · cases hp.symm.trans hretiring
      cases ho with
      | builtOpen hj hp => exact absurd hp (hnever hj)
      | builtClosed hj hp => exact absurd hp (hnever hj)
      | builtNothing hj hp => exact absurd hp (hnever hj)
    | _ => cases ht
  · exact h.of_ne ho ht

/-- An event that is not possible is no end of an operation that is under way. -/
theorem of_not_possible (h : Drains p t w es q) (hnone : q.step e = none) :
    Drains p t w (es ++ [e]) q := by
  refine h.of_eq rfl rfl (List.Subset.refl _) fun hend => ?_
  have hjob : q.job? t = some ⟨t, w, .running⟩ := by
    cases h with
    | underway hjob => exact hjob
    | returning _ _ hended => cases hend.symm.trans hended
    | retiring _ _ hended => cases hend.symm.trans hended
    | ended _ _ hended => cases hend.symm.trans hended
  cases e with
  | finish u r =>
    have hne : u ≠ t := fun heq => by simp [Pool.step, heq, hjob, JobPhase.operating] at hnone
    simp [endsWith?, hne]
  | panic u =>
    have hne : u ≠ t := fun heq => by simp [Pool.step, heq, hjob, JobPhase.operating] at hnone
    simp [endsWith?, hne]
  | _ => rfl

/-- Nothing keeps an operation from going on: it may end in any way, and then its worker may be
shut down. -/
theorem goes_on (h : Drains p t w es q) (hjob : (q.job? t).isSome) :
    (∀ r, (q.step (.finish t r)).isSome) ∧ (q.step (.panic t)).isSome ∨
      (q.step (.jobDown t)).isSome := by
  cases h with
  | underway hj => exact .inl ⟨fun r => by simp [Pool.step, hj, JobPhase.operating],
      by simp [Pool.step, hj, JobPhase.operating]⟩
  | returning hj => exact .inr (by simp [Pool.step, hj, Pool.jobDown])
  | retiring hj =>
    refine .inr ?_
    simp only [Pool.step, hj, Option.bind_some, Pool.jobDown]
    split <;> rfl
  | ended hj => simp [hj] at hjob

end Drains

/-! ### A pool that goes on after it was closed -/

/-- Closing a pool leaves its callers and its jobs alone. -/
theorem closeAtOnce_leaves (p : Pool) :
    p.closeAtOnce.jobs = p.jobs ∧ p.closeAtOnce.runs = p.runs ∧ p.closeAtOnce.fired = p.fired ∧
      p.closeAtOnce.toLine = p.toLine ∧ p.closeAtOnce.watching = p.watching := by
  have hclose : p.closeAtOnce = { p.close with
      closing := [], retired := p.close.closing.tail.reverse ++ p.close.retired } :=
    foldl_closedOne p.close _ rfl
  rw [hclose, close]
  split
  · exact ⟨rfl, rfl, rfl, rfl, rfl⟩
  · exact ⟨rfl, rfl, rfl, rfl, rfl⟩

/-- Lets events happen one after the other, each if it is possible. -/
def followAll (p : Pool) (es : List PoolEvent) : Pool := es.foldl follow p

theorem followAll_concat (p : Pool) (es : List PoolEvent) (e : PoolEvent) :
    p.followAll (es ++ [e]) = (p.followAll es).follow e := List.foldl_concat ..

/-- A pool has come out of another one, which was closed, and all its operations were tame. -/
structure Outlives (p q : Pool) : Prop where
  tame : q.Tame
  closed : q.closed = true
  name_eq : q.name = p.name

namespace Outlives

theorem refl (h : p.Tame) (hc : p.closed = true) : p.Outlives p := ⟨h, hc, rfl⟩

theorem used (h : p.Outlives q) : q.Used := h.tame.used

theorem step (h : p.Outlives q) (he : e.isUnruly = false) (hs : q.step e = some q') :
    p.Outlives q' := by
  have ho := occurs_of_step hs
  refine ⟨h.tame.step he hs, ?_, (name_step ho).trans h.name_eq⟩
  by_contra hopen
  cases h.closed.symm.trans (closed_step ho (by simpa using hopen))

theorem followAll (h : p.Tame) (hc : p.closed = true) (hes : ∀ e ∈ es, e.isUnruly = false) :
    p.Outlives (p.followAll es) := by
  induction es using List.reverseRecOn with
  | nil => exact refl h hc
  | append_singleton es e ih =>
    rw [followAll_concat]
    have hrest := ih fun e he => hes e (List.mem_append_left _ he)
    rcases (p.followAll es).follow_cases e with hstep | hnothing
    · exact hrest.step (hes e (List.mem_append_right _ List.mem_cons_self)) hstep
    · rw [hnothing]
      exact hrest

end Outlives

theorem Used.orderly (h : p.Used) : p.Orderly := by
  obtain ⟨n, p₀, es, h₀, hrun⟩ := h
  exact (accounted_run h₀ hrun).1

theorem Used.unsent (h : p.Used) : p.Unsent := by
  obtain ⟨n, p₀, es, h₀, hrun⟩ := h
  exact unsent_run h₀ hrun

/-- A caller that watches a job can learn its result as soon as it was sent. -/
theorem learns_result (hwatch : t ∈ q.watching) (hsent : q.sent? t = some r) :
    ∃ q', q.step (.learn t) = some q' ∧ q'.answer? t = some r := by
  have hcan : q.canLearn t = true := by simp [canLearn, hwatch, hsent]
  refine ⟨q.learn t, by rw [step, if_pos hcan], ?_⟩
  simp [learn, hwatch, hsent, answer?_tell]

/-- What has become of an operation that was under way on a worker when a pool was closed, and of
its caller: the caller, unless it has gone away, waits for the result or has been told it.  Nothing
keeps either of them from going on. -/
structure Finishes (p : Pool) (t : Ticket) (w : Worker) (es : List PoolEvent) (q : Pool) :
    Prop where
  operation : Drains p t w es q
  run : t ∈ q.runs
  started : t ∈ q.started.map Prod.fst
  uncancelled : t ∉ q.fired
  caller : t ∈ p.watching → .withdraw t ∉ es →
    t ∈ q.watching ∨ ∃ r, q.answer? t = some r ∧ p.endsWith? t es = some r
  goes_on : (q.job? t).isSome →
    (∀ r, (q.step (.finish t r)).isSome) ∧ (q.step (.panic t)).isSome ∨
      (q.step (.jobDown t)).isSome
  learns : ∀ r, t ∈ q.watching → q.sent? t = some r →
    ∃ q', q.step (.learn t) = some q' ∧ q'.answer? t = some r

/-- The caller of an operation that is not cancelled goes on waiting until it is told the result. -/
theorem Finishes.caller_step (h : Finishes p t w es q) (hq : p.Outlives q) (ho : q.Occurs e q')
    (he : e ≠ .withdraw t) (hcaller : t ∈ q.watching ∨ ∃ r, q.answer? t = some r ∧
      p.endsWith? t es = some r) :
    t ∈ q'.watching ∨ ∃ r, q'.answer? t = some r ∧ p.endsWith? t (es ++ [e]) = some r := by
  obtain ⟨p₀, es₀, ht, hnocrash⟩ := hq.tame.traced
  have hord := hq.used.orderly
  rcases hcaller with hwatch | ⟨r, ha, hend⟩
  · have hmem : t ∈ q.callers := List.mem_append_right _ (List.mem_append_left _ hwatch)
    have hplace := (callers_step hord ho h.run hmem).resolve_right he
    rcases List.mem_append.mp hplace with hmember | hother
    · -- A ticket whose operation was started does not wait in line again.
      have hstarted := ((started_suffix ho).map Prod.fst).subset h.started
      exact absurd hstarted (not_started_of_members (orderly_step hord ho) hmember)
    rcases List.mem_append.mp hother with hwatch' | htold
    · exact .inl hwatch'
    obtain ⟨r, hr⟩ := Option.isSome_iff_exists.mp (isSome_answer?_of_mem htold)
    have hbefore := answer?_of_watching hord hwatch
    obtain ⟨-, ⟨hnot, -⟩ | ⟨-, hsent | ⟨-, hfired⟩ | ⟨-, hcrash⟩⟩⟩ := told_cases hord ht ho hbefore hr
    · exact absurd h.started hnot
    · exact .inr ⟨r, hr, endsWith?_of_some (h.operation.endsWith?_of_sent hsent) e⟩
    · exact absurd (hasFired_iff.mp hfired).2 h.uncancelled
    · exact absurd hcrash (hnocrash t)
  · exact .inr ⟨r, answer?_step hord ho ha, endsWith?_of_some hend e⟩

theorem Finishes.follow (h : Finishes p t w es q) (hq : p.Outlives q) (htame : e.isUnruly = false)
    (he : e ≠ .fire t) :
    Finishes p t w (es ++ [e]) (q.follow e) := by
  have hstays : ∀ {e'}, .withdraw t ∉ es ++ [e'] → .withdraw t ∉ es ∧ e' ≠ .withdraw t :=
    fun {e'} hnot => ⟨fun hmem => hnot (List.mem_append_left _ hmem),
      fun heq => hnot (heq ▸ List.mem_append_right _ List.mem_cons_self)⟩
  cases hs : q.step e with
  | none =>
    rw [Pool.follow, hs, Option.getD_none]
    have hdrains := h.operation.of_not_possible hs
    refine ⟨hdrains, h.run, h.started, h.uncancelled, fun hwatch hnot => ?_, h.goes_on, h.learns⟩
    rcases h.caller hwatch (hstays hnot).1 with hwatch' | ⟨r, ha, hend⟩
    · exact .inl hwatch'
    · exact .inr ⟨r, ha, endsWith?_of_some hend e⟩
  | some q' =>
    have ho := occurs_of_step hs
    rw [Pool.follow, hs, Option.getD_some]
    have hdrains := h.operation.step hq.name_eq hq.closed ho htame he
    exact
      { operation := hdrains
        run := runs_subset ho h.run
        started := ((started_suffix ho).map Prod.fst).subset h.started
        uncancelled := not_fired_step ho (hq.used.orderly.runs_asked t h.run) he h.uncancelled
        caller := fun hwatch hnot =>
          h.caller_step hq ho (hstays hnot).2 (h.caller hwatch (hstays hnot).1)
        goes_on := hdrains.goes_on
        learns := fun _ => learns_result }

/-- A caller that waits for a worker in a closed pool can be told at once why it gets none. -/
theorem learns_lineError (ho : q.Orderly) (hc : q.closed = true) (hmember : t ∈ q.members) :
    ∃ e q', (e = .learn t ∨ e = .take t) ∧ q.step e = some q' ∧
      q'.answer? t = some (.error (q.lineError t)) := by
  have hwatch : t ∉ q.watching := fun hwatch =>
    List.disjoint_of_nodup_append ho.callers_nodup hmember (List.mem_append_left _ hwatch)
  rcases mem_members.mp hmember with hqueue | hgranted
  · have hcan : q.canLearn t = true := by simp [canLearn, hqueue, hc]
    refine ⟨.learn t, q.learn t, .inl rfl, by rw [step, if_pos hcan], ?_⟩
    simp [learn, hwatch, lineError, answer?_tell]
  · refine ⟨.take t, q.take t, .inr rfl, by simp [step, hgranted], ?_⟩
    cases hfired : q.hasFired t with
    | true => simp [take, hfired, lineError, answer?_tell]
    | false => simp [take, hfired, hc, lineError, answer?_tell]

/-- A caller whose token has not fired can be told at once that the pool is closed. -/
theorem learns_closed (ho : q.Orderly) (hc : q.closed = true) (hnot : t ∉ q.fired)
    (hmember : t ∈ q.members) : ∃ e q', (e = .learn t ∨ e = .take t) ∧ q.step e = some q' ∧
      q'.answer? t = some (.error .poolClosed) := by
  have hfired : q.hasFired t ≠ true := fun hf => hnot (hasFired_iff.mp hf).2
  have hlearns := learns_lineError ho hc hmember
  rwa [lineError, if_neg hfired] at hlearns

/-- A caller that waited for a worker when a pool was closed never gets one: it waits to be told
that the pool is closed, which nothing keeps it from, or was told so. -/
structure TurnedAway (t : Ticket) (q : Pool) : Prop where
  run : t ∈ q.runs
  uncancelled : t ∉ q.fired
  not_started : t ∉ q.started.map Prod.fst
  placed : t ∈ q.members ∨ q.answer? t = some (.error .poolClosed)
  learns : t ∈ q.members → ∃ e q', (e = .learn t ∨ e = .take t) ∧ q.step e = some q' ∧
    q'.answer? t = some (.error .poolClosed)

/-- Whoever leaves the line of a closed pool goes away, or is told why there is no worker. -/
theorem leaves_closed (hu : q.Used) (hc : q.closed = true) (hs : q.step e = some q')
    (hmember : t ∈ q.members) (hleft : t ∉ q'.members) :
    e = .withdraw t ∨ q'.answer? t = some (.error (q'.lineError t)) := by
  obtain ⟨n, p₀, es, h₀, hq⟩ := id hu
  have hleaves := leaves_step hu.orderly (queued_run h₀ hq) hs (Line.mem_inTurn.mpr hmember)
    fun hturn => hleft (Line.mem_inTurn.mp hturn)
  rcases hleaves.worker with ⟨-, hobtains⟩ | ⟨hgone | ⟨err, htold⟩, -⟩
  · cases hc.symm.trans hobtains.open_granted.1
  · exact .inl hgone
  · obtain ⟨heq, -⟩ := told_lineError h₀ hq hs (answer?_of_members hu.orderly hmember) htold
      (not_started_of_members hu.orderly hmember)
    exact .inr (heq ▸ htold)

/-- The place of a caller that waits in a closed pool, after a step. -/
theorem placed_step_of_closed (hu : q.Used) (hc : q.closed = true) (hs : q.step e = some q')
    (hfired : t ∉ q'.fired) (hstays : e ≠ .withdraw t) (hmember : t ∈ q.members) :
    t ∈ q'.members ∨ q'.answer? t = some (.error .poolClosed) := by
  by_cases hmember' : t ∈ q'.members
  · exact .inl hmember'
  · have htold := (leaves_closed hu hc hs hmember hmember').resolve_left hstays
    have hnot : q'.hasFired t ≠ true := fun hf => hfired (hasFired_iff.mp hf).2
    rw [lineError, if_neg hnot] at htold
    exact .inr htold

theorem TurnedAway.step (h : TurnedAway t q) (hq : p.Outlives q) (htame : e.isUnruly = false)
    (hs : q.step e = some q') (hfire : e ≠ .fire t) (hstays : e ≠ .withdraw t) : TurnedAway t q' := by
  have ho := occurs_of_step hs
  have hq' := hq.step htame hs
  have hfired := not_fired_step ho (hq.used.orderly.runs_asked t h.run) hfire h.uncancelled
  refine ⟨runs_subset ho h.run, hfired, ?_, ?_, learns_closed hq'.used.orderly hq'.closed hfired⟩
  · rw [started_step_of_closed ho hq.closed]
    exact h.not_started
  · rcases h.placed with hmember | htold
    · exact placed_step_of_closed hq.used hq.closed hs hfired hstays hmember
    · exact .inr (answer?_step hq.used.orderly ho htold)

end Pool

end LanguageHost
