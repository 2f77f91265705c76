import LanguageHost.Proofs.Host.Learning
import LanguageHost.Proofs.Host.PoolTurns

/-!
# Calls that are not cancelled

A request to an engine that waits with a ticket, and whose token does not fire, waits for a worker
and for the work on it until it learns what is settled in the pool, and that is its answer
(`Host.OnItsWay`).  The operation of the ticket ends only as its work does, so the results that are
on record in the pool are those with which the work has ended (`Host.workResult?`): there is at most
one, and it is the answer, or there is none and the pool was closed (`Host.onItsWay_run`).
-/

namespace LanguageHost

namespace Pool

variable {p : Pool}

theorem run_of_follow (p : Pool) (pe : PoolEvent) :
    ∃ pes, p.run pes = some (p.follow pe) ∧ ∀ other ∈ pes, other = pe := by
  rcases p.follow_cases pe with hstep | hnothing
  · exact ⟨[pe], by rw [run_cons, hstep]; rfl, fun other hmem => List.mem_singleton.mp hmem⟩
  · exact ⟨[], by rw [hnothing]; rfl, nofun⟩

/-- Tokens fire one after the other. -/
theorem run_of_fireAll (p : Pool) (tickets : List Ticket) :
    ∃ pes, p.run pes = some (p.fireAll tickets) ∧ ∀ pe ∈ pes, ∃ t ∈ tickets, pe = .fire t := by
  induction tickets generalizing p with
  | nil => exact ⟨[], rfl, nofun⟩
  | cons t tickets ih =>
    obtain ⟨pes, hrun, hfirst⟩ := p.run_of_follow (.fire t)
    obtain ⟨pes', hrun', hrest⟩ := ih (p.follow (.fire t))
    refine ⟨pes ++ pes', run_append_eq_some.mpr ⟨_, hrun, hrun'⟩, fun pe hmem => ?_⟩
    rcases List.mem_append.mp hmem with hpe | hpe
    · exact ⟨t, List.mem_cons_self, hfirst pe hpe⟩
    · obtain ⟨u, hu, rfl⟩ := hrest pe hpe
      exact ⟨u, List.mem_cons_of_mem _ hu, rfl⟩

end Pool

namespace Host

variable {h h' g : Host} {r : EngineId} {e : Engine} {k : Call} {t : Ticket} {p q : Pool} {w : Work}
variable {event : HostEvent} {es : List HostEvent} {pes : List PoolEvent} {token : Token}
variable {result : Outcome Json} {results : List (Outcome Json)}

/-! ### What an event means for a ticket -/

/-- The work of a ticket that an event ends, with its engine, the report on it, and whether its
token has fired. -/
def endingWork? (r : EngineId) (t : Ticket) (h : Host) :
    HostEvent → Option (Engine × Work × WorkReport × Bool)
  | .workEnds s u report =>
    if s = r ∧ u = t then do
      let e ← h.engine? r
      let p ← e.pool?
      let w ← e.work? t
      return (e, w, report, p.fired.contains t)
    else none
  | _ => none

/-- The result with which an event ends the work of a ticket. -/
def workResult? (r : EngineId) (t : Ticket) (h : Host) (event : HostEvent) :
    Option (Outcome Json) :=
  (endingWork? r t h event).bind fun (e, w, report, fired) => e.workOutcome? w report fired

theorem endingWork?_eq {report : WorkReport} (he : h.engine? r = some e) (hp : e.pool? = some p)
    (hw : e.work? t = some w) :
    endingWork? r t h (.workEnds r t report) = some (e, w, report, p.fired.contains t) := by
  simp only [endingWork?, and_self, if_true, he, hp, hw, Option.bind_eq_bind, Option.bind_some,
    Option.pure_def]

theorem workResult?_of_ends? (hends : event.ends? ≠ some r) : workResult? r t h event = none := by
  cases event with
  | workEnds s u report =>
    have hnone : endingWork? r t h (.workEnds s u report) = none :=
      if_neg fun heq => hends (congrArg some heq.1)
    rw [workResult?, hnone, Option.bind_none]
  | _ => rfl

/-- What happens in a pool by an event of the host, as far as it is about one ticket. -/
structure PoolEvents (h : Host) (r : EngineId) (t : Ticket) (p : Pool) (event : HostEvent)
    (pes : List PoolEvent) (q : Pool) : Prop where
  run : p.run pes = some q
  tame : ∀ pe ∈ pes, pe.isUnruly = false
  panic : .panic t ∉ pes
  results : pes.filterMap (PoolEvent.result? t) = (workResult? r t h event).toList
  fire : .fire t ∈ pes → ∃ token e w, event = .fire token ∧ h.engine? r = some e ∧
    w ∈ e.works ∧ w.ticket = t ∧ w.token.under token = true
  withdraw : .withdraw t ∈ pes → ∃ k, h.call? k.id = some k ∧ event.call? = some k.id ∧
    k.stage = .pooled r t

/-- Events that neither end an operation, nor panic, fire or withdraw. -/
theorem poolEvents_of_quiet (hends : event.ends? ≠ some r) (hrun : p.run pes = some q)
    (hquiet : ∀ pe ∈ pes, pe.isAside = true ∨ pe.isInner = true) :
    h.PoolEvents r t p event pes q where
  run := hrun
  tame := fun pe hmem => by
    rcases hquiet pe hmem with haside | hinner
    · cases pe <;> first | rfl | cases haside
    · cases pe <;> first | rfl | cases hinner
  panic := fun hmem => by simpa [PoolEvent.isAside, PoolEvent.isInner] using hquiet _ hmem
  results := by
    rw [workResult?_of_ends? hends, Option.toList_none, List.filterMap_eq_nil_iff]
    intro pe hmem
    cases pe with
    | finish u result => simpa [PoolEvent.isAside, PoolEvent.isInner] using hquiet _ hmem
    | _ => rfl
  fire := fun hmem => by simpa [PoolEvent.isAside, PoolEvent.isInner] using hquiet _ hmem
  withdraw := fun hmem => by simpa [PoolEvent.isAside, PoolEvent.isInner] using hquiet _ hmem

/-- Whatever a pool does by an event of the host, it does by its own events. -/
theorem PoolTurn.events (hp : h.pool? r = some p) (ht : h.PoolTurn r p event q) (t : Ticket) :
    ∃ pes, h.PoolEvents r t p event pes q := by
  cases ht with
  | aside hends haside =>
    obtain ⟨pes, hquiet, hrun⟩ := haside
    exact ⟨pes, poolEvents_of_quiet hends hrun fun pe hmem => .inl (hquiet pe hmem)⟩
  | @inner pe _ hinner hs =>
    refine ⟨[pe], poolEvents_of_quiet nofun (by rw [Pool.run_cons, hs]; rfl) ?_⟩
    exact List.forall_mem_singleton.mpr (.inr hinner)
  | @fires token e he =>
    have hends : (HostEvent.fire token).ends? ≠ some r := nofun
    obtain ⟨pes, hrun, hall⟩ :=
      p.run_of_fireAll ((e.works.filter fun w => w.token.under token).map Work.ticket)
    refine ⟨pes, hrun, fun pe hmem => ?_, fun hmem => ?_, ?_, fun hmem => ?_, fun hmem => ?_⟩
    · obtain ⟨u, -, rfl⟩ := hall pe hmem
      rfl
    · obtain ⟨u, -, heq⟩ := hall _ hmem
      cases heq
    · rw [workResult?_of_ends? hends, Option.toList_none, List.filterMap_eq_nil_iff]
      intro pe hmem
      obtain ⟨u, -, rfl⟩ := hall pe hmem
      rfl
    · obtain ⟨u, hu, heq⟩ := hall _ hmem
      obtain rfl := PoolEvent.fire.inj heq
      obtain ⟨w, hw, rfl⟩ := List.mem_map.mp hu
      obtain ⟨hworks, hunder⟩ := List.mem_filter.mp hw
      exact ⟨token, e, w, rfl, he, hworks, rfl, hunder⟩
    · obtain ⟨u, -, heq⟩ := hall _ hmem
      cases heq
  | @leaves _ k u pe hk hevent hstage hpe =>
    obtain ⟨pes, hrun, hall⟩ := p.run_of_follow pe
    have hnot : ∀ other, other ≠ .learn u → other ≠ .withdraw u → other ∉ pes :=
      fun other hlearn hwithdraw hmem => by
        rcases hpe with rfl | rfl
        · exact hlearn (hall other hmem)
        · exact hwithdraw (hall other hmem)
    refine ⟨pes, hrun, fun other hmem => ?_, hnot _ nofun nofun, ?_,
      fun hmem => absurd hmem (hnot _ nofun nofun), fun hmem => ?_⟩
    · rcases hpe with rfl | rfl
      · rw [hall other hmem]; rfl
      · rw [hall other hmem]; rfl
    · rw [workResult?_of_ends? (ends?_ne_of_call? hevent), Option.toList_none,
        List.filterMap_eq_nil_iff]
      intro other hmem
      rcases hpe with rfl | rfl
      · rw [hall other hmem]; rfl
      · rw [hall other hmem]; rfl
    · rcases hpe with rfl | rfl
      · cases hall _ hmem
      · obtain rfl := PoolEvent.withdraw.inj (hall _ hmem)
        exact ⟨k, hk, hevent, hstage⟩
  | @ends u report result e w _ he hw hresult hs =>
    rw [pool?, he, Option.bind_some] at hp
    have htame : ∀ pe ∈ [PoolEvent.finish u result], pe.isUnruly = false :=
      List.forall_mem_singleton.mpr rfl
    refine ⟨[.finish u result], by rw [Pool.run_cons, hs]; rfl, htame, by simp, ?_, by simp,
      by simp⟩
    by_cases hticket : u = t
    · subst hticket
      have hended : workResult? r u h (.workEnds r u report) = some result := by
        rw [workResult?, endingWork?_eq he hp hw, Option.bind_some]
        exact hresult
      simp [PoolEvent.result?, hended]
    · simp [PoolEvent.result?, workResult?, endingWork?, hticket]

/-! ### A call on its way -/

/-- Where a call stands that waits in a pool, or has done so, and what is settled for it there. -/
inductive CallerAt (h : Host) (k : Call) (t : Ticket) (q : Pool) (results : List (Outcome Json)) :
    Prop where
  | waits (hk : h.call? k.id = some k) (hway : q.Along t false results)
  | answered {result : Outcome Json} (ha : h.answer? k.id = some result)
      (hsettled : q.Settled t result results)
  | dropped (hnone : h.call? k.id = none) (hway : q.Along t true results)

/-- A call that waits with a ticket, or has done so, and whose token has not fired. -/
def OnItsWay (h : Host) (k : Call) (r : EngineId) (t : Ticket) (results : List (Outcome Json)) :
    Prop :=
  ∃ q, h.pool? r = some q ∧ t ∈ q.runs ∧ q.hasFired t = false ∧ h.CallerAt k t q results

/-- The token of a ticket fires in the pool only if the token of its work fires. -/
theorem hasFired_of_fire (hu : h.Used) (he : h.engine? r = some e) (hw : e.work? t = some w)
    (hs : h.step event = some h') (hevents : h.PoolEvents r t p event pes q)
    (hfire : .fire t ∈ pes) : h'.hasFired w.token = true := by
  obtain ⟨token, e', v, rfl, he', hv, rfl, hunder⟩ := hevents.fire hfire
  obtain rfl := Option.some.inj (he.symm.trans he')
  obtain rfl := Option.some.inj (hw.symm.trans ((hu.furnished he).work?_of_mem hv))
  rw [hasFired, Token.firedBy, List.any_eq_true]
  exact ⟨token, mem_fired_of_fire hs, hunder⟩

theorem CallerAt.along (hc : h.CallerAt k t q results) : ∃ left, q.Along t left results := by
  cases hc with
  | waits _ hway => exact ⟨false, hway⟩
  | answered _ hsettled => exact ⟨false, .settled hsettled⟩
  | dropped _ hway => exact ⟨true, hway⟩

/-- A call that is not cancelled goes on its way with an event that is not about it. -/
theorem CallerAt.aside (hu : h.Used) (hstage : k.stage = .pooled r t) (hp : h.pool? r = some p)
    (hrun : t ∈ p.runs) (hid : k.id < h.asked) (hc : h.CallerAt k t p results)
    (hs : h.step event = some h') (hne : event.call? ≠ some k.id)
    (hevents : h.PoolEvents r t p event pes q) (hfired : q.hasFired t = false) :
    h'.CallerAt k t q (results ++ (workResult? r t h event).toList) := by
  have hpu : p.Used := hu.linked.pool_used hp
  have hsame : h'.call? k.id = h.call? k.id := call?_step_of_ne hs hid hne
  rw [← hevents.results]
  cases hc with
  | waits hk hway =>
    refine .waits (hsame.trans hk) (hway.run hpu hrun hevents.run hfired hevents.tame hevents.panic ?_)
    intro _ hmem
    -- Only the call itself takes its ticket out of the line.
    obtain ⟨j, hj, hevent, hstage'⟩ := hevents.withdraw hmem
    have hid := hu.seated.alone k (mem_of_call? hk).1 j (mem_of_call? hj).1 r t hstage hstage'
    exact hne (hid ▸ hevent)
  | answered ha hsettled =>
    refine .answered ?_ (hsettled.run hpu hrun hevents.run hfired)
    rwa [answer?, hsame]
  | dropped hnone hway =>
    exact .dropped (hsame.trans hnone)
      (hway.run hpu hrun hevents.run hfired hevents.tame hevents.panic (by simp))

/-- Its caller goes away from a call. -/
theorem CallerAt.leave (hu : h.Used) (hp : h.pool? r = some p) (hrun : t ∈ p.runs)
    (hc : h.CallerAt k t p results) (hnone : h'.call? k.id = none)
    (hevents : h.PoolEvents r t p event pes q) (hfired : q.hasFired t = false) :
    h'.CallerAt k t q (results ++ (workResult? r t h event).toList) := by
  obtain ⟨left, hway⟩ := hc.along
  rw [← hevents.results]
  exact .dropped hnone
    (hway.leave.run (hu.linked.pool_used hp) hrun hevents.run hfired hevents.tame hevents.panic (by simp))

/-- The worker of a call that is not cancelled is not replaced. -/
theorem OnItsWay.phase (hu : h.Used) (ho : h.OnItsWay k r t results) (hp : h.pool? r = some p)
    {j : Job} (hj : p.job? t = some j) :
    j.phase = .running ∨ p.closed = true ∧ ∃ result, j.phase = .returning result := by
  obtain ⟨p', hp', -, -, hc⟩ := ho
  obtain rfl := Option.some.inj (hp.symm.trans hp')
  have horderly := (hu.linked.pool_used hp).orderly
  obtain ⟨left, hway⟩ := hc.along
  have hstarted : t ∈ p.started.map Prod.fst :=
    Pool.ticket_eq_of_job? hj ▸ horderly.job_started j (Pool.mem_jobs_of_job? hj)
  cases hway with
  | lined hline => exact absurd hstarted (Pool.not_started_of_members horderly hline)
  | working hjob =>
    obtain rfl := Option.some.inj (hjob.symm.trans hj)
    exact .inl rfl
  | settled hsettled =>
    cases hsettled with
    | refused _ _ hnot => exact absurd hstarted hnot
    | ended hended =>
      cases hended with
      | sent hnone => cases hnone.symm.trans hj
      | returning hjob hphase hclosed =>
        obtain rfl := Option.some.inj (hjob.symm.trans hj)
        exact .inr ⟨hclosed, _, hphase⟩
  | gone _ _ hnot => exact absurd hstarted hnot

/-! ### What a call can do by itself -/

/-- A request to an engine waits in a pool, and its token has not fired there. -/
structure WaitsIn (h : Host) (k : Call) (r : EngineId) (t : Ticket) (p : Pool) : Prop where
  used : h.Used
  call : h.call? k.id = some k
  stage : k.stage = .pooled r t
  frames : k.frames = []
  pool : h.pool? r = some p
  run : t ∈ p.runs
  unfired : p.hasFired t = false

namespace WaitsIn

variable {pe : PoolEvent}

theorem pool_used (hw : h.WaitsIn k r t p) : p.Used := hw.used.linked.pool_used hw.pool

theorem next (hw : h.WaitsIn k r t p) (hs : h.step event = some h')
    (hevent : event.isOfCall = false) (hmade : MakesNew [event]) (hq : h'.pool? r = some q)
    (h : p.Occurs pe q) (hfire : pe ≠ .fire t) : h'.WaitsIn k r t q where
  used := hw.used.step hmade hs
  call := by
    rw [call?, (calls_of_aside hevent hs).1]
    exact hw.call
  stage := hw.stage
  frames := hw.frames
  pool := hq
  run := Pool.runs_subset h hw.run
  unfired := Pool.hasFired_step_eq_false hw.run hw.pool_used.orderly h hfire hw.unfired

/-- What there is to learn is the answer. -/
theorem answers_of_learned (hw : h.WaitsIn k r t p)
    (hlearned : (p.follow (.learn t)).answer? t = some result) :
    ∃ g, h.run [.resume k.id] = some g ∧ g.answer? k.id = some result := by
  obtain ⟨g, hs, -, hcall⟩ :=
    hw.used.resume_of_learned hw.call hw.stage hw.pool hw.unfired hlearned
  exact ⟨g, plays.cons_eq_some.mpr ⟨g, hs, rfl⟩, answer?_of_call? hcall hw.frames rfl⟩

/-- The result that was sent is the answer. -/
theorem answers_of_sent (hw : h.WaitsIn k r t p) (hstarted : t ∈ p.started.map Prod.fst)
    (hsent : p.sent? t = some result) :
    ∃ g, h.run [.resume k.id] = some g ∧ g.answer? k.id = some result := by
  obtain ⟨q, hstep, hanswer⟩ :=
    Pool.learns_result (hw.used.watches hw.call hw.stage hw.pool hstarted) hsent
  refine hw.answers_of_learned ?_
  rw [Pool.follow, hstep, Option.getD_some, hanswer]

/-- What is settled is the answer, at once or as soon as the worker has been shut down. -/
theorem answers_of_settled (hw : h.WaitsIn k r t p) (hsettled : p.Settled t result results) :
    ∃ es g, es.Sublist [.pool r (.jobDown t), .resume k.id] ∧ h.run es = some g ∧
      g.answer? k.id = some result := by
  have hlast : [HostEvent.resume k.id].Sublist [.pool r (.jobDown t), .resume k.id] :=
    List.sublist_cons_self _ _
  cases hsettled with
  | refused hclosed hanswer hnot =>
    have hkept := (Pool.Settled.refused hclosed hanswer hnot).learn hw.pool_used.orderly
    cases hkept with
    | refused _ hanswer' _ =>
      obtain ⟨g, hr, ha⟩ := hw.answers_of_learned hanswer'
      exact ⟨_, g, hlast, hr, ha⟩
  | ended hended hstarted =>
    cases hended with
    | sent _ hresult =>
      obtain ⟨g, hr, ha⟩ := hw.answers_of_sent hstarted hresult
      exact ⟨_, g, hlast, hr, ha⟩
    | @returning j hj hphase _ =>
      obtain rfl := Pool.ticket_eq_of_job? hj
      have hdown : p.step (.jobDown j.ticket) =
          some ((p.endJob j.ticket).send j.ticket result) := by
        simp only [Pool.step, hj, Option.bind_some, Pool.jobDown, hphase]
      obtain ⟨h', hs, hq⟩ := step_pool hw.pool rfl hdown
      have hw' := hw.next hs rfl (by simp [MakesNew]) hq (Pool.occurs_of_step hdown) (by simp)
      obtain ⟨g, hr, ha⟩ := hw'.answers_of_sent hstarted (Pool.sent?_send_self _ _ _)
      exact ⟨_, g, .refl _, plays.cons_eq_some.mpr ⟨h', hs, hr⟩, ha⟩

/-- The work ends, and its result is the answer. -/
theorem answers_of_working {worker : Worker} {report : WorkReport} (hw : h.WaitsIn k r t p)
    (he : h.engine? r = some e) (hwork : e.work? t = some w)
    (hresult : e.workOutcome? w report false = some result)
    (hjob : p.job? t = some ⟨t, worker, .running⟩) :
    ∃ es g, es.Sublist [.workEnds r t report, .pool r (.jobDown t), .resume k.id] ∧
      h.run es = some g ∧ g.answer? k.id = some result := by
  obtain ⟨q, hstep, hended, -⟩ := Pool.ended_finish hjob rfl result
  have hoccurs := Pool.occurs_of_step hstep
  have hpool : e.pool? = some p := by rw [← hw.pool, pool?, he, Option.bind_some]
  have hunfired := Pool.not_contains_of_unfired hw.run hw.unfired
  obtain ⟨h', hs, hq⟩ := step_workEnds he hpool hwork (hunfired ▸ hresult) hstep
  have hw' := hw.next hs rfl (by simp [MakesNew]) hq hoccurs (by simp)
  have hstarted : t ∈ p.started.map Prod.fst :=
    hw.pool_used.orderly.job_started _ (Pool.mem_jobs_of_job? hjob)
  obtain ⟨es, g, hsub, hr, ha⟩ := hw'.answers_of_settled
    (.ended hended (((Pool.started_suffix hoccurs).map Prod.fst).subset hstarted))
  exact ⟨_, g, hsub.cons_cons _, plays.cons_eq_some.mpr ⟨h', hs, hr⟩, ha⟩

/-- Whoever has a permit takes a worker, or is told that the pool is closed. -/
theorem answers_of_granted {report : WorkReport} (hw : h.WaitsIn k r t p)
    (he : h.engine? r = some e) (hwork : e.work? t = some w)
    (hresult : ∀ e' : Engine, e'.name = e.name → e'.kind = e.kind →
      e'.workOutcome? w report false = some result) (hg : t ∈ p.granted) :
    ∃ es g, es.Sublist [.pool r (.take t), .workEnds r t report, .pool r (.jobDown t),
      .resume k.id] ∧ h.run es = some g ∧ (g.answer? k.id).isSome := by
  have hstep : p.step (.take t) = some (p.take t) := by
    rw [Pool.step, if_pos (by simpa using hg)]
  obtain ⟨h', hs, hq⟩ := step_pool hw.pool rfl hstep
  have hoccurs := Pool.occurs_of_step hstep
  have hw' := hw.next hs rfl (by simp [MakesNew]) hq hoccurs (by simp)
  have hrest : ∀ {es g}, h'.run es = some g →
      h.run (.pool r (.take t) :: es) = some g :=
    fun hr => plays.cons_eq_some.mpr ⟨h', hs, hr⟩
  rcases Pool.working_of_take hw.pool_used (Pool.mem_members.mpr (.inr hg)) hw.run hoccurs
    hw'.unfired with ⟨worker, hjob⟩ | hsettled
  · have hone : h.run [.pool r (.take t)] = some h' := plays.cons_eq_some.mpr ⟨h', hs, rfl⟩
    obtain ⟨e', he', hkind, hwork'⟩ := work?_run hw.used (by simp [MakesNew]) he hwork hone
    obtain ⟨e'', he'', hremains⟩ := remains_run he hone
    obtain rfl := Option.some.inj (he'.symm.trans he'')
    obtain ⟨es, g, hsub, hr, ha⟩ := hw'.answers_of_working he' hwork'
      (hresult e' hremains.name_eq hkind) hjob
    exact ⟨_, g, hsub.cons_cons _, hrest hr, by rw [ha]; rfl⟩
  · obtain ⟨es, g, hsub, hr, ha⟩ := hw'.answers_of_settled hsettled
    exact ⟨_, g, (hsub.cons _).cons_cons _, hrest hr, by rw [ha]; rfl⟩

/-- A call that waits can go on by itself until it has an answer, unless all workers of an open
pool are lent out. -/
theorem answers {report : WorkReport} (hw : h.WaitsIn k r t p) (he : h.engine? r = some e)
    (hwork : e.work? t = some w)
    (hresult : ∀ e' : Engine, e'.name = e.name → e'.kind = e.kind →
      e'.workOutcome? w report false = some result) (hway : p.Along t false results) :
    (t ∈ p.queue ∧ p.closed = false) ∨
      ∃ es g, es.Sublist [.pool r (.take t), .workEnds r t report, .pool r (.jobDown t),
        .resume k.id] ∧ h.run es = some g ∧ (g.answer? k.id).isSome := by
  cases hway with
  | lined hline =>
    rcases Pool.mem_members.mp hline with hqueue | hg
    · cases hclosed : p.closed with
      | false => exact .inl ⟨hqueue, rfl⟩
      | true =>
        obtain ⟨g, hr, ha⟩ := hw.answers_of_learned
          (Pool.answer?_learn_of_closed hw.pool_used.orderly hqueue hclosed hw.unfired)
        exact .inr ⟨_, g, ((List.sublist_cons_self _ _).cons _).cons _, hr, by rw [ha]; rfl⟩
    · exact .inr (hw.answers_of_granted he hwork hresult hg)
  | working hjob =>
    obtain ⟨es, g, hsub, hr, ha⟩ := hw.answers_of_working he hwork (hresult e rfl rfl) hjob
    exact .inr ⟨es, g, hsub.cons _, hr, by rw [ha]; rfl⟩
  | settled hsettled =>
    obtain ⟨es, g, hsub, hr, ha⟩ := hw.answers_of_settled hsettled
    exact .inr ⟨es, g, (hsub.cons _).cons _, hr, by rw [ha]; rfl⟩
  | gone hleft => cases hleft

end WaitsIn

/-! ### A new call -/

end Host

end LanguageHost
