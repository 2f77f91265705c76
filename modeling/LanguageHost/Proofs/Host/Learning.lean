import LanguageHost.Proofs.Host.Seats
import LanguageHost.Proofs.Pool.Uncancelled

/-!
# What a call learns from a pool

A call that waits for a worker, or for the work on it, is there until its own next step
(`Host.Used.call?_run_of_pooled`).  As long as its token has not fired, that step is to learn what
its pool has to tell it: with an answer the call goes on to whatever is around it
(`Host.Used.resume_of_learned`), and without one it waits (`Host.Used.not_resume_of_nothing`).
-/

namespace LanguageHost

namespace Engine

variable {e : Engine} {p q : Pool} {pe : PoolEvent}

/-- What happens in the pool of an engine. -/
theorem poolStep_of_step (hp : e.pool? = some p) (h : p.step pe = some q) :
    e.poolStep pe = some (e.withPool fun _ => q) ∧ (e.withPool fun _ => q).pool? = some q := by
  refine ⟨by rw [poolStep, hp, Option.bind_some, h, Option.map_some], ?_⟩
  rw [pool?_withPool, hp, Option.map_some]

end Engine

namespace Host

variable {h h' g : Host} {r : EngineId} {e : Engine} {k : Call} {t : Ticket} {p q : Pool}
variable {result : Outcome Json} {es : List HostEvent}

/-- Something happens in a pool. -/
theorem forEngine_of_pool {f : Engine → Option Engine} (he : h.engine? r = some e)
    (hp : e.pool? = some p) (hf : f e = some (e.withPool fun _ => q)) :
    ∃ h', h.forEngine r f = some h' ∧ h'.pool? r = some q := by
  refine ⟨h.setEngine r (e.withPool fun _ => q), ?_, ?_⟩
  · simp only [forEngine, he, Option.bind_eq_bind, Option.bind_some, hf, Option.pure_def]
  · rw [pool?, engine?_setEngine, if_pos rfl, he, Option.map_some, Option.bind_some,
      Engine.pool?_withPool, hp, Option.map_some]

/-- A pool goes on from within. -/
theorem step_pool {pe : PoolEvent} (hp : h.pool? r = some p) (hinner : pe.isInner = true)
    (hs : p.step pe = some q) :
    ∃ h', h.step (.pool r pe) = some h' ∧ h'.pool? r = some q := by
  obtain ⟨e, he, hpool⟩ := Option.bind_eq_some_iff.mp hp
  obtain ⟨h', hforEngine, hq⟩ := forEngine_of_pool (f := fun e => e.poolStep pe) he hpool
    (Engine.poolStep_of_step hpool hs).1
  exact ⟨h', (if_pos hinner).trans hforEngine, hq⟩

/-- The work of a ticket ends with its outcome. -/
theorem step_workEnds {w : Work} {report : WorkReport} (he : h.engine? r = some e)
    (hp : e.pool? = some p) (hw : e.work? t = some w)
    (hresult : e.workOutcome? w report (p.fired.contains t) = some result)
    (hs : p.step (.finish t result) = some q) :
    ∃ h', h.step (.workEnds r t report) = some h' ∧ h'.pool? r = some q := by
  refine forEngine_of_pool (f := fun e => e.workEnds t report) he hp ?_
  simp only [Engine.workEnds, hp, hw, Option.bind_eq_bind, Option.bind_some, hresult]
  exact (Engine.poolStep_of_step hp hs).1

theorem Used.step {event : HostEvent} (hu : h.Used) (hmade : MakesNew [event])
    (hs : h.step event = some h') : h'.Used :=
  hu.run hmade (plays.cons_eq_some.mpr ⟨h', hs, rfl⟩)

theorem Used.ask (hu : h.Used) (request : Request) (token : Token) :
    (h.ask request token).Used := by
  have hs : h.step (.ask request token) = some (h.ask request token) := rfl
  exact hu.step (by simp [MakesNew]) hs

/-- A call that waits for a worker is there until its own next step, or until its caller goes. -/
theorem Used.call?_run_of_pooled (hu : h.Used) (hk : h.call? k.id = some k)
    (hstage : k.stage = .pooled r t) (hmade : MakesNew es) (hr : h.run es = some g)
    (hevents : ∀ event ∈ es, event ≠ .resume k.id ∧ event ≠ .drop k.id) :
    g.call? k.id = some k := by
  refine (plays.induction (motive := fun g => g.Used ∧ g.call? k.id = some k) ⟨hu, hk⟩
    (fun mid event next hmem ⟨hu, hk⟩ hs => ?_) hr).2
  have hone : MakesNew [event] := fun e guard? he =>
    hmade e guard? (List.mem_singleton.mp he ▸ hmem)
  obtain ⟨hresume, hdrop⟩ := hevents event hmem
  exact ⟨hu.step hone hs, call?_step_of_pooled hu.linked hu.ids_lt hk hstage hs hresume hdrop⟩

/-- A call whose token has not fired is in no race that is lost. -/
theorem Used.not_cut (hu : h.Used) (hk : h.call? k.id = some k) (hstage : k.stage = .pooled r t)
    (hp : h.pool? r = some p) (hnot : p.hasFired t = false) :
    cutRace h.hasFired k.frames = none := by
  refine cutRace_of_not_fired fun token hrace => ?_
  cases hfired : h.hasFired token with
  | false => rfl
  | true =>
    obtain ⟨p', hp', hruns⟩ := hu.linked.pool_of_pooled hk hstage
    obtain rfl := Option.some.inj (hp.symm.trans hp')
    have htold := hu.linked.told hk hstage hrace hfired hp
    cases hnot.symm.trans (Pool.hasFired_iff.mpr ⟨hruns, htold⟩)

/-- A call that waits watches its job, once there is one. -/
theorem Used.watches (hu : h.Used) (hk : h.call? k.id = some k) (hstage : k.stage = .pooled r t)
    (hp : h.pool? r = some p) (hstarted : t ∈ p.started.map Prod.fst) : t ∈ p.watching :=
  hu.seated.minded k (mem_of_call? hk).1 r t hstage p hp hstarted

/-- A call learns what its pool tells its caller, and goes on with it. -/
theorem Used.resume_of_learned (hu : h.Used) (hk : h.call? k.id = some k)
    (hstage : k.stage = .pooled r t) (hp : h.pool? r = some p) (hnot : p.hasFired t = false)
    (hlearned : (p.follow (.learn t)).answer? t = some result) :
    ∃ h', h.step (.resume k.id) = some h' ∧ h'.pool? r = some (p.follow (.learn t)) ∧
      h'.call? k.id = some { k with stage := .over result, since := h.now } := by
  obtain ⟨e, he, hpool⟩ := Option.bind_eq_some_iff.mp hp
  let mid : Host := h.setEngine r (e.withPool fun _ => p.follow (.learn t))
  have hlearn : h.learn r t = some (result, mid) := by
    simp only [learn, he, hpool, hlearned, Option.bind_eq_bind, Option.bind_some, Option.pure_def,
      mid]
  let turn : Turn := ⟨mid, k.frames, .over result⟩
  have hresume : h.resume k = some turn := by
    simp only [resume, hstage, hu.not_cut hk hstage hp hnot, goOn, hlearn, Option.bind_eq_bind,
      Option.bind_some, Option.pure_def, turn]
  refine ⟨settle turn k, step_resume hk hresume, ?_, call?_settle (t := turn) hk rfl⟩
  have hmid : (settle turn k).pool? r = mid.pool? r := rfl
  rw [hmid, pool?, engine?_setEngine, if_pos rfl, he, Option.map_some, Option.bind_some,
    Engine.pool?_withPool, hpool, Option.map_some]

/-- A call that has nothing to learn waits. -/
theorem Used.not_resume_of_nothing (hu : h.Used) (hk : h.call? k.id = some k)
    (hstage : k.stage = .pooled r t) (hp : h.pool? r = some p) (hnot : p.hasFired t = false)
    (hnothing : (p.follow (.learn t)).answer? t = none) : h.step (.resume k.id) = none := by
  obtain ⟨e, he, hpool⟩ := Option.bind_eq_some_iff.mp hp
  have hlearn : h.learn r t = none := by
    simp only [learn, he, hpool, hnothing, Option.bind_eq_bind, Option.bind_some, Option.bind_none]
  have hresume : h.resume k = none := by
    simp only [resume, hstage, hu.not_cut hk hstage hp hnot, goOn, hlearn, Option.bind_eq_bind,
      Option.bind_none]
  simp only [Host.step, forCall, hk, hresume, Option.bind_eq_bind, Option.bind_some,
    Option.bind_none]

end Host

end LanguageHost
