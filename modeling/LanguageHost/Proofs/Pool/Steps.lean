import LanguageHost.Pool.Startup
import LanguageHost.Pool.Step
import LanguageHost.Proofs.Runs
import Mathlib.Tactic.Tauto

/-!
# The steps of a pool, case by case

`Pool.step` is one function of the state and the event.  What it does is said here once more as a
relation with a case for everything that can happen, each with the condition under which it does:
`occurs_of_step`.  Facts about a single step are proved by going through these cases.

The second part is about whole runs.  `run_induction` proves something of a run from its last
event, so that the events that have happened so far are at hand in every step.
-/

namespace LanguageHost

namespace Pool

variable {p p' q : Pool} {e : PoolEvent} {es es' : List PoolEvent} {t : Ticket} {j : Job}

/-! ### Single steps -/

/-- Everything that may happen in a pool, with its condition and its effect. -/
inductive Occurs (p : Pool) : PoolEvent → Pool → Prop where
  | ask : p.Occurs .ask ({ p with asked := p.asked + 1 }.line p.asked)
  | askRun :
      p.Occurs (.askRun false)
        ({ p with asked := p.asked + 1, runs := p.asked :: p.runs }.line p.asked)
  | askFired :
      p.Occurs (.askRun true)
        ({ p with
            asked := p.asked + 1, runs := p.asked :: p.runs, fired := p.asked :: p.fired }.tell
          p.asked (.error .operationCancelled))
  | fire {t : Ticket} (hr : t ∈ p.runs) (hf : t ∉ p.fired)
      (hj : ∀ j, p.job? t = some j → j.phase ≠ .running) :
      p.Occurs (.fire t) { p with fired := t :: p.fired }
  | fireRunning {t : Ticket} {j : Job} (hr : t ∈ p.runs) (hf : t ∉ p.fired)
      (hj : p.job? t = some j) (hp : j.phase = .running) :
      p.Occurs (.fire t) ({ p with fired := t :: p.fired }.setPhase t (.winding (p.now + p.grace)))
  | withdraw (t : Ticket) :
      p.Occurs (.withdraw t) { p.forget t with watching := p.watching.filter (· ≠ t) }
  | takeFired {t : Ticket} (hg : t ∈ p.granted) (hf : p.hasFired t = true) :
      p.Occurs (.take t) ((p.forget t).tell t (.error .operationCancelled))
  | takeClosed {t : Ticket} (hg : t ∈ p.granted) (hf : p.hasFired t = false)
      (hc : p.closed = true) :
      p.Occurs (.take t) ((p.forget t).tell t (.error .poolClosed))
  | takeNothing {t : Ticket} (hg : t ∈ p.granted) (hf : p.hasFired t = false)
      (hc : p.closed = false) (hi : p.idle = []) :
      p.Occurs (.take t) ((p.forget t).tell t (.error p.permitError))
  | takeRun {t : Ticket} {w : Worker} {idle : List Worker} (hg : t ∈ p.granted)
      (hf : p.hasFired t = false) (hc : p.closed = false) (hi : p.idle = w :: idle)
      (hr : t ∈ p.runs) :
      p.Occurs (.take t)
        { p with
          idle, toLine := p.toLine.spend t, jobs := p.jobs ++ [⟨t, w, .running⟩]
          started := (t, w) :: p.started, watching := t :: p.watching }
  | takeHeld {t : Ticket} {w : Worker} {idle : List Worker} (hg : t ∈ p.granted)
      (hf : p.hasFired t = false) (hc : p.closed = false) (hi : p.idle = w :: idle)
      (hr : t ∉ p.runs) :
      p.Occurs (.take t)
        { p with idle, toLine := p.toLine.spend t, held := (t, w) :: p.held }
  | learnResult {t : Ticket} {r : Outcome Json} (hw : t ∈ p.watching) (hs : p.sent? t = some r) :
      p.Occurs (.learn t) ({ p with watching := p.watching.filter (· ≠ t) }.tell t r)
  | learnLost {t : Ticket} (hw : t ∈ p.watching) (hs : p.sent? t = none) (hj : p.job? t = none) :
      p.Occurs (.learn t)
        ({ p with watching := p.watching.filter (· ≠ t) }.tell t (.error p.lostError))
  | learnFired {t : Ticket} (hw : t ∈ p.watching) (hs : p.sent? t = none)
      (hj : (p.job? t).isSome) (hf : t ∉ p.queue → p.hasFired t = true) :
      p.Occurs (.learn t)
        ({ p with watching := p.watching.filter (· ≠ t) }.tell t (.error .operationCancelled))
  | learnWaiting {t : Ticket} (hw : t ∉ p.watching) (hl : t ∈ p.queue ∨ t ∈ p.granted)
      (hc : p.closed = true ∨ p.hasFired t = true) :
      p.Occurs (.learn t)
        ((p.forget t).tell t (.error (if p.hasFired t then .operationCancelled else .poolClosed)))
  | finishOpen {t : Ticket} {r : Outcome Json} {j : Job} (hj : p.job? t = some j)
      (ho : j.phase.operating = true) (hc : p.closed = false) :
      p.Occurs (.finish t r) (((p.endJob t).putBack j.worker).send t r)
  | finishClosed {t : Ticket} {r : Outcome Json} {j : Job} (hj : p.job? t = some j)
      (ho : j.phase.operating = true) (hc : p.closed = true) :
      p.Occurs (.finish t r) (((p.dropLive 1).retire j.worker).setPhase t (.returning r))
  | panic {t : Ticket} {j : Job} (hj : p.job? t = some j) (ho : j.phase.operating = true) :
      p.Occurs (.panic t) (p.giveUp j p.panicError)
  | crash {t : Ticket} {j : Job} (hj : p.job? t = some j) (ho : j.phase.operating = true) :
      p.Occurs (.crash t) ((p.endJob t).lose j.worker)
  | fireOwn {t : Ticket} {j : Job} (hj : p.job? t = some j) (hp : j.phase = .running) :
      p.Occurs (.fireOwn t)
        ({ p with ownFired := t :: p.ownFired }.setPhase t (.winding (p.now + p.grace)))
  | expire {t : Ticket} {j : Job} {deadline : Nat} (hj : p.job? t = some j)
      (hp : j.phase = .winding deadline) (hd : deadline ≤ p.now) :
      p.Occurs (.expire t) (p.giveUp j .operationCancelled)
  | downReturning {t : Ticket} {j : Job} {r : Outcome Json} (hj : p.job? t = some j)
      (hp : j.phase = .returning r) :
      p.Occurs (.jobDown t) ((p.endJob t).send t r)
  | downClosed {t : Ticket} {j : Job} (hj : p.job? t = some j) (hp : j.phase = .retiring)
      (hc : p.closed = true) :
      p.Occurs (.jobDown t) (({ p with replaced := p.replaced + 1 }.dropLive 1).endJob t)
  | downOpen {t : Ticket} {j : Job} (hj : p.job? t = some j) (hp : j.phase = .retiring)
      (hc : p.closed = false) :
      p.Occurs (.jobDown t) ({ p with replaced := p.replaced + 1 }.setPhase t .rebuilding)
  | downDiscarding {t : Ticket} {j : Job} (hj : p.job? t = some j) (hp : j.phase = .discarding) :
      p.Occurs (.jobDown t) (p.endJob t)
  | builtOpen {t : Ticket} {j : Job} (hj : p.job? t = some j) (hp : j.phase = .rebuilding)
      (hc : p.closed = false) :
      p.Occurs (.built t true)
        (({ p with
            nextSerial := p.nextSerial + 1
            made := p.made ++ [(⟨j.worker.slot, p.nextSerial⟩ : Worker)] }.endJob t).putBack
          ⟨j.worker.slot, p.nextSerial⟩)
  | builtClosed {t : Ticket} {j : Job} (hj : p.job? t = some j) (hp : j.phase = .rebuilding)
      (hc : p.closed = true) :
      p.Occurs (.built t true)
        ((({ p with
            nextSerial := p.nextSerial + 1
            made := p.made ++ [(⟨j.worker.slot, p.nextSerial⟩ : Worker)] }.dropLive 1).retire
          ⟨j.worker.slot, p.nextSerial⟩).setJob t fun k =>
            { k with worker := ⟨j.worker.slot, p.nextSerial⟩, phase := .discarding })
  | builtNothing {t : Ticket} {j : Job} (hj : p.job? t = some j) (hp : j.phase = .rebuilding) :
      p.Occurs (.built t false) (({ p with nextSerial := p.nextSerial + 1 }.endJob t).shrink)
  | releaseOpen {t : Ticket} {w : Worker} (hh : p.held? t = some w) (hc : p.closed = false) :
      p.Occurs (.release t) ({ p with held := p.held.filter fun h => h.1 ≠ t }.putBack w)
  | releaseClosed {t : Ticket} {w : Worker} (hh : p.held? t = some w) (hc : p.closed = true) :
      p.Occurs (.release t)
        { ({ p with held := p.held.filter fun h => h.1 ≠ t }.dropLive 1).retire w with
          discards := p.discards ++ [(t, w)] }
  | released {t : Ticket} (hd : ∃ w, (t, w) ∈ p.discards) :
      p.Occurs (.released t) { p with discards := p.discards.filter fun d => d.1 ≠ t }
  | abandonRelease {t : Ticket} (hd : ∃ w, (t, w) ∈ p.discards) :
      p.Occurs (.abandonRelease t) { p with discards := p.discards.filter fun d => d.1 ≠ t }
  | closeAgain (hc : p.closed = true) : p.Occurs .close p
  | close (hc : p.closed = false) :
      p.Occurs .close
        (({ p with closed := true, idle := [], closing := p.idle.reverse }.dropLive
          p.idle.length).closeNext)
  | closedOne {w : Worker} {closing : List Worker} (hc : p.closing = w :: closing) :
      p.Occurs .closedOne ({ p with closing }.closeNext)
  | abandonClose : p.Occurs .abandonClose { p with closing := [] }
  | wait {time : Nat} (h : p.now ≤ time) : p.Occurs (.wait time) { p with now := time }

theorem ticket_eq_of_job? (h : p.job? t = some j) : j.ticket = t := by
  simpa using List.find?_some h

theorem mem_jobs_of_job? (h : p.job? t = some j) : j ∈ p.jobs := List.mem_of_find?_eq_some h

/-! What each of the operations does, where its event is possible. -/

theorem occurs_fire (h : p.step (.fire t) = some p') : p.Occurs (.fire t) p' := by
  simp only [step] at h
  split at h
  · cases h
  · next hg =>
    simp only [Bool.or_eq_true, Bool.not_eq_true', List.contains_eq_mem, decide_eq_false_iff_not,
      decide_eq_true_eq, not_or, not_not] at hg
    split at h
    · next hj =>
      cases h
      exact .fireRunning hg.1 hg.2 hj rfl
    · next hj =>
      cases h
      refine .fire hg.1 hg.2 ?_
      rintro ⟨t', w, phase⟩ hj' rfl
      exact hj t' w hj'

theorem occurs_take (hg : t ∈ p.granted) : p.Occurs (.take t) (p.take t) := by
  simp only [take]
  split
  · next hf => exact .takeFired hg hf
  · next hf =>
    have hf : p.hasFired t = false := by simpa using hf
    split
    · next hc => exact .takeClosed hg hf hc
    · next hc =>
      have hc : p.closed = false := by simpa using hc
      split
      · next hi => exact .takeNothing hg hf hc hi
      · next w idle hi =>
        split
        · next hr => exact .takeRun hg hf hc hi (by simpa using hr)
        · next hr => exact .takeHeld hg hf hc hi (by simpa using hr)

/-- A caller that watches a job is told about the job, even if it could learn something else. -/
theorem occurs_learn (hl : p.canLearn t = true) : p.Occurs (.learn t) (p.learn t) := by
  simp only [canLearn, Bool.or_eq_true, Bool.and_eq_true, List.contains_eq_mem,
    decide_eq_true_eq] at hl
  by_cases hw : t ∈ p.watching
  · simp only [learn, List.contains_eq_mem, hw, decide_true, if_true]
    split
    · next r hs => exact .learnResult hw hs
    · next hs =>
      cases hj : p.job? t with
      | none => exact .learnLost hw hs hj
      | some j =>
        refine .learnFired hw hs (by simp [hj]) fun hq => ?_
        simp only [hq, hs, hj, Option.isSome_none, Option.isNone_some] at hl
        tauto
  · simp only [learn, List.contains_eq_mem, hw, decide_false]
    exact .learnWaiting hw (by tauto) (by tauto)

theorem occurs_finish (hj : p.job? t = some j) (ho : j.phase.operating = true)
    (r : Outcome Json) : p.Occurs (.finish t r) (p.finish j r) := by
  rw [finish, ticket_eq_of_job? hj]
  split
  · next hc => exact .finishClosed hj ho hc
  · next hc => exact .finishOpen hj ho (by simpa using hc)

theorem occurs_jobDown (hj : p.job? t = some j) (h : p.jobDown j = some p') :
    p.Occurs (.jobDown t) p' := by
  simp only [jobDown, ticket_eq_of_job? hj] at h
  split at h
  · next r hp =>
    cases h
    exact .downReturning hj hp
  · next hp =>
    split at h
    · next hc =>
      cases h
      exact .downClosed hj hp hc
    · next hc =>
      cases h
      exact .downOpen hj hp (by simpa using hc)
  · next hp =>
    cases h
    exact .downDiscarding hj hp
  · cases h

theorem occurs_built (hj : p.job? t = some j) (hp : j.phase = .rebuilding) (made : Bool) :
    p.Occurs (.built t made) (if made then p.builtWorker j else p.builtNothing j) := by
  cases made with
  | true =>
    simp only [builtWorker, ticket_eq_of_job? hj, if_true]
    split
    · next hc => exact .builtClosed hj hp hc
    · next hc => exact .builtOpen hj hp (by simpa using hc)
  | false =>
    simp only [builtNothing, ticket_eq_of_job? hj]
    exact .builtNothing hj hp

theorem occurs_release {w : Worker} (hh : p.held? t = some w) :
    p.Occurs (.release t) (p.release t w) := by
  simp only [release]
  split
  · next hc => exact .releaseClosed hh hc
  · next hc => exact .releaseOpen hh (by simpa using hc)

theorem occurs_close (p : Pool) : p.Occurs .close p.close := by
  simp only [close]
  split
  · next hc => exact .closeAgain hc
  · next hc =>
    rw [List.length_reverse]
    exact .close (by simpa using hc)

/-- Every step is one of the cases of `Occurs`. -/
theorem occurs_of_step (h : p.step e = some p') : p.Occurs e p' := by
  cases e with
  | ask =>
    cases h
    exact .ask
  | askRun fired =>
    cases fired <;> cases h
    · exact .askRun
    · exact .askFired
  | fire t => exact occurs_fire h
  | withdraw t =>
    cases h
    exact .withdraw t
  | take t =>
    simp only [step, List.contains_eq_mem, decide_eq_true_eq] at h
    split at h
    · next hg =>
      cases h
      exact occurs_take hg
    · cases h
  | learn t =>
    simp only [step] at h
    split at h
    · next hl =>
      cases h
      exact occurs_learn hl
    · cases h
  | finish t r =>
    simp only [step] at h
    split at h
    · next j hj =>
      split at h
      · next ho =>
        cases h
        exact occurs_finish hj ho r
      · cases h
    · cases h
  | panic t =>
    simp only [step] at h
    split at h
    · next j hj =>
      split at h
      · next ho =>
        cases h
        exact .panic hj ho
      · cases h
    · cases h
  | crash t =>
    simp only [step] at h
    split at h
    · next j hj =>
      split at h
      · next ho =>
        cases h
        exact .crash hj ho
      · cases h
    · cases h
  | fireOwn t =>
    simp only [step] at h
    split at h
    · next hj =>
      cases h
      exact .fireOwn hj rfl
    · cases h
  | expire t =>
    simp only [step] at h
    split at h
    · next j hj =>
      split at h
      · next deadline hp =>
        split at h
        · next hd =>
          cases h
          exact .expire hj hp hd
        · cases h
      · cases h
    · cases h
  | jobDown t =>
    obtain ⟨j, hj, hdown⟩ := Option.bind_eq_some_iff.mp h
    exact occurs_jobDown hj hdown
  | built t made =>
    simp only [step] at h
    split at h
    · next j hj =>
      split at h
      · next hp =>
        cases h
        exact occurs_built hj hp made
      · cases h
    · cases h
  | release t =>
    obtain ⟨w, hh, rfl⟩ := Option.map_eq_some_iff.mp h
    exact occurs_release hh
  | released t =>
    simp only [step] at h
    split at h
    · next hd =>
      cases h
      exact .released (by simpa using hd)
    · cases h
  | abandonRelease t =>
    simp only [step] at h
    split at h
    · next hd =>
      cases h
      exact .abandonRelease (by simpa using hd)
    · cases h
  | close =>
    cases h
    exact occurs_close p
  | closedOne =>
    simp only [step] at h
    split at h
    · next w closing hc =>
      cases h
      exact .closedOne hc
    · cases h
  | abandonClose =>
    cases h
    exact .abandonClose
  | wait time =>
    simp only [step] at h
    split at h
    · next hn =>
      cases h
      exact .wait hn
    · cases h

/-! ### Runs -/

theorem plays : Plays step run := ⟨fun _ => rfl, fun _ _ _ => rfl⟩

theorem run_cons (p : Pool) (e : PoolEvent) (es : List PoolEvent) :
    p.run (e :: es) = (p.step e).bind fun p => p.run es := rfl

/-- A run goes on after each of its events. -/
theorem run_append_eq_some :
    p.run (es ++ es') = some p' ↔ ∃ q, p.run es = some q ∧ q.run es' = some p' :=
  plays.append_eq_some

/-- The last event of a run is a step. -/
theorem run_concat_eq_some :
    p.run (es ++ [e]) = some p' ↔ ∃ q, p.run es = some q ∧ q.step e = some p' :=
  plays.concat_eq_some

/-- What holds at first and is kept by every step holds after every run. -/
theorem run_induction {motive : List PoolEvent → Pool → Prop} (start : motive [] p)
    (next : ∀ es q e q', p.run es = some q → motive es q → q.step e = some q' →
      motive (es ++ [e]) q')
    (h : p.run es = some p') : motive es p' :=
  plays.history start next h

end Pool

end LanguageHost
