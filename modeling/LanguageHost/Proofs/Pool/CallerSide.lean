import LanguageHost.Proofs.Pool.Closed

/-!
# The callers' part of a pool

A pool is there for its callers, but most of what happens in it does not depend on them: operations
end, workers are made, released and shut down, and time passes.  Such events do the same whatever
the callers' part of the pool is (`step_withCallerSide`).  They leave that part as it is, except
that a worker that becomes idle adds a permit to the line.

So a view of a pool that changes only what concerns callers is kept by all these events
(`step_onCallers`), and whoever compares two pools by such a view has to look at the events of
callers only.
-/

namespace LanguageHost

/-- Whether an event is about workers only: how operations go on, and how workers are made,
released, and shut down. -/
def PoolEvent.byWorkers : PoolEvent → Bool
  | .finish _ _ | .panic _ | .crash _ | .fireOwn _ | .expire _ | .jobDown _ | .built _ _
  | .release _ | .released _ | .abandonRelease _ | .close | .closedOne | .abandonClose
  | .wait _ => true
  | .ask | .askRun _ | .fire _ | .withdraw _ | .take _ | .learn _ => false

/-- The callers' part of a pool. -/
structure CallerSide extends Line where
  asked : Nat
  runs : List Ticket
  fired : List Ticket
  watching : List Ticket
  answers : List (Ticket × Outcome Json)

namespace Pool

variable {p q : Pool} {e : PoolEvent}

def callerSide (p : Pool) : CallerSide :=
  { toLine := p.toLine, asked := p.asked, runs := p.runs, fired := p.fired
    watching := p.watching, answers := p.answers }

/-- The pool with another callers' part. -/
def withCallerSide (p : Pool) (c : CallerSide) : Pool :=
  { p with
    toLine := c.toLine, asked := c.asked, runs := c.runs, fired := c.fired
    watching := c.watching, answers := c.answers }

/-- The line after an event that is about workers: a worker that becomes idle adds a permit. -/
def lineAfter (p : Pool) (l : Line) : PoolEvent → Line
  | .finish _ _ | .built _ true | .release _ => l.give p.closed
  | _ => l

@[simp] theorem job?_withCallerSide (p : Pool) (c : CallerSide) (t : Ticket) :
    (p.withCallerSide c).job? t = p.job? t := rfl

/-- Whose token has fired has no part in which jobs there are. -/
theorem job?_with_fired (p : Pool) (fired : List Ticket) (t : Ticket) :
    ({ p with fired } : Pool).job? t = p.job? t := rfl

@[simp] theorem closing_withCallerSide (p : Pool) (c : CallerSide) :
    (p.withCallerSide c).closing = p.closing := rfl

theorem give_of_closed {closed : Bool} (l : Line) (hc : closed = true) : l.give closed = l :=
  if_pos hc

theorem finish_withCallerSide (p : Pool) (c : CallerSide) (j : Job) (r : Outcome Json) :
    (p.withCallerSide c).finish j r =
      (p.finish j r).withCallerSide { c with toLine := c.toLine.give p.closed } := by
  show (if p.closed then _ else _) = withCallerSide (if p.closed then _ else _) _
  by_cases hc : p.closed = true
  · rw [if_pos hc, if_pos hc, give_of_closed _ hc]
    rfl
  · rw [if_neg hc, if_neg hc]
    rfl

theorem builtWorker_withCallerSide (p : Pool) (c : CallerSide) (j : Job) :
    (p.withCallerSide c).builtWorker j =
      (p.builtWorker j).withCallerSide { c with toLine := c.toLine.give p.closed } := by
  show (if p.closed then _ else _) = withCallerSide (if p.closed then _ else _) _
  by_cases hc : p.closed = true
  · rw [if_pos hc, if_pos hc, give_of_closed _ hc]
    rfl
  · rw [if_neg hc, if_neg hc]
    rfl

theorem release_withCallerSide (p : Pool) (c : CallerSide) (t : Ticket) (w : Worker) :
    (p.withCallerSide c).release t w =
      (p.release t w).withCallerSide { c with toLine := c.toLine.give p.closed } := by
  show (if p.closed then _ else _) = withCallerSide (if p.closed then _ else _) _
  by_cases hc : p.closed = true
  · rw [if_pos hc, if_pos hc, give_of_closed _ hc]
    rfl
  · rw [if_neg hc, if_neg hc]
    rfl

/-- Events that are about workers do not depend on callers, and only add permits. -/
theorem step_withCallerSide (p : Pool) (c : CallerSide) (he : e.byWorkers = true) :
    (p.withCallerSide c).step e =
      (p.step e).map fun q => q.withCallerSide { c with toLine := p.lineAfter c.toLine e } := by
  cases e with
  | finish u r =>
    simp only [step, job?_withCallerSide]
    cases p.job? u with
    | none => rfl
    | some j =>
      show (if j.phase.operating then _ else none) =
        Option.map _ (if j.phase.operating then _ else none)
      split
      · exact congrArg some (finish_withCallerSide p c j r)
      · rfl
  | panic u =>
    simp only [step, job?_withCallerSide]
    cases p.job? u with
    | none => rfl
    | some j =>
      show (if j.phase.operating then _ else none) =
        Option.map _ (if j.phase.operating then _ else none)
      split <;> rfl
  | crash u =>
    simp only [step, job?_withCallerSide]
    cases p.job? u with
    | none => rfl
    | some j =>
      show (if j.phase.operating then _ else none) =
        Option.map _ (if j.phase.operating then _ else none)
      split <;> rfl
  | fireOwn u =>
    simp only [step, job?_withCallerSide]
    cases p.job? u with
    | none => rfl
    | some j =>
      obtain ⟨v, w, phase⟩ := j
      cases phase <;> rfl
  | expire u =>
    simp only [step, job?_withCallerSide]
    cases p.job? u with
    | none => rfl
    | some j =>
      obtain ⟨v, w, phase⟩ := j
      cases phase with
      | winding d =>
        show (if d ≤ p.now then _ else none) = Option.map _ (if d ≤ p.now then _ else none)
        split <;> rfl
      | _ => rfl
  | jobDown u =>
    show (p.job? u).bind _ = Option.map _ ((p.job? u).bind _)
    cases p.job? u with
    | none => rfl
    | some j =>
      obtain ⟨v, w, phase⟩ := j
      cases phase with
      | retiring =>
        show (if p.closed then _ else _) = Option.map _ (if p.closed then _ else _)
        split <;> rfl
      | _ => rfl
  | built u made =>
    simp only [step, job?_withCallerSide]
    cases p.job? u with
    | none => rfl
    | some j =>
      obtain ⟨v, w, phase⟩ := j
      cases phase with
      | rebuilding =>
        cases made with
        | true => exact congrArg some (builtWorker_withCallerSide p c _)
        | false => rfl
      | _ => rfl
  | release u =>
    show (p.held? u).map _ = Option.map _ ((p.held? u).map _)
    cases p.held? u with
    | none => rfl
    | some w => exact congrArg some (release_withCallerSide p c u w)
  | released u =>
    show (if p.discards.any _ then _ else none) =
      Option.map _ (if p.discards.any _ then _ else none)
    split <;> rfl
  | abandonRelease u =>
    show (if p.discards.any _ then _ else none) =
      Option.map _ (if p.discards.any _ then _ else none)
    split <;> rfl
  | close =>
    show some (if p.closed then _ else _) = some (withCallerSide (if p.closed then _ else _) _)
    split <;> rfl
  | closedOne =>
    simp only [step, closing_withCallerSide]
    cases p.closing <;> rfl
  | abandonClose => rfl
  | wait time =>
    show (if p.now ≤ time then _ else none) = Option.map _ (if p.now ≤ time then _ else none)
    split <;> rfl
  | _ => cases he

/-- The callers' part after an event that is about workers. -/
theorem callerSide_step (he : e.byWorkers = true) (h : p.step e = some q) :
    q.callerSide = { p.callerSide with toLine := p.lineAfter p.toLine e } := by
  have hstep := step_withCallerSide p p.callerSide he
  have hsame : p.withCallerSide p.callerSide = p := rfl
  rw [hsame, h, Option.map_some] at hstep
  exact congrArg callerSide (Option.some.inj hstep)

/-- A view of a pool that changes only the callers' part. -/
def onCallers (p : Pool) (f : CallerSide → CallerSide) : Pool := p.withCallerSide (f p.callerSide)

/-- Events that are about workers keep a view that goes along with new permits. -/
theorem step_onCallers (p : Pool) {f : CallerSide → CallerSide} (he : e.byWorkers = true)
    (hf : f { p.callerSide with toLine := p.lineAfter p.toLine e } =
      { f p.callerSide with toLine := p.lineAfter (f p.callerSide).toLine e }) :
    (p.onCallers f).step e = (p.step e).map fun q => q.onCallers f := by
  rw [onCallers, step_withCallerSide p _ he]
  cases hs : p.step e with
  | none => rfl
  | some q => rw [Option.map_some, Option.map_some, onCallers, callerSide_step he hs, hf]

end Pool

end LanguageHost
