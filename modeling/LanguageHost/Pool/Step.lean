import LanguageHost.Pool.Basic

/-!
# The events of a worker pool

A pool changes by events, in any order in which they are possible.  Some come from outside: a
request, a token that fires, a caller that goes away, a worker that is released, the pool being
closed.  Some say how the work on a worker went: an operation ended, panicked or told itself to
stop, a worker was shut down, a new worker was made or could not be made.  The rest are steps that
a caller takes as soon as it can.

`Pool.step` is total and gives `none` for an event that is not possible; `Pool.run` plays a list
of events.
-/

namespace LanguageHost

/-- What may happen in a pool. -/
inductive PoolEvent where
  /-- The next ticket asks for a worker. -/
  | ask
  /-- The next ticket asks for a run; its token may have fired already. -/
  | askRun (fired : Bool)
  /-- The token of a run fires. -/
  | fire (t : Ticket)
  /-- A caller goes away. -/
  | withdraw (t : Ticket)
  /-- A caller with a permit takes a worker. -/
  | take (t : Ticket)
  /-- A caller learns what there is to learn: a result, that its token fired, or that the pool was
  closed while it waited. -/
  | learn (t : Ticket)
  /-- The operation of a run ends. -/
  | finish (t : Ticket) (result : Outcome Json)
  /-- The operation of a run panics. -/
  | panic (t : Ticket)
  /-- The operation of a run panics as it is called, before there is anything to watch. -/
  | crash (t : Ticket)
  /-- The operation of a run fires the token that it was handed, which is not its caller's. -/
  | fireOwn (t : Ticket)
  /-- The time to end is over, and the operation is dropped. -/
  | expire (t : Ticket)
  /-- The worker of a job has been shut down. -/
  | jobDown (t : Ticket)
  /-- The new worker of a job was made, or could not be made. -/
  | built (t : Ticket) (made : Bool)
  /-- A worker that was handed out is released. -/
  | release (t : Ticket)
  /-- A released worker has been shut down. -/
  | released (t : Ticket)
  /-- Whoever released a worker goes away before it was shut down. -/
  | abandonRelease (t : Ticket)
  /-- The pool is closed. -/
  | close
  /-- Closing has shut down one more worker. -/
  | closedOne
  /-- Whoever closed the pool goes away before all workers were shut down. -/
  | abandonClose
  /-- Time passes. -/
  | wait (time : Nat)

namespace Pool

/-- Puts a ticket in line for a worker. -/
def line (p : Pool) (t : Ticket) : Pool := { p with toLine := p.toLine.join p.closed t }

/-- A caller with a permit takes a worker, unless its token has fired or the pool is closed. -/
def take (p : Pool) (t : Ticket) : Pool :=
  if p.hasFired t then (p.forget t).tell t (.error .operationCancelled)
  else if p.closed then (p.forget t).tell t (.error .poolClosed)
  else
    match p.idle with
    | [] => (p.forget t).tell t (.error p.permitError)
    | w :: idle =>
      let p := { p with idle, toLine := p.toLine.spend t }
      if p.runs.contains t then
        { p with
          jobs := p.jobs ++ [⟨t, w, .running⟩]
          started := (t, w) :: p.started
          watching := t :: p.watching }
      else { p with held := (t, w) :: p.held }

/-- Whether a caller has something to learn. -/
def canLearn (p : Pool) (t : Ticket) : Bool :=
  (p.queue.contains t && (p.closed || p.hasFired t))
    || (p.granted.contains t && p.hasFired t)
    || (p.watching.contains t && ((p.sent? t).isSome || (p.job? t).isNone || p.hasFired t))

/-- A caller learns what there is to learn: a result comes first, or that there will be none, and
then that its token fired. -/
def learn (p : Pool) (t : Ticket) : Pool :=
  if p.watching.contains t then
    let p' := { p with watching := p.watching.filter (· ≠ t) }
    match p.sent? t with
    | some r => p'.tell t r
    | none => p'.tell t (.error (if (p.job? t).isNone then p.lostError else .operationCancelled))
  else
    (p.forget t).tell t (.error (if p.hasFired t then .operationCancelled else .poolClosed))

/-- The operation of a job has ended: its worker is given back, and then the result is sent. -/
def finish (p : Pool) (j : Job) (r : Outcome Json) : Pool :=
  if p.closed then ((p.dropLive 1).retire j.worker).setPhase j.ticket (.returning r)
  else ((p.endJob j.ticket).putBack j.worker).send j.ticket r

/-- The operation of a job is given up: the result is sent, and its worker is shut down. -/
def giveUp (p : Pool) (j : Job) (e : HostError) : Pool :=
  ((p.send j.ticket (.error e)).retire j.worker).setPhase j.ticket .retiring

/-- The worker of a job has been shut down. -/
def jobDown (p : Pool) (j : Job) : Option Pool :=
  match j.phase with
  | .returning r => some ((p.endJob j.ticket).send j.ticket r)
  | .retiring =>
    let p := { p with replaced := p.replaced + 1 }
    if p.closed then some ((p.dropLive 1).endJob j.ticket)
    else some (p.setPhase j.ticket .rebuilding)
  | .discarding => some (p.endJob j.ticket)
  | _ => none

/-- The new worker of a job was made. -/
def builtWorker (p : Pool) (j : Job) : Pool :=
  let w : Worker := ⟨j.worker.slot, p.nextSerial⟩
  let p := { p with nextSerial := p.nextSerial + 1, made := p.made ++ [w] }
  if p.closed then
    ((p.dropLive 1).retire w).setJob j.ticket fun k =>
      { k with worker := w, phase := .discarding }
  else (p.endJob j.ticket).putBack w

/-- The new worker of a job could not be made. -/
def builtNothing (p : Pool) (j : Job) : Pool :=
  ({ p with nextSerial := p.nextSerial + 1 }.endJob j.ticket).shrink

/-- A worker that was handed out is released. -/
def release (p : Pool) (t : Ticket) (w : Worker) : Pool :=
  let p := { p with held := p.held.filter fun h => h.1 ≠ t }
  if p.closed then
    let p := (p.dropLive 1).retire w
    { p with discards := p.discards ++ [(t, w)] }
  else p.putBack w

/-- Begins to shut down the next worker that closing has yet to shut down. -/
def closeNext (p : Pool) : Pool := { p with retired := p.closing.take 1 ++ p.retired }

/-- Closes the pool; the idle workers are shut down one after the other, the one at the bottom
first. -/
def close (p : Pool) : Pool :=
  if p.closed then p
  else
    let drained := p.idle.reverse
    (({ p with closed := true, idle := [], closing := drained }).dropLive drained.length).closeNext

/-- What an event does, if it is possible. -/
def step (p : Pool) : PoolEvent → Option Pool
  | .ask => some ({ p with asked := p.asked + 1 }.line p.asked)
  | .askRun fired =>
    let t := p.asked
    let p := { p with asked := t + 1, runs := t :: p.runs }
    if fired then some ({ p with fired := t :: p.fired }.tell t (.error .operationCancelled))
    else some (p.line t)
  | .fire t =>
    if !p.runs.contains t || p.fired.contains t then none
    else
      let p := { p with fired := t :: p.fired }
      match p.job? t with
      | some ⟨_, _, .running⟩ => some (p.setPhase t (.winding (p.now + p.grace)))
      | _ => some p
  | .withdraw t =>
    some { p.forget t with watching := p.watching.filter (· ≠ t) }
  | .take t => if p.granted.contains t then some (p.take t) else none
  | .learn t => if p.canLearn t then some (p.learn t) else none
  | .finish t r =>
    match p.job? t with
    | some j => if j.phase.operating then some (p.finish j r) else none
    | none => none
  | .panic t =>
    match p.job? t with
    | some j => if j.phase.operating then some (p.giveUp j p.panicError) else none
    | none => none
  | .crash t =>
    match p.job? t with
    | some j => if j.phase.operating then some ((p.endJob t).lose j.worker) else none
    | none => none
  | .fireOwn t =>
    match p.job? t with
    | some ⟨_, _, .running⟩ =>
      some ({ p with ownFired := t :: p.ownFired }.setPhase t (.winding (p.now + p.grace)))
    | _ => none
  | .expire t =>
    match p.job? t with
    | some j =>
      match j.phase with
      | .winding deadline =>
        if deadline ≤ p.now then some (p.giveUp j .operationCancelled) else none
      | _ => none
    | none => none
  | .jobDown t => (p.job? t).bind p.jobDown
  | .built t made =>
    match p.job? t with
    | some j =>
      match j.phase with
      | .rebuilding => some (if made then p.builtWorker j else p.builtNothing j)
      | _ => none
    | none => none
  | .release t => (p.held? t).map (p.release t)
  | .released t | .abandonRelease t =>
    if p.discards.any fun d => d.1 = t then
      some { p with discards := p.discards.filter fun d => d.1 ≠ t }
    else none
  | .close => some p.close
  | .closedOne =>
    match p.closing with
    | _ :: closing => some { p with closing }.closeNext
    | [] => none
  | .abandonClose => some { p with closing := [] }
  | .wait time => if p.now ≤ time then some { p with now := time } else none

/-- Plays events as far as they are possible. -/
def run (p : Pool) : List PoolEvent → Option Pool
  | [] => some p
  | e :: rest => (p.step e).bind fun p => p.run rest

end Pool

end LanguageHost
