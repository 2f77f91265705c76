import LanguageHost.Error
import LanguageHost.Json.Value

/-!
# Worker pools

A pool lends out a fixed number of workers.  Each worker sits in a slot; a worker in an unknown
state is shut down and replaced by a new one in the same slot, and if that fails the pool shrinks.
Requests for a worker are tickets.  A permit stands for an idle worker: a ticket waits in a queue
for a permit and then takes the worker that became idle last.

A ticket asks either for a worker that it keeps until it is released, or for a run: an operation
on a worker, which belongs to a job of its own.  The caller of a run watches the job and may go
away, or stop waiting because its token fired, while the job goes on.

An operation is first called, which gives what is then watched until it ends.  If the call itself
panics, nothing is watched yet: the job is gone, its worker is lost without having been shut down,
and the pool goes on counting it.

This module holds the state of a pool and the small changes that its events are made of.
-/

namespace LanguageHost

/-- A worker: the slot it sits in, and how many workers had been asked for before it. -/
structure Worker where
  slot : Nat
  serial : Nat
  deriving Repr, DecidableEq

/-- The identity of a request: how many requests came before it. -/
abbrev Ticket := Nat

/-- What becomes of the worker of a job. -/
inductive JobPhase where
  /-- The operation is under way. -/
  | running
  /-- The operation was told to stop and has time until the deadline. -/
  | winding (deadline : Nat)
  /-- The operation has ended; its worker is shut down because the pool is closed, and then the
  result is sent. -/
  | returning (result : Outcome Json)
  /-- The worker is in an unknown state and is shut down. -/
  | retiring
  /-- A new worker for the slot is being made. -/
  | rebuilding
  /-- The new worker came too late and is shut down. -/
  | discarding

namespace JobPhase

/-- Whether the operation is under way. -/
def operating : JobPhase → Bool
  | running | winding _ => true
  | returning _ | retiring | rebuilding | discarding => false

/-- Whether the job still owns the slot of its worker. -/
def ownsSlot : JobPhase → Bool
  | running | winding _ | retiring | rebuilding => true
  | returning _ | discarding => false

end JobPhase

/-- The work on a run that goes on by itself. -/
structure Job where
  ticket : Ticket
  worker : Worker
  phase : JobPhase

/-- What a pool reports about itself. -/
structure PoolStats where
  size : Nat
  live : Nat
  available : Nat
  busy : Nat
  closed : Bool
  deriving Repr, DecidableEq

/-- The line in front of a pool. -/
structure Line where
  /-- How many permits nobody has. -/
  permits : Nat
  /-- The tickets that wait for a permit, in the order in which they came. -/
  queue : List Ticket
  /-- The tickets that have a permit and are about to take a worker. -/
  granted : List Ticket

namespace Line

/-- Adds a permit, which goes to the first ticket in the queue; a closed line takes no permits. -/
def give (l : Line) (closed : Bool) : Line :=
  if closed then l
  else
    match l.queue with
    | [] => { l with permits := l.permits + 1 }
    | t :: queue => { l with queue, granted := l.granted ++ [t] }

/-- Puts a ticket in line, where it gets a permit if there is one. -/
def join (l : Line) (closed : Bool) (t : Ticket) : Line :=
  if closed ∨ l.permits = 0 then { l with queue := l.queue ++ [t] }
  else { l with permits := l.permits - 1, granted := l.granted ++ [t] }

/-- Takes a ticket out of the line and gives back its permit. -/
def leave (l : Line) (closed : Bool) (t : Ticket) : Line :=
  if l.granted.contains t then ({ l with granted := l.granted.filter (· ≠ t) }).give closed
  else { l with queue := l.queue.filter (· ≠ t) }

/-- Uses up the permit of a ticket. -/
def spend (l : Line) (t : Ticket) : Line := { l with granted := l.granted.filter (· ≠ t) }

end Line

/-- The state of a pool, and what has happened in it. -/
structure Pool extends Line where
  name : String
  size : Nat
  /-- How many milliseconds an operation has to end after it was told to stop. -/
  grace : Nat
  /-- The time in milliseconds. -/
  now : Nat
  /-- The idle workers, the last one to become idle first. -/
  idle : List Worker
  closed : Bool
  /-- How many workers there are, idle or lent out. -/
  live : Nat
  /-- Whether that number was ever to be lowered below zero. -/
  overdrawn : Bool
  /-- How many requests came. -/
  asked : Nat
  /-- The tickets that ask for a run. -/
  runs : List Ticket
  /-- The runs whose tokens have fired. -/
  fired : List Ticket
  /-- The runs whose operations have fired the tokens that they were handed, the latest first. -/
  ownFired : List Ticket
  /-- The workers that were handed out and not released yet. -/
  held : List (Ticket × Worker)
  jobs : List Job
  /-- All operations that were ever started, each on its worker, the latest first. -/
  started : List (Ticket × Worker)
  /-- The runs with a job whose callers are still there. -/
  watching : List Ticket
  /-- The results that jobs have sent. -/
  sent : List (Ticket × Outcome Json)
  /-- What callers were told; a ticket that was handed a worker was told nothing else. -/
  answers : List (Ticket × Outcome Json)
  /-- The workers that closing has yet to shut down. -/
  closing : List Worker
  /-- The workers that are shut down because they were released into a closed pool. -/
  discards : List (Ticket × Worker)
  /-- How many workers were asked for. -/
  nextSerial : Nat
  /-- How many workers had to be replaced. -/
  replaced : Nat
  /-- All workers that were ever made. -/
  made : List Worker
  /-- All workers whose shutdown was ever begun, the latest first. -/
  retired : List Worker
  /-- All workers that were lost with operations that panicked as they were called, the latest
  first. -/
  lost : List Worker

namespace Pool

/-- A pool of idle workers, the last one on top. -/
def opened (name : String) (grace now : Nat) (workers : List Worker) (nextSerial : Nat) : Pool :=
  { name, size := workers.length, grace, now, idle := workers.reverse, closed := false
    live := workers.length, overdrawn := false, permits := workers.length, asked := 0, queue := []
    granted := [], runs := [], fired := [], ownFired := [], held := [], jobs := [], started := []
    watching := [], sent := [], answers := [], closing := [], discards := [], nextSerial
    replaced := 0, made := workers, retired := [], lost := [] }

/-- What the pool reports about itself. -/
def stats (p : Pool) : PoolStats :=
  { size := p.size, live := p.live, available := p.idle.length, busy := p.live - p.idle.length
    closed := p.closed }

/-- The job of a ticket. -/
def job? (p : Pool) (t : Ticket) : Option Job := p.jobs.find? fun j => j.ticket = t

/-- What the caller of a ticket was told. -/
def answer? (p : Pool) (t : Ticket) : Option (Outcome Json) :=
  (p.answers.find? fun a => a.1 = t).map Prod.snd

/-- The result that the job of a ticket has sent. -/
def sent? (p : Pool) (t : Ticket) : Option (Outcome Json) :=
  (p.sent.find? fun a => a.1 = t).map Prod.snd

/-- The worker that a ticket was handed. -/
def held? (p : Pool) (t : Ticket) : Option Worker :=
  (p.held.find? fun h => h.1 = t).map Prod.snd

/-- Whether the token of a run has fired. -/
def hasFired (p : Pool) (t : Ticket) : Bool := p.runs.contains t && p.fired.contains t

/-! ### Small changes -/

/-- Tells the caller of a ticket something. -/
def tell (p : Pool) (t : Ticket) (r : Outcome Json) : Pool :=
  { p with answers := (t, r) :: p.answers }

/-- Sends a result to whoever watches the job of a ticket. -/
def send (p : Pool) (t : Ticket) (r : Outcome Json) : Pool :=
  { p with sent := (t, r) :: p.sent }

/-- Changes a job. -/
def setJob (p : Pool) (t : Ticket) (f : Job → Job) : Pool :=
  { p with jobs := p.jobs.map fun j => if j.ticket = t then f j else j }

/-- Puts a job into another phase. -/
def setPhase (p : Pool) (t : Ticket) (phase : JobPhase) : Pool :=
  p.setJob t fun j => { j with phase }

/-- Ends a job. -/
def endJob (p : Pool) (t : Ticket) : Pool :=
  { p with jobs := p.jobs.filter fun j => j.ticket ≠ t }

/-- Adds a permit. -/
def addPermit (p : Pool) : Pool := { p with toLine := p.toLine.give p.closed }

/-- Puts a worker among the idle ones. -/
def putBack (p : Pool) (w : Worker) : Pool := ({ p with idle := w :: p.idle }).addPermit

/-- Loses a worker, which nobody shuts down and which still counts. -/
def lose (p : Pool) (w : Worker) : Pool := { p with lost := w :: p.lost }

/-- Begins to shut a worker down. -/
def retire (p : Pool) (w : Worker) : Pool := { p with retired := w :: p.retired }

/-- Lowers the number of workers, not below zero. -/
def dropLive (p : Pool) (n : Nat) : Pool :=
  { p with live := p.live - n, overdrawn := p.overdrawn || decide (p.live < n) }

/-- Takes a slot away; a pool without workers is closed. -/
def shrink (p : Pool) : Pool :=
  { p.dropLive 1 with closed := p.closed || decide (p.live - 1 = 0) }

/-- Takes a ticket out of the line and gives back its permit. -/
def forget (p : Pool) (t : Ticket) : Pool := { p with toLine := p.toLine.leave p.closed t }

/-- The failure of an operation that panicked. -/
def panicError (p : Pool) : HostError := .invalidState (p.name ++ " worker panicked")

/-- The failure of a job that ended without a result. -/
def lostError (p : Pool) : HostError :=
  .invalidState (p.name ++ " worker task ended without a result")

/-- The failure of a permit without a worker. -/
def permitError (p : Pool) : HostError :=
  .invalidState (p.name ++ " pool permit without idle worker")

end Pool

end LanguageHost
