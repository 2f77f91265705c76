import LanguageHost.Pool.Basic

/-!
# Starting a worker pool

A pool is started by making its workers one after the other.  If one cannot be made, those that
were made before it are shut down in the same order, whatever comes of that, and the start fails
with the failure of that worker.

The room for the workers is taken at once, before the first of them is made, and the size of a pool
is not limited: where there is not so much room, the program breaks down (`Room.breakdown?`), and so
it does where all workers were made and are more than may be given out
(`Breakdown.ofPermits?`).

Whoever makes the workers and shuts them down is a `Supply`, which may answer every call as it
likes, after all the calls before it.  With the supply given, a start takes its course
(`Startup.play`).
-/

namespace LanguageHost

/-- Why a program breaks down instead of starting a pool. -/
inductive Breakdown where
  /-- The workers would take more octets than can be asked for. -/
  | capacityOverflow
  /-- So many octets are not to be had. -/
  | outOfMemory (octets : Nat)
  /-- There would be more permits than can be given out. -/
  | tooManyPermits
  deriving Repr, DecidableEq

/-- Why a pool is not started: an error is returned, or the program breaks down. -/
inductive NoStart where
  | failed (cause : HostError)
  | brokenDown (breakdown : Breakdown)

/-- The room that workers take. -/
structure Room where
  /-- How many octets a worker takes. -/
  workerSize : Nat
  /-- How many octets are to be had at once. -/
  available : Nat

/-- How many octets can be asked for at once, at most. -/
def Room.mostOctets : Nat := 0x7fffffffffffffff

/-- The breakdown where the room for so many workers cannot be taken. -/
def Room.breakdown? (room : Room) (size : Nat) : Option Breakdown :=
  let octets := size * room.workerSize
  if mostOctets < octets then some .capacityOverflow
  else if room.available < octets then some (.outOfMemory octets)
  else none

/-- How many permits can be given out, at most. -/
def Breakdown.mostPermits : Nat := 0x1fffffffffffffff

/-- The breakdown where so many workers have no permits. -/
def Breakdown.ofPermits? (size : Nat) : Option Breakdown :=
  if mostPermits < size then some .tooManyPermits else none

/-- The breakdown where so many workers cannot be kept, although all of them can be made. -/
def Room.breakdownOf? (room : Room) (size : Nat) : Option Breakdown :=
  (room.breakdown? size).or (Breakdown.ofPermits? size)

/-- How far the start of a pool has come. -/
inductive StartupPhase where
  /-- The next worker is being made. -/
  | building
  /-- The workers that were made are being shut down, these are left. -/
  | undoing (cause : HostError) (left : List Worker)
  | failed (cause : HostError)
  | ready

/-- The start of a pool. -/
structure Startup where
  name : String
  size : Nat
  grace : Nat
  phase : StartupPhase
  /-- The workers that were made, in order. -/
  made : List Worker
  /-- How many workers were asked for. -/
  nextSerial : Nat
  /-- The workers that were shut down, in order. -/
  retired : List Worker

/-- What may happen while a pool starts. -/
inductive StartupEvent where
  /-- The worker for the next slot was made. -/
  | made
  /-- The worker for the next slot could not be made. -/
  | unmade (cause : HostError)
  /-- One more worker was shut down. -/
  | down

namespace Startup

/-- Begins to start a pool, which must have a worker, and takes the room for all of its workers. -/
def begin (room : Room) (name : String) (size grace : Nat) : Except NoStart Startup :=
  if size = 0 then
    .error (.failed (.configInvalid ("pool " ++ name ++ " must have at least one worker")))
  else
    match room.breakdown? size with
    | some b => .error (.brokenDown b)
    | none =>
      .ok { name, size, grace, phase := .building, made := [], nextSerial := 0, retired := [] }

/-- What an event does, if it is possible. -/
def step (s : Startup) (e : StartupEvent) : Option Startup :=
  match s.phase, e with
  | .building, .made =>
    let made := s.made ++ [⟨s.made.length, s.nextSerial⟩]
    some { s with
      made
      nextSerial := s.nextSerial + 1
      phase := if made.length < s.size then .building else .ready }
  | .building, .unmade cause =>
    some { s with
      nextSerial := s.nextSerial + 1
      phase := if s.made.isEmpty then .failed cause else .undoing cause s.made }
  | .undoing cause (w :: left), .down =>
    some { s with
      retired := s.retired ++ [w]
      phase := if left.isEmpty then .failed cause else .undoing cause left }
  | _, _ => none

/-- Plays events as far as they are possible. -/
def run (s : Startup) : List StartupEvent → Option Startup
  | [] => some s
  | e :: rest => (s.step e).bind fun s => s.run rest

/-- The pool of the workers that were made. -/
def pool (s : Startup) (now : Nat) : Pool := .opened s.name s.grace now s.made s.nextSerial

end Startup

/-! ### Supplies -/

/-- What the start of a pool asks for. -/
inductive StartupCall where
  /-- The worker of a slot is to be made. -/
  | make (slot : Nat)
  | shutDown (w : Worker)
  deriving Repr, DecidableEq

/-- Whoever makes the workers of a pool and shuts them down. -/
structure Supply where
  /-- What comes of a call after those before it. -/
  answer : List StartupCall → StartupCall → Outcome Unit

/-- What the start of a pool gets to know of the answer to a call.  How the shutdown of a worker
went makes no difference. -/
def StartupCall.event : StartupCall → Outcome Unit → StartupEvent
  | .make _, .ok _ => .made
  | .make _, .error cause => .unmade cause
  | .shutDown _, _ => .down

namespace Startup

/-- The call that is under way. -/
def call? (s : Startup) : Option StartupCall :=
  match s.phase with
  | .building => some (.make s.made.length)
  | .undoing _ (w :: _) => some (.shutDown w)
  | _ => none

/-- What came of a start, if no call is under way any more. -/
def result? (s : Startup) (now : Nat) : Option (Except NoStart Pool) :=
  match s.phase with
  | .ready =>
    match Breakdown.ofPermits? s.size with
    | some b => some (.error (.brokenDown b))
    | none => some (.ok (s.pool now))
  | .failed cause => some (.error (.failed cause))
  | _ => none

/-- Lets at most so many calls be answered, after those before them; gives all the calls and how far
the start has come. -/
def play (supply : Supply) : Nat → List StartupCall → Startup → List StartupCall × Startup
  | 0, calls, s => (calls, s)
  | m + 1, calls, s =>
    match s.call? with
    | none => (calls, s)
    | some c => play supply m (calls ++ [c]) ((s.step (c.event (supply.answer calls c))).getD s)

end Startup

/-- Starts a pool, with at most so many calls: gives the calls that were made, and what came of the
start, if none is under way any more. -/
def Supply.start (supply : Supply) (m : Nat) (room : Room) (name : String) (n grace now : Nat) :
    List StartupCall × Option (Except NoStart Pool) :=
  match Startup.begin room name n grace with
  | .error e => ([], some (.error e))
  | .ok s => ((s.play supply m []).1, (s.play supply m []).2.result? now)

end LanguageHost
