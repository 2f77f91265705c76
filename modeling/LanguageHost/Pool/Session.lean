import LanguageHost.Pool.Script
import LanguageHost.Pool.Startup
import LanguageHost.Pool.Step

/-!
# A pool on a clock of its own

A session plays a pool whose operations are scripts and whose workers are made after a plan.  Its
clock stands still as long as anything can happen, and then jumps to the next moment at which
something will.  What can happen at a moment is the agenda; its first entry happens first.
-/

namespace LanguageHost

/-- An operation under way. -/
structure OpRun where
  ticket : Ticket
  script : Script
  /-- Whether the operation knows that it is to stop. -/
  told : Bool
  wake : Nat

/-- Something that was begun and is waited for under a name. -/
inductive PoolTask where
  | acquire (t : Ticket)
  | run (t : Ticket)
  | release (t : Ticket)
  /-- Closing the pool; only whoever closes it first has workers to shut down. -/
  | close (first : Bool)

/-- What a session is asked to do. -/
inductive PoolStep where
  | acquire (h : String)
  | acquireLater (h : String)
  | run (script : Script) (cancel : CancelPlan)
  | runLater (h : String) (script : Script) (cancel : CancelPlan)
  | release (h : String)
  | releaseLater (h : String)
  | close
  | closeLater (h : String)
  | cancel (h : String)
  | abort (h : String)
  | join (h : String)
  | advance (ms : Nat)
  | stats

/-- What a session answers. -/
inductive PoolReply where
  | result (r : Outcome Json)
  /-- A worker cannot be had at once. -/
  | blocked
  /-- A run did not end within an hour. -/
  | hung
  /-- What was begun is not finished yet. -/
  | pending

/-- A pool that is played on a clock of its own. -/
structure PoolSession where
  plan : WorkerPlan
  pool : Pool
  scripts : List (Ticket × Script)
  ops : List OpRun
  /-- When the current step of a job will be done. -/
  jobDues : List (Ticket × Nat)
  /-- When a released worker will be shut down. -/
  releaseDues : List (Ticket × Nat)
  /-- When the next worker of a closed pool will be shut down. -/
  closeDue : Option Nat
  /-- When tokens will fire. -/
  alarms : List (Ticket × Nat)
  /-- The tickets whose workers are kept under a name. -/
  workers : Dict Ticket
  tasks : Dict PoolTask
  /-- What was logged since the last step, the latest first. -/
  log : List String

/-- What can happen in a session. -/
inductive PoolMoment where
  | pool (e : PoolEvent)
  /-- The stretch of an operation is over. -/
  | legEnds (t : Ticket)
  /-- The current step of a job is done. -/
  | jobDone (t : Ticket)
  /-- A released worker is shut down. -/
  | releaseDone (t : Ticket)
  /-- The next worker of a closed pool is shut down. -/
  | closeDone
  /-- The token of a run fires. -/
  | alarm (t : Ticket)

/-- An entry of a list of pairs. -/
def lookUp {α : Type} (entries : List (Nat × α)) (k : Nat) : Option α :=
  (entries.find? fun e => e.1 = k).map Prod.snd

/-- A list of pairs without the entries of one key. -/
def without {α : Type} (entries : List (Nat × α)) (k : Nat) : List (Nat × α) :=
  entries.filter fun e => e.1 ≠ k

namespace PoolSession

/-- A session with a pool that was started. -/
def new (plan : WorkerPlan) (pool : Pool) : PoolSession :=
  { plan, pool, scripts := [], ops := [], jobDues := [], releaseDues := [], closeDue := none
    alarms := [], workers := Dict.empty, tasks := Dict.empty, log := [] }

/-- Logs a line. -/
def note (s : PoolSession) (line : String) : PoolSession := { s with log := line :: s.log }

/-! ### Following the pool -/

/-- The operation of a ticket. -/
def op? (s : PoolSession) (t : Ticket) : Option OpRun := s.ops.find? fun o => o.ticket = t

/-- Starts the operation of a job, or tells it to stop. -/
def followJob (s : PoolSession) (j : Job) : PoolSession :=
  let now := s.pool.now
  let due (delay : Nat) : PoolSession :=
    if (lookUp s.jobDues j.ticket).isSome then s
    else { s with jobDues := s.jobDues ++ [(j.ticket, now + delay)] }
  match j.phase with
  | .running =>
    match s.op? j.ticket, lookUp s.scripts j.ticket with
    | none, some script =>
      let s := s.note ("start " ++ j.worker.label)
      { s with ops := s.ops ++ [⟨j.ticket, script, false, now + script.main.sleep⟩] }
    | _, _ => s
  | .winding _ =>
    let tell (o : OpRun) : OpRun :=
      match o.script.onCancel with
      | some leg => { o with told := true, wake := now + leg.sleep }
      | none => o
    { s with ops := s.ops.map fun o => if o.ticket = j.ticket ∧ !o.told then tell o else o }
  | .rebuilding => due s.plan.createDelay
  | .returning _ | .retiring | .discarding => due s.plan.shutdownDelay

/-- Takes up what an event has begun. -/
def follow (s : PoolSession) : PoolSession :=
  let s := s.pool.jobs.foldl followJob s
  let now := s.pool.now
  let fresh := s.pool.discards.filter fun d => (lookUp s.releaseDues d.1).isNone
  let due := now + s.plan.shutdownDelay
  let dues := fresh.map fun (d : Ticket × Worker) => (d.1, due)
  let s := { s with releaseDues := s.releaseDues ++ dues }
  match s.closeDue, s.pool.closing with
  | none, _ :: _ => { s with closeDue := some due }
  | _, _ => s

/-- Lets an event happen in the pool, if it is possible. -/
def event (s : PoolSession) (e : PoolEvent) : PoolSession :=
  match s.pool.step e with
  | some pool => { s with pool }.follow
  | none => s

/-! ### Moments -/

/-- What will happen, and when: first what callers do at once, then what is done, then tokens, and
last what is over. -/
def agenda (s : PoolSession) : List (Nat × PoolMoment) :=
  let p := s.pool
  let now := p.now
  p.granted.map (fun t => (now, .pool (.take t)))
    ++ ((p.watching ++ p.queue).filter p.canLearn).map (fun t => (now, .pool (.learn t)))
    ++ s.ops.map (fun o => (o.wake, .legEnds o.ticket))
    ++ s.jobDues.map (fun d => (d.2, .jobDone d.1))
    ++ s.releaseDues.map (fun d => (d.2, .releaseDone d.1))
    ++ s.closeDue.toList.map (fun d => (d, .closeDone))
    ++ s.alarms.map (fun a => (a.2, .alarm a.1))
    ++ p.jobs.filterMap fun j =>
      match j.phase with
      | .winding deadline => some (deadline, .pool (.expire j.ticket))
      | _ => none

/-- The earliest entry of an agenda, the first one of several. -/
def earliest : List (Nat × PoolMoment) → Option (Nat × PoolMoment)
  | [] => none
  | m :: rest =>
    match earliest rest with
    | some n => if m.1 ≤ n.1 then some m else some n
    | none => some m

/-- Lets something happen. -/
def happen (s : PoolSession) : PoolMoment → PoolSession
  | .pool e =>
    match e with
    | .expire t => { s with ops := s.ops.filter fun o => o.ticket ≠ t }.event e
    | _ => s.event e
  | .alarm t => { s with alarms := without s.alarms t }.event (.fire t)
  | .legEnds t =>
    match s.op? t, s.pool.job? t with
    | some o, some j =>
      let leg := if o.told then o.script.onCancel.getD o.script.main else o.script.main
      let s := { s with ops := s.ops.filter fun o => o.ticket ≠ t }
      match leg.ending.result? j.worker with
      | some r => (s.note ("end " ++ j.worker.label)).event (.finish t r)
      | none => s.event (.panic t)
    | _, _ => s
  | .jobDone t =>
    let s := { s with jobDues := without s.jobDues t }
    match s.pool.job? t with
    | some j =>
      match j.phase with
      | .rebuilding =>
        let w : Worker := ⟨j.worker.slot, s.pool.nextSerial⟩
        let made := !s.plan.createFail.contains w.serial
        (s.note (s.plan.createLine w)).event (.built t made)
      | _ => (s.note (s.plan.shutdownLine j.worker)).event (.jobDown t)
    | none => s
  | .releaseDone t =>
    let s := { s with releaseDues := without s.releaseDues t }
    match lookUp s.pool.discards t with
    | some w => (s.note (s.plan.shutdownLine w)).event (.released t)
    | none => s
  | .closeDone =>
    let s := { s with closeDue := none }
    match s.pool.closing with
    | w :: _ => (s.note (s.plan.shutdownLine w)).event .closedOne
    | [] => s

/-- How many moments are enough to come to rest. -/
def patience (s : PoolSession) : Nat :=
  16 * (s.pool.asked + s.pool.made.length + s.alarms.length + 4)

/-- Plays what happens up to a time, or until a condition holds. -/
def playUntil (limit : Nat) (enough : PoolSession → Bool) : Nat → PoolSession → PoolSession
  | 0, s => s
  | fuel + 1, s =>
    if enough s then s
    else
      match earliest s.agenda with
      | some (time, m) =>
        if time ≤ limit then
          let s := if s.pool.now < time then s.event (.wait time) else s
          playUntil limit enough fuel (s.happen m)
        else s
      | none => s

/-- Plays everything that happens at once. -/
def settle (s : PoolSession) : PoolSession := playUntil s.pool.now (fun _ => false) s.patience s

/-- Plays everything up to a time, and lets the time come. -/
def advanceTo (time : Nat) (s : PoolSession) : PoolSession :=
  (playUntil time (fun _ => false) s.patience s).event (.wait time)

/-! ### Steps -/

/-- How long a run may take while somebody waits for it. -/
def hour : Nat := 3600000

/-- Begins a run, with a token that may fire later. -/
def beginRun (s : PoolSession) (script : Script) (cancel : CancelPlan) : Ticket × PoolSession :=
  let t := s.pool.asked
  let s := { s with scripts := (t, script) :: s.scripts }
  match cancel with
  | .never => (t, s.event (.askRun false))
  | .before => (t, s.event (.askRun true))
  | .after ms =>
    let s := { s with alarms := s.alarms ++ [(t, s.pool.now + ms)] }
    (t, s.event (.askRun false))

/-- Whether what was begun is finished. -/
def isDone (s : PoolSession) : PoolTask → Bool
  | .acquire t => (s.pool.held? t).isSome || (s.pool.answer? t).isSome
  | .run t => (s.pool.answer? t).isSome
  | .release t => !(s.pool.discards.any fun d => d.1 = t)
  | .close first => !first || s.pool.closing.isEmpty

/-- The outcome of a request for a worker. -/
def workerOutcome (s : PoolSession) (t : Ticket) : Outcome Json :=
  match s.pool.held? t with
  | some w => .ok w.value
  | none => (s.pool.answer? t).getD (.ok .null)

/-- Drops what was begun. -/
def drop (s : PoolSession) : PoolTask → PoolSession
  | .acquire t | .run t => s.event (.withdraw t)
  | .release t => { s with releaseDues := without s.releaseDues t }.event (.abandonRelease t)
  | .close first => if first then { s with closeDue := none }.event .abandonClose else s

/-- Keeps something that was begun under a name. -/
def keepTask (s : PoolSession) (h : String) (task : PoolTask) : PoolSession :=
  { s with tasks := s.tasks.insert h task }

/-- Closes the pool. -/
def beginClose (s : PoolSession) : PoolTask × PoolSession :=
  (.close (!s.pool.closed), s.event .close)

/-- Takes a step, without what happens after it. -/
def stepOnly (s : PoolSession) : PoolStep → PoolReply × PoolSession
  | .acquire h =>
    let t := s.pool.asked
    let s := (s.event .ask)
    let s := (s.event (.learn t)).event (.take t)
    if s.isDone (.acquire t) then
      let r := s.workerOutcome t
      (.result r, if (s.pool.held? t).isSome then { s with workers := s.workers.insert h t } else s)
    else (.blocked, s.event (.withdraw t))
  | .acquireLater h =>
    let t := s.pool.asked
    (.result (.ok .null), (s.event .ask).keepTask h (.acquire t))
  | .run script cancel =>
    let (t, s) := s.beginRun script cancel
    let limit := s.pool.now + hour
    let s := playUntil limit (fun s => s.isDone (.run t)) s.patience s
    match s.pool.answer? t with
    | some r => (.result r, s)
    | none => (.hung, (s.event (.wait limit)).event (.withdraw t))
  | .runLater h script cancel =>
    let (t, s) := s.beginRun script cancel
    (.result (.ok .null), s.keepTask h (.run t))
  | .release h =>
    match s.workers.get? h with
    | none => (.result (.ok (.bool false)), s)
    | some t =>
      let s := { s with workers := s.workers.erase h }.event (.release t)
      let limit := s.pool.now + s.plan.shutdownDelay
      (.result (.ok (.bool true)),
        playUntil limit (fun s => s.isDone (.release t)) s.patience s)
  | .releaseLater h =>
    match s.workers.get? h with
    | none => (.result (.ok (.bool false)), s)
    | some t =>
      let s := { s with workers := s.workers.erase h }.event (.release t)
      (.result (.ok (.bool true)), s.keepTask h (.release t))
  | .close =>
    let (task, s) := s.beginClose
    let limit := s.pool.now + s.plan.shutdownDelay * s.pool.closing.length
    let s := playUntil limit (fun s => s.isDone task) s.patience s
    (.result (.ok (.bool s.pool.closed)), s)
  | .closeLater h =>
    let (task, s) := s.beginClose
    (.result (.ok .null), s.keepTask h task)
  | .cancel h =>
    match s.tasks.get? h with
    | some (.run t) => (.result (.ok (.bool true)), s.event (.fire t))
    | _ => (.result (.ok (.bool false)), s)
  | .abort h =>
    match s.tasks.get? h with
    | some task =>
      (.result (.ok (.bool true)), { s with tasks := s.tasks.erase h }.drop task)
    | none => (.result (.ok (.bool false)), s)
  | .join h =>
    match s.tasks.get? h with
    | none => (.result (.ok .null), s)
    | some task =>
      if s.isDone task then
        let s := { s with tasks := s.tasks.erase h }
        match task with
        | .acquire t =>
          let r := s.workerOutcome t
          (.result r,
            if (s.pool.held? t).isSome then { s with workers := s.workers.insert h t } else s)
        | .run t => (.result ((s.pool.answer? t).getD (.ok .null)), s)
        | .release _ | .close _ => (.result (.ok .null), s)
      else (.pending, s)
  | .advance ms => (.result (.ok .null), advanceTo (s.pool.now + ms) s)
  | .stats => (.result (.ok .null), s)

/-- Takes a step and plays everything that happens at once. -/
def step (s : PoolSession) (x : PoolStep) : PoolReply × PoolSession :=
  let (r, s) := { s with log := [] }.stepOnly x
  (r, s.settle)

/-- The lines that were logged since the last step. -/
def lines (s : PoolSession) : List String := s.log.reverse

/-! ### Starting -/

/-- Plays the start of a pool: what was logged, when it was over, and what came of it. -/
def start (plan : WorkerPlan) : Nat → Nat → Startup → List String × Nat × Except NoStart Pool
  | 0, now, s => ([], now, .error (.failed (.invalidState (s.name ++ " pool did not start"))))
  | fuel + 1, now, s =>
    match s.phase with
    | .ready =>
      match Breakdown.ofPermits? s.size with
      | some b => ([], now, .error (.brokenDown b))
      | none => ([], now, .ok (s.pool now))
    | .failed cause => ([], now, .error (.failed cause))
    | .building =>
      let w : Worker := ⟨s.made.length, s.nextSerial⟩
      let e := if plan.createFail.contains w.serial then
          StartupEvent.unmade (WorkerPlan.createError w)
        else .made
      let (log, time, r) := start plan fuel (now + plan.createDelay) ((s.step e).getD s)
      (plan.createLine w :: log, time, r)
    | .undoing _ left =>
      let (log, time, r) := start plan fuel (now + plan.shutdownDelay) ((s.step .down).getD s)
      ((left.head?.toList.map plan.shutdownLine) ++ log, time, r)

/-- Starts a pool and opens a session with it; also gives what was logged. -/
def begin (plan : WorkerPlan) (room : Room) (name : String) (size grace : Nat) :
    List String × Except NoStart PoolSession :=
  match Startup.begin room name size grace with
  | .error e => ([], .error e)
  | .ok s =>
    let (log, _, r) := start plan (2 * size + 2) 0 s
    (log, r.map (new plan))

end PoolSession

end LanguageHost
