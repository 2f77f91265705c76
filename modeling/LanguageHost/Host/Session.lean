import LanguageHost.Host.Script
import LanguageHost.Host.Step
import LanguageHost.Machine.Basic
import LanguageHost.Pool.Script

/-!
# A host on a machine

A session plays a host on a machine, one request after the other.  What can happen at a moment is
the agenda; of the earliest entries the first one happens.  Native functions and processes take
turns with the clock as the machine's clock has it: a steady clock waits for processes that end, a
jumping clock overtakes them all.
-/

namespace LanguageHost

/-- How far a process has come. -/
inductive ChildPhase where
  | running (deadline? : Option Nat)
  /-- It was asked to end, and will be killed at a time. -/
  | ending (cause : ChildReport) (killAt : Nat)
  | killed (cause : ChildReport)

/-- The process of a ticket. -/
structure Child where
  engine : EngineId
  ticket : Ticket
  run : Except String LineRun
  killGrace : Nat
  phase : ChildPhase

/-- What an application function that has acted waits for. -/
inductive FunctionPause where
  | token
  | call (c : CallId)

/-- What can happen in a session. -/
inductive HostMoment where
  | event (e : HostEvent)
  /-- The program breaks down, as there is no room for the workers of an interpreter. -/
  | breaksDown (b : Breakdown)
  /-- A native function that waits for the gate begins. -/
  | begins (r : EngineId) (t : Ticket)
  /-- A process has ended. -/
  | childEnds (child : Child) (report : ChildReport)
  /-- A process is asked to end because its time is over. -/
  | childLate (child : Child)
  /-- A process is killed. -/
  | childKill (child : Child) (cause : ChildReport)
  /-- An application function comes back from its call and begins its work. -/
  | functionReturns (c : CallId)
  /-- An application function has slept and acts. -/
  | functionActs (c : CallId)
  /-- The work of an application function comes to its end. -/
  | functionEnds (c : CallId) (result : Outcome Json)
  /-- The token of a request fires. -/
  | alarm (token : Token)

/-- A host that is played on a machine. -/
structure HostSession where
  host : Host
  machine : Machine
  /-- The scripts of the foreign engines. -/
  scripts : List (EngineId × EngineScript)
  /-- The bodies of the native functions, by their identities. -/
  bodies : List NativeBody
  /-- The scripts of the application functions, by their identities. -/
  functions : List FunctionScript
  /-- The calls that are inside of functions which wait for something, the outer ones first. -/
  pauses : List (CallId × FunctionPause)
  children : List Child
  /-- The native functions that wait for the gate. -/
  waiting : List (EngineId × Ticket)
  gateOpen : Bool
  /-- When tokens will fire. -/
  alarms : List (Token × Nat)
  /-- The token of the request that is being played. -/
  current : Token
  /-- What was logged since the last time. -/
  lines : List String
  /-- How many notes were logged. -/
  shown : Nat
  /-- Why the program broke down, if it did. -/
  brokenDown? : Option Breakdown

namespace HostSession

/-- A session with a host of a configuration. -/
def new (config : HostConfig) (machine : Machine) : Outcome HostSession :=
  (Host.new config).map fun host =>
    { host, machine, scripts := [], bodies := [], functions := [], pauses := [], children := []
      waiting := [], gateOpen := false, alarms := [], current := default, lines := [], shown := 0
      brokenDown? := none }

/-! ### Engines -/

/-- Makes an engine. -/
def make (s : HostSession) (e : Engine) (guard? : Option EnforcerId) : EngineId × HostSession :=
  let (r, host) := s.host.make e guard?
  (r, { s with host })

/-- Makes a foreign engine that follows a script. -/
def makeForeign (s : HostSession) (name version : String) (script : EngineScript)
    (guard? : Option EnforcerId) : EngineId × HostSession :=
  let (r, s) := s.make (.foreign name version) guard?
  (r, { s with scripts := (r, script) :: s.scripts })

/-- Makes a native engine in which functions of these bodies are registered in order. -/
def makeNative (s : HostSession) (name version : String)
    (registrations : List (String × NativeBody)) (guard? : Option EnforcerId) :
    EngineId × HostSession :=
  let table := Dict.ofList (registrations.zipIdx.map fun (entry, i) =>
    (entry.1, s.bodies.length + i))
  let (r, s) := s.make (.native name version table) guard?
  (r, { s with bodies := s.bodies ++ registrations.map Prod.snd })

/-- The script of a foreign engine. -/
def scriptOf? (s : HostSession) (r : EngineId) : Option EngineScript :=
  (s.scripts.find? fun e => e.1 = r).map Prod.snd

/-- The body of the function of a symbol. -/
def bodyOf? (s : HostSession) (r : EngineId) (symbol : String) : Option NativeBody :=
  match (s.host.engine? r).map Engine.kind with
  | some (.native _ table) => (table.get? symbol).bind fun f => s.bodies[f]?
  | _ => none

/-- Whether the work of a ticket waits for the gate. -/
def waits (s : HostSession) (r : EngineId) (w : Work) : Bool :=
  match w.item with
  | .native symbol _ =>
    match s.bodyOf? r symbol with
    | some .fireAndWait => true
    | _ => false
  | .process _ => false

/-- Gives a name on the bridge to an application function that follows a script. -/
def registerFunction (s : HostSession) (name : String) (script : FunctionScript) :
    Outcome Unit × HostSession :=
  let (r, bridge) := s.host.bridge.register name (.app s.functions.length)
  (r, { s with host := { s.host with bridge }, functions := s.functions ++ [script] })

/-- What a call that is inside of an application function waits for, if the function has acted. -/
def pauseOf? (s : HostSession) (c : CallId) : Option FunctionPause :=
  (s.pauses.find? fun p => p.1 = c).map Prod.snd

/-! ### Following the host -/

/-- The engines with their identities. -/
def enginesOf (h : Host) : List (EngineId × Engine) :=
  h.engines.zipIdx.map fun (g, r) => (r, g.engine)

/-- The jobs of an engine whose operation is under way, each with its work. -/
def underWay (e : Engine) : List (Job × Work) :=
  (e.pool?.elim [] Pool.jobs).filterMap fun j =>
    match j.phase with
    | .running | .winding _ => (e.work? j.ticket).map fun w => (j, w)
    | _ => none

/-- All jobs whose operation is under way. -/
def jobsUnderWay (h : Host) : List (EngineId × Engine × Work) :=
  (enginesOf h).flatMap fun (r, e) => (underWay e).map fun (_, w) => (r, e, w)

/-- Whether a process belongs to the work of a ticket. -/
def Child.is (child : Child) (r : EngineId) (t : Ticket) : Bool :=
  child.engine = r && child.ticket = t

/-- The process of a job that has none yet. -/
def newChild (s : HostSession) (r : EngineId) (w : Work) (spawn : Spawn) : Child :=
  { engine := r
    ticket := w.ticket
    run := s.machine.spawn spawn
    killGrace := spawn.killGrace
    phase := .running (spawn.limit?.map fun d => s.host.now + d.toMillis) }

/-- Asks a process to end because the token of its call has fired. -/
def stopChild (now : Nat) (child : Child) : Child :=
  match child.phase, child.run with
  | .running _, .ok _ => { child with phase := .ending .stopped (now + child.killGrace) }
  | _, _ => child

/-- The process of a job, as the job has it. -/
def childOf? (s : HostSession) (r : EngineId) (e : Engine) (w : Work) : Option Child :=
  match w.item with
  | .process spawn =>
    let child := (s.children.find? fun c => Child.is c r w.ticket).getD (s.newChild r w spawn)
    let fired := e.pool?.elim false fun p => p.fired.contains w.ticket
    some (if fired then stopChild s.host.now child else child)
  | .native .. => none

/-- Starts the processes of new jobs, asks those of cancelled jobs to end, and forgets those of
jobs that are gone. -/
def follow (s : HostSession) : HostSession :=
  let jobs := jobsUnderWay s.host
  { s with
    children := jobs.filterMap fun (r, e, w) => s.childOf? r e w
    waiting := s.waiting.filter fun (r, t) => jobs.any fun (q, _, w) => q = r && w.ticket = t }

/-- Whether a call is inside of an application function. -/
def isInside (s : HostSession) (c : CallId) : Bool :=
  match (s.host.call? c).map Call.stage with
  | some (.inside ..) => true
  | _ => false

/-- Goes away from the calls that functions have waited for which were left. -/
def leaveFunctions (s : HostSession) : HostSession :=
  s.pauses.foldl (fun s (c, pause) =>
    if s.isInside c then { s with pauses := s.pauses ++ [(c, pause)] }
    else match pause with
      | .call d => { s with host := (s.host.step (.drop d)).getD s.host }
      | .token => s) { s with pauses := [] }

/-- Logs what was noted since the last time. -/
def logNotes (s : HostSession) : HostSession :=
  let notes := s.host.notes
  let fresh := (notes.take (notes.length - s.shown)).reverse
  { s with lines := s.lines ++ fresh.filterMap (HostNote.line? s.host), shown := notes.length }

/-- Logs a line about a function that has a label. -/
def logFunction (s : HostSession) (word : String) (f : FunctionId) : HostSession :=
  match s.functions[f]?.bind FunctionScript.label? with
  | some label => { s with lines := s.lines ++ [word ++ " " ++ label] }
  | none => s

/-- Lets an event happen in the host, if it is possible. -/
def event (s : HostSession) (e : HostEvent) : HostSession :=
  match s.host.step e with
  | some host => { s with host }.logNotes.leaveFunctions.follow
  | none => s

/-! ### Moments -/

/-- What the function that a call is inside of does at once. -/
def functionStep? (s : HostSession) (c : Call) : Option HostMoment :=
  match c.stage with
  | .called .. => some (.functionReturns c.id)
  | .inside _ token _ =>
    match s.pauseOf? c.id with
    | some .token =>
      if s.host.hasFired token then some (.functionEnds c.id (.ok (.str "stopped"))) else none
    | some (.call d) => (s.host.answer? d).map fun result => .functionEnds c.id result
    | none => none
  | _ => none

/-- What a call does at once; outer calls come before those inside of them. -/
def callSteps (s : HostSession) : List (Nat × HostMoment) :=
  s.host.calls.reverse.filterMap fun c =>
    match s.host.resume c with
    | some _ => some (s.host.now, .event (.resume c.id))
    | none => (s.functionStep? c).map fun m => (s.host.now, m)

/-- What the callers of tickets do at once. -/
def takeSteps (s : HostSession) : List (Nat × HostMoment) :=
  (enginesOf s.host).flatMap fun (r, e) =>
    (e.pool?.elim [] fun p => p.granted).map fun t => (s.host.now, .event (.pool r (.take t)))

/-- When the stages of calls are over by themselves. -/
def stageEnds (s : HostSession) : List (Nat × HostMoment) :=
  s.host.calls.filterMap fun c =>
    match c.stage with
    | .acting r op =>
      (s.scriptOf? r).map fun script =>
        (c.since + (script.act op).sleep, .event (.acted c.id (script.outcome op)))
    | .inside f _ _ =>
      match s.pauseOf? c.id with
      | none => s.functions[f]?.map fun script => (c.since + script.sleep, .functionActs c.id)
      | some _ => none
    | _ => none

/-- What the end of the preparations of an interpreter comes to: its workers are made if they have
succeeded, which takes room. -/
def preparedMoment (s : HostSession) (c : CallId) (language : Language)
    (settings : RuntimeSettings) : HostMoment :=
  let p := s.machine.prepare language settings
  match p.breakdown? s.machine.room settings with
  | some b => .breaksDown b
  | none => .event (.prepared c p.report)

/-- The preparations of interpreters under way, and what will come of them. -/
def preparations (s : HostSession) : List (Nat × HostMoment) :=
  s.host.calls.filterMap fun c =>
    match c.stage with
    | .preparing r settings =>
      match (s.host.engine? r).map Engine.kind with
      | some (.interpreter language) =>
        some (s.host.now, s.preparedMoment c.id language settings)
      | _ => none
    | _ => none

/-- The processes that could not be started. -/
def stillborn (s : HostSession) : List (Nat × HostMoment) :=
  s.children.filterMap fun child =>
    match child.run with
    | .error reason => some (s.host.now, .childEnds child (.unspawned reason))
    | .ok _ => none

/-- What is done about workers at once, since workers take no time to be made or shut down. -/
def workerSteps (s : HostSession) : List (Nat × HostMoment) :=
  (enginesOf s.host).flatMap fun (r, e) =>
    (e.pool?.elim [] Pool.jobs).filterMap fun j =>
      match j.phase with
      | .returning _ | .retiring | .discarding =>
        some (s.host.now, .event (.pool r (.jobDown j.ticket)))
      | .rebuilding => some (s.host.now, .event (.pool r (.built j.ticket true)))
      | _ => none

/-- When operations that were told to stop are given up. -/
def expirations (s : HostSession) : List (Nat × HostMoment) :=
  (enginesOf s.host).flatMap fun (r, e) =>
    (e.pool?.elim [] Pool.jobs).filterMap fun j =>
      match j.phase with
      | .winding deadline => some (deadline, .event (.pool r (.expire j.ticket)))
      | _ => none

/-- When processes have to be done. -/
def childLimits (s : HostSession) : List (Nat × HostMoment) :=
  s.children.filterMap fun child =>
    match child.run, child.phase with
    | .ok _, .running (some deadline) => some (deadline, .childLate child)
    | .ok _, .ending cause killAt => some (killAt, .childKill child cause)
    | _, _ => none

/-- When starts have to be done. -/
def startLimits (s : HostSession) : List (Nat × HostMoment) :=
  s.host.calls.flatMap fun c =>
    c.frames.filterMap fun f =>
      match f with
      | .starting _ (some limit) _ => some (limit.deadline, .event (.timeOut c.id))
      | _ => none

/-- How the function of a symbol ends for a ticket. -/
def nativeEnding (s : HostSession) (r : EngineId) (e : Engine) (t : Ticket) (symbol : String)
    (args : List Json) : NativeEnding :=
  let fired := e.pool?.elim false fun p => p.fired.contains t
  (s.bodyOf? r symbol).elim (.value .null) (NativeBody.ending args fired)

/-- What native functions do; those that wait for the gate end when it is open. -/
def nativeSteps (s : HostSession) : List (Nat × HostMoment) :=
  (jobsUnderWay s.host).filterMap fun (r, e, w) =>
    match w.item with
    | .process _ => none
    | .native symbol args =>
      let ending := s.nativeEnding r e w.ticket symbol args
      let ends := some (s.host.now, HostMoment.event (.workEnds r w.ticket (.returned ending)))
      if !s.waits r w then ends
      else if !s.waiting.contains (r, w.ticket) then some (s.host.now, .begins r w.ticket)
      else if s.gateOpen then ends
      else none

/-- How a process ends, if it does by itself. -/
def childEnd? (child : Child) (run : LineRun) : Option ChildReport :=
  match run.ending, child.phase with
  | .exits status, .running _ => some (.ended ⟨status, run.out, run.err⟩)
  | .exits _, .ending cause _ => some cause
  | .hangs, .ending cause _ => if run.deaf then none else some cause
  | _, .killed cause => some cause
  | .hangs, .running _ => none

/-- The processes that end by themselves. -/
def childEndings (s : HostSession) : List (Nat × HostMoment) :=
  s.children.filterMap fun child =>
    match child.run with
    | .ok run => (childEnd? child run).map fun report => (s.host.now, .childEnds child report)
    | .error _ => none

/-- What will happen, and when. -/
def agenda (s : HostSession) : List (Nat × HostMoment) :=
  let quick := if s.machine.onPath then [] else s.preparations
  let slow := (if s.machine.onPath then s.preparations else []) ++ s.childEndings
  let entries := s.callSteps ++ s.takeSteps ++ s.stageEnds ++ quick ++ s.stillborn
    ++ s.workerSteps ++ s.alarms.map (fun a => (a.2, .alarm a.1)) ++ s.expirations
    ++ s.childLimits ++ s.startLimits ++ s.nativeSteps
  match s.machine.clock with
  | .steady => entries ++ slow
  | .jumping => if entries.isEmpty then slow else entries

/-- The earliest entry of an agenda, the first one of several. -/
def earliest : List (Nat × HostMoment) → Option (Nat × HostMoment)
  | [] => none
  | m :: rest =>
    match earliest rest with
    | some n => if m.1 ≤ n.1 then some m else some n
    | none => some m

/-- Changes the process of a ticket. -/
def setPhase (s : HostSession) (child : Child) (phase : ChildPhase) : HostSession :=
  let change (c : Child) : Child :=
    if Child.is c child.engine child.ticket then { c with phase } else c
  { s with children := s.children.map change }

/-- An application function comes back from its call and begins its work. -/
def functionReturns (s : HostSession) (c : CallId) : HostSession :=
  let s := s.event (.returned c)
  match (s.host.call? c).map Call.stage with
  | some (.inside f _ _) => s.logFunction "enter" f
  | _ => s

/-- The work of an application function comes to its end. -/
def functionEnds (s : HostSession) (c : CallId) (result : Outcome Json) : HostSession :=
  match (s.host.call? c).map Call.stage with
  | some (.inside f _ _) => (s.logFunction "leave" f).event (.finished c result)
  | _ => s

/-- The function that a call is inside of waits for something. -/
def pause (s : HostSession) (c : CallId) (pause : FunctionPause) : HostSession :=
  { s with pauses := s.pauses ++ [(c, pause)] }

/-- An application function of a call acts. -/
def perform (s : HostSession) (c : CallId) (act : FunctionAct) (token : Token)
    (args : List Json) : HostSession :=
  match act with
  | .echo => s.functionEnds c (.ok (.arr args))
  | .count => s.functionEnds c (.ok (.int args.length))
  | .value v => s.functionEnds c (.ok v)
  | .failure e => s.functionEnds c (.error e)
  | .askToken => s.functionEnds c (.ok (.bool (s.host.hasFired token)))
  | .fireToken => (s.event (.fire token)).functionEnds c (.ok (.bool true))
  | .awaitToken => s.pause c .token
  | .register name =>
    let (r, s) := s.registerFunction name .counter
    s.functionEnds c (s.host.bridge.outcome r)
  | .unregister name =>
    let (r, bridge) := s.host.bridge.unregister name
    (s.event (.bridgeUnregister name)).functionEnds c (bridge.outcome r)
  | .call name =>
    (s.pause c (.call s.host.asked)).event (.ask (.bridge name args) token)

/-- An application function has slept and acts. -/
def functionActs (s : HostSession) (c : CallId) : HostSession :=
  match (s.host.call? c).map Call.stage with
  | some (.inside f token args) =>
    s.functions[f]?.elim s fun script => s.perform c script.act token args
  | _ => s

/-- Lets something happen. -/
def happen (s : HostSession) : HostMoment → HostSession
  | .event e => s.event e
  | .breaksDown b => { s with brokenDown? := some b }
  | .begins r t => { s with waiting := (r, t) :: s.waiting }.event (.fire s.current)
  | .childEnds child report => s.event (.workEnds child.engine child.ticket (.child report))
  | .childLate child => s.setPhase child (.ending .timedOut (s.host.now + child.killGrace))
  | .childKill child cause => s.setPhase child (.killed cause)
  | .functionReturns c => s.functionReturns c
  | .functionActs c => s.functionActs c
  | .functionEnds c result => s.functionEnds c result
  | .alarm token =>
    { s with alarms := s.alarms.filter fun a => a.1 ≠ token }.event (.fire token)

/-- How many moments a request may last. -/
def patience : Nat := 100000

/-- Plays what happens up to a time, if one is given, or until a condition holds. -/
def playUntil (limit? : Option Nat) (enough : HostSession → Bool) :
    Nat → HostSession → HostSession
  | 0, s => s
  | fuel + 1, s =>
    if enough s || s.brokenDown?.isSome then s
    else
      match earliest s.agenda with
      | some (time, m) =>
        if limit?.elim true fun limit => time ≤ limit then
          let s := if s.host.now < time then s.event (.wait time) else s
          playUntil limit? enough fuel (s.happen m)
        else s
      | none => s

/-- Plays everything that happens at once. -/
def settle (s : HostSession) : HostSession :=
  playUntil (some s.host.now) (fun _ => false) patience s

/-- Lets some milliseconds pass. -/
def advance (s : HostSession) (ms : Nat) : HostSession :=
  let time := s.host.now + ms
  (playUntil (some time) (fun _ => false) patience s).event (.wait time)

/-! ### Requests -/

/-- Makes the token of the next request, which fires as planned. -/
def nextToken (s : HostSession) (cancel : CancelPlan) : Token × HostSession :=
  let (token, host) := s.host.newToken
  let s := { s with host, current := token }
  match cancel with
  | .never => (token, s)
  | .before => (token, s.event (.fire token))
  | .after ms => (token, { s with alarms := s.alarms ++ [(token, s.host.now + ms)] })

/-- Plays a request until it is answered. -/
def play (s : HostSession) (request : Request) (cancel : CancelPlan) :
    Outcome Json × HostSession :=
  let (token, s) := s.nextToken cancel
  let c := s.host.asked
  let s := playUntil none (fun s => (s.host.answer? c).isSome) patience
    (s.event (.ask request token))
  ((s.host.answer? c).getD (.ok .null), (s.event (.drop c)).settle)

/-- Opens the gate that native functions wait for. -/
def openGate (s : HostSession) : HostSession := { s with gateOpen := true }.settle

/-- The lines that were logged since the last time. -/
def takeLines (s : HostSession) : List String × HostSession :=
  let s := s.logNotes
  (s.lines, { s with lines := [] })

end HostSession

end LanguageHost
