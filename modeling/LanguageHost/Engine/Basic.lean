import LanguageHost.Engine.Child
import LanguageHost.Engine.Native
import LanguageHost.Lifecycle
import LanguageHost.Pool.Startup
import LanguageHost.Pool.Step
import LanguageHost.Token

/-!
# Engines

An engine runs a language.  It is started at most once, then runs code and calls functions until
it is stopped.  A native engine runs functions of its own, an interpreter a fresh process for each
program; both lend the workers of a pool to their calls.  Of a foreign engine nothing is known but
that it answers.

What an engine does at once is `Engine.ask`: it may be done with a request, or the request has to
wait for something.  What happens later comes in by the other functions: the start of an
interpreter ends, something happens in the pool, the work of a call ends.
-/

namespace LanguageHost

/-- What a started engine can be asked to do. -/
inductive Task where
  | execute (code : String) (args : List Json)
  | call (function : String) (args : List Json)

namespace Task

/-- What `execute` is called where functions are named. -/
def executeName : String := "<execute>"

/-- The name of the function that is called. -/
def function : Task → String
  | execute .. => executeName
  | call function _ => function

end Task

/-- What an engine can be asked. -/
inductive EngineOp where
  | start (settings : RuntimeSettings)
  | run (task : Task)
  | stop

/-- What kind of engine there is. -/
inductive EngineKind where
  | native (version : String) (table : NativeTable)
  | interpreter (language : Language)
  | foreign (version : String)

/-- What the start of an interpreter found out. -/
structure StartReport where
  version : String
  /-- The source text that is loaded before each call. -/
  script : String
  deriving Repr, DecidableEq

/-- Preparations of an interpreter that came to their end: how many milliseconds they took, and what
came of them. -/
structure Prepared where
  spent : Nat
  report : Outcome StartReport

/-- The breakdown where preparations have succeeded and there is no room for the workers that are
made then. -/
def Prepared.breakdown? (p : Prepared) (room : Room) (settings : RuntimeSettings) :
    Option Breakdown :=
  match p.report with
  | .ok _ => room.breakdownOf? settings.poolSize
  | .error _ => none

/-- The state of a started engine. -/
structure Started where
  pool : Pool
  settings : RuntimeSettings
  report : StartReport

/-- What a worker is to do. -/
inductive WorkItem where
  | native (symbol : String) (args : List Json)
  | process (spawn : Spawn)

/-- The work of a ticket and the token of its call. -/
structure Work where
  ticket : Ticket
  token : Token
  item : WorkItem

/-- How the work of a ticket ended. -/
inductive WorkReport where
  /-- The function of the symbol, if there is one, came to this end. -/
  | returned (ending : NativeEnding)
  | child (report : ChildReport)

/-- An engine. -/
structure Engine where
  name : String
  kind : EngineKind
  lifecycle : Lifecycle Started
  /-- The work of all tickets that were ever given out. -/
  works : List Work

/-- How far an engine gets with a request at once. -/
inductive Progress where
  | done (result : Outcome Json)
  /-- A foreign engine is at it. -/
  | acting
  /-- The interpreter is being looked for and asked for its version. -/
  | preparing (settings : RuntimeSettings)
  /-- The call waits for a worker, or for the work on it. -/
  | pooled (t : Ticket)

namespace Pool

/-- How many milliseconds an operation has to end where nothing is said. -/
def usualGrace : Nat := 2000

/-- A pool of new workers. -/
def fresh (name : String) (size grace now : Nat) : Pool :=
  .opened name grace now ((List.range size).map fun n => ⟨n, n⟩) size

/-- The pool that the settings of a runtime ask for. -/
def forSettings (name : String) (settings : RuntimeSettings) (now : Nat) : Pool :=
  fresh name settings.poolSize ((settings.optionNat? "cancel_grace_ms").getD usualGrace) now

/-- Lets an event happen if it is possible. -/
def follow (p : Pool) (e : PoolEvent) : Pool := (p.step e).getD p

/-- Closes a pool and shuts its idle workers down at once. -/
def closeAtOnce (p : Pool) : Pool :=
  let p := p.follow .close
  p.closing.foldl (fun p _ => p.follow .closedOne) p

end Pool

namespace Engine

/-- A native engine. -/
def native (name version : String) (table : NativeTable) : Engine :=
  ⟨name, .native version table, .new name, []⟩

/-- The engine of an interpreted language. -/
def interpreter (language : Language) : Engine :=
  ⟨language.name, .interpreter language, .new language.name, []⟩

/-- A foreign engine. -/
def foreign (name version : String) : Engine := ⟨name, .foreign version, .new name, []⟩

/-- The version of an engine; an interpreter knows it once it was started. -/
def version (e : Engine) : String :=
  match e.kind with
  | .native version _ | .foreign version => version
  | .interpreter _ => e.lifecycle.started?.elim "unknown" fun s => s.report.version

/-- The names of the functions of a native engine. -/
def symbols (e : Engine) : List String :=
  match e.kind with
  | .native _ table => SortedByName.sortedNames table.entries
  | _ => []

/-- The pool of a started engine. -/
def pool? (e : Engine) : Option Pool := e.lifecycle.started?.map Started.pool

/-- Changes the pool. -/
def withPool (e : Engine) (f : Pool → Pool) : Engine :=
  { e with
    lifecycle := { e.lifecycle with
      started? := e.lifecycle.started?.map fun s => { s with pool := f s.pool } } }

/-- The work of a ticket. -/
def work? (e : Engine) (t : Ticket) : Option Work := e.works.find? fun w => w.ticket = t

/-! ### Requests -/

/-- Starts a native engine. -/
def startNative (e : Engine) (settings : RuntimeSettings) (version : String) (now : Nat) : Engine :=
  let pool := Pool.forSettings e.name settings now
  { e with lifecycle := e.lifecycle.publish ⟨pool, settings, ⟨version, ""⟩⟩ }

/-- Gives the claim on the start back. -/
def abandonStart (e : Engine) : Engine := { e with lifecycle := e.lifecycle.abandon }

/-- Begins to start an engine. -/
def begin (e : Engine) (settings : RuntimeSettings) (fired : Bool) (now : Nat) :
    Progress × Engine :=
  match e.lifecycle.claim with
  | (.error err, _) => (.done (.error err), e)
  | (.ok (), lifecycle) =>
    let e := { e with lifecycle }
    match e.kind with
    | .native version _ =>
      if fired then (.done (.error .operationCancelled), e.abandonStart)
      else (.done (.ok .null), e.startNative settings version now)
    | _ => (.preparing settings, e)

/-- What a worker has to do for a task. -/
def itemOf (e : Engine) (s : Started) (task : Task) : Outcome WorkItem :=
  match e.kind with
  | .interpreter language =>
    match task with
    | .execute code args => .ok (.process (.of language s.settings code args))
    | .call function args =>
      (language.callProgram s.report.script function).map fun program =>
        .process (.of language s.settings program args)
  | _ =>
    match task with
    | .execute code args => .ok (.native (Text.trim code) args)
    | .call function args => .ok (.native function args)

/-- Asks the pool for a worker. -/
def enqueue (e : Engine) (s : Started) (item : WorkItem) (token : Token) (fired : Bool) :
    Progress × Engine :=
  let t := s.pool.asked
  let e := e.withPool fun p => p.follow (.askRun fired)
  if fired then (.done (.error .operationCancelled), e)
  else (.pooled t, { e with works := ⟨t, token, item⟩ :: e.works })

/-- Begins a task. -/
def run (e : Engine) (task : Task) (token : Token) (fired : Bool) : Progress × Engine :=
  match e.lifecycle.running with
  | .error err => (.done (.error err), e)
  | .ok s =>
    match e.itemOf s task with
    | .error err => (.done (.error err), e)
    | .ok item => e.enqueue s item token fired

/-- Stops an engine; the first stop closes its pool. -/
def stop (e : Engine) : Engine :=
  let (started?, lifecycle) := e.lifecycle.stop
  let e := { e with lifecycle }
  match started? with
  | some _ => e.withPool Pool.closeAtOnce
  | none => e

/-- What an engine does at once with a request, whose token may have fired already. -/
def ask (e : Engine) (op : EngineOp) (token : Token) (fired : Bool) (now : Nat) :
    Progress × Engine :=
  match e.kind with
  | .foreign _ => (.acting, e)
  | _ =>
    match op with
    | .start settings => e.begin settings fired now
    | .run task => e.run task token fired
    | .stop => (.done (.ok .null), e.stop)

/-! ### What happens later -/

/-- The preparations of an interpreter have ended. -/
def prepared (e : Engine) (settings : RuntimeSettings) (report : Outcome StartReport) (now : Nat) :
    Outcome Json × Engine :=
  match report with
  | .ok report =>
    let pool := Pool.forSettings e.name settings now
    (.ok .null, { e with lifecycle := e.lifecycle.publish ⟨pool, settings, report⟩ })
  | .error err => (.error err, e.abandonStart)

/-- Something happens in the pool, if it is possible. -/
def poolStep (e : Engine) (event : PoolEvent) : Option Engine :=
  (e.pool?.bind fun p => p.step event).map fun pool => e.withPool fun _ => pool

/-- The outcome of the work of a ticket. -/
def workOutcome? (e : Engine) (w : Work) (report : WorkReport) (fired : Bool) :
    Option (Outcome Json) :=
  match e.kind, w.item, report with
  | .native _ table, .native symbol args, .returned ending =>
    some (table.invoke e.name symbol args fired ending)
  | .interpreter _, .process spawn, .child child => child.outcome? spawn fired
  | _, _, _ => none

/-- The work of a ticket ends, if it is under way. -/
def workEnds (e : Engine) (t : Ticket) (report : WorkReport) : Option Engine := do
  let pool ← e.pool?
  let work ← e.work? t
  let result ← e.workOutcome? work report (pool.fired.contains t)
  e.poolStep (.finish t result)

/-- A token fires: the calls under it are told. -/
def fire (e : Engine) (token : Token) : Engine :=
  (e.works.filter fun w => w.token.under token).foldl
    (fun e w => e.withPool fun p => p.follow (.fire w.ticket)) e

/-- Time passes. -/
def wait (e : Engine) (time : Nat) : Engine := e.withPool fun p => p.follow (.wait time)

end Engine

end LanguageHost
