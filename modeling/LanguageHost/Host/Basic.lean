import LanguageHost.Bridge
import LanguageHost.Engine.Basic
import LanguageHost.Memory.Coordinator
import LanguageHost.Policy.Enforcer
import LanguageHost.Profiler

/-!
# Hosts

A host keeps engines under their names, starts and stops them together and hands calls on to
them.  It has a shared memory, a bridge for frontends and a profiler.  An engine may be guarded by
an enforcer, which several engines can share.

A request to the host that has not been answered is a call.  Where a call stands is told by its
stage, and what is left to do once the stage is over by its frames, the innermost first.

This module holds the state of a host and the small changes that its events are made of.
-/

namespace LanguageHost

/-- The identity of an engine: how many engines were made before it. -/
abbrev EngineId := Nat

/-- The identity of an enforcer: how many enforcers were made before it. -/
abbrev EnforcerId := Nat

/-- The identity of a call: how many requests came before it. -/
abbrev CallId := Nat

/-- What a host can be asked. -/
inductive Request where
  /-- All engines that the configuration enables are started. -/
  | start
  /-- All engines are stopped. -/
  | stop
  /-- The engine of a name does a task. -/
  | dispatch (name : String) (task : Task)
  /-- A function of the bridge is called. -/
  | bridge (name : String) (args : List Json)
  /-- An engine is asked directly. -/
  | engine (r : EngineId) (op : EngineOp)

/-- A limit on time, and the moment at which it is over. -/
structure TimeLimit where
  deadline : Nat
  limit : Duration
  deriving Repr, DecidableEq

/-- What is left to do around a stage of a call. -/
inductive Frame where
  /-- The call of a bridge is left as soon as its token fires. -/
  | race (token : Token)
  /-- The outcome is recorded by the profiler. -/
  | tracked (runtime function : String) (since : Nat)
  /-- The engine of a name is being started, and then the rest. -/
  | starting (name : String) (limit? : Option TimeLimit) (rest : List (String × RuntimeSettings))
  /-- The engine of a name is being stopped, and then the rest. -/
  | stopping (name : String) (rest : List (String × EngineId))
      (failures : List (String × HostError))

/-- Where a call stands. -/
inductive Stage where
  /-- A foreign engine is at work. -/
  | acting (r : EngineId) (op : EngineOp)
  /-- An interpreter is being prepared. -/
  | preparing (r : EngineId) (settings : RuntimeSettings)
  /-- The call waits for a worker of an engine, or for the work on it. -/
  | pooled (r : EngineId) (t : Ticket)
  /-- An application function was called, and has not come back with its work yet. -/
  | called (f : FunctionId) (token : Token) (args : List Json)
  /-- An application function is at work. -/
  | inside (f : FunctionId) (token : Token) (args : List Json)
  /-- There is an outcome for the innermost frame, or for the caller. -/
  | over (result : Outcome Json)

/-- A request and how far it has come. -/
structure Call where
  id : CallId
  token : Token
  frames : List Frame
  stage : Stage
  /-- When the stage began. -/
  since : Nat

/-- What is noted of the things that happen. -/
inductive HostNote where
  /-- An engine was asked, with a token that had fired or not. -/
  | asked (r : EngineId) (op : EngineOp) (fired : Bool)
  | policy (e : PolicyEvent)

/-- An engine, and the enforcer that guards it, if there is one. -/
structure Guarded where
  engine : Engine
  guard? : Option EnforcerId

/-- The state of a host. -/
structure Host where
  config : HostConfig
  memory : Coordinator
  /-- The time in milliseconds. -/
  now : Nat
  /-- All engines, by their identities. -/
  engines : List Guarded
  /-- The engines that the host hands calls on to. -/
  registry : Dict EngineId
  /-- All enforcers, by their identities. -/
  enforcers : List Enforcer
  bridge : Bridge
  profiler : Profiler
  metrics : Metrics
  /-- How many scopes there have been. -/
  scopes : Nat
  fired : List Token
  /-- How many requests came. -/
  asked : Nat
  calls : List Call
  /-- What was noted, the latest first. -/
  notes : List HostNote

/-- Where a call gets by a step of its own. -/
structure Turn where
  host : Host
  frames : List Frame
  stage : Stage

namespace Host

/-- A host of a configuration, which must be valid. -/
def new (config : HostConfig) : Outcome Host :=
  config.validate.map fun _ =>
    { config, memory := .new config.memory .usual, now := 0, engines := [], registry := Dict.empty
      enforcers := [], bridge := .empty, profiler := .new, metrics := .empty, scopes := 0
      fired := [], asked := 0, calls := [], notes := [] }

/-! ### Looking things up -/

/-- An engine. -/
def engine? (h : Host) (r : EngineId) : Option Engine := h.engines[r]?.map Guarded.engine

/-- The engine of a name. -/
def lookUp? (h : Host) (name : String) : Option Engine := (h.registry.get? name).bind h.engine?

/-- The names of the engines that the host hands calls on to, in increasing order. -/
def runtimes (h : Host) : List String := SortedByName.sortedNames h.registry.entries

/-- The engines that the host hands calls on to, in increasing order of their names. -/
def adopted (h : Host) : List (String × EngineId) := SortedByName.sort h.registry.entries

/-- A call. -/
def call? (h : Host) (c : CallId) : Option Call := h.calls.find? fun k => k.id = c

/-- The answer to a request, if there is one. -/
def answer? (h : Host) (c : CallId) : Option (Outcome Json) :=
  match h.call? c with
  | some ⟨_, _, [], .over result, _⟩ => some result
  | _ => none

/-- Whether a token has fired. -/
def hasFired (h : Host) (token : Token) : Bool := token.firedBy h.fired

/-! ### Small changes -/

/-- Notes something. -/
def note (h : Host) (n : HostNote) : Host := { h with notes := n :: h.notes }

/-- Changes an engine. -/
def setEngine (h : Host) (r : EngineId) (e : Engine) : Host :=
  { h with engines := h.engines.modify r fun g => { g with engine := e } }

/-- Makes an engine. -/
def make (h : Host) (e : Engine) (guard? : Option EnforcerId) : EngineId × Host :=
  (h.engines.length, { h with engines := h.engines ++ [⟨e, guard?⟩] })

/-- Makes an enforcer of a policy. -/
def makeEnforcer (h : Host) (policy : Policy) : EnforcerId × Host :=
  (h.enforcers.length, { h with enforcers := h.enforcers ++ [.new policy] })

/-- Changes an enforcer. -/
def changeEnforcer (h : Host) (g : EnforcerId) (f : Enforcer → Enforcer) : Host :=
  { h with enforcers := h.enforcers.modify g f }

/-- Keeps an engine under its own name, unless the name is taken. -/
def register (h : Host) (r : EngineId) : Outcome Unit × Host :=
  match h.engine? r with
  | none => (.ok (), h)
  | some e =>
    match h.registry.get? e.name with
    | some _ => (.error (.duplicateRegistration e.name), h)
    | none => (.ok (), { h with registry := h.registry.insert e.name r })

/-- A token that was made from no other. -/
def newToken (h : Host) : Token × Host := (.root h.scopes, { h with scopes := h.scopes + 1 })

/-- Puts events of a policy on record. -/
def record (h : Host) (events : List PolicyEvent) : Host :=
  { h with
    metrics := PolicyEvent.count h.metrics events
    notes := (events.map HostNote.policy).reverse ++ h.notes }

/-- Counts a call that has ended. -/
def countCall (h : Host) (runtime : String) (result : Outcome Json) : Host :=
  let outcome := match result with
    | .ok _ => "ok"
    | .error e => e.label
  { h with
    metrics := (h.metrics.add (.calls runtime outcome) 1).add (.callDurations runtime) 1 }

/-- Notes how much shared memory is in use. -/
def noteUsage (h : Host) : Host :=
  { h with metrics := h.metrics.set Series.sharedMemory h.memory.usage.toNat }

/-- Allocates a shared region of octets. -/
def allocate (h : Host) (id : String) (size : UInt64) : Outcome Unit × Host :=
  match h.memory.allocate id size .bytes with
  | (.ok _, memory) => (.ok (), { h with memory }.noteUsage)
  | (.error e, memory) => (.error e, { h with memory })

/-- Frees a shared region. -/
def free (h : Host) (id : String) : Outcome Unit × Host :=
  match h.memory.free id with
  | (.ok (), memory) => (.ok (), { h with memory }.noteUsage)
  | (.error e, memory) => (.error e, { h with memory })

/-- All metrics, those of the pools among them. -/
def exposition (h : Host) : Metrics :=
  (h.engines.filterMap fun g => g.engine.pool?).foldl
    (fun m p => if p.replaced = 0 then m else m.add (.workersReplaced p.name) p.replaced) h.metrics

/-- Whether an outcome is a failure. -/
def failed (result : Outcome Json) : Bool :=
  match result with
  | .ok _ => false
  | .error _ => true

/-- Fires a token: the calls under it are told. -/
def fire (h : Host) (token : Token) : Host :=
  { h with
    fired := token :: h.fired
    engines := h.engines.map fun g => { g with engine := g.engine.fire token } }

/-- Asks the enforcer of an engine whether it may do a task. -/
def check (h : Host) (g : Guarded) (task : Task) : Outcome Unit × Host :=
  match g.guard?.bind fun k => h.enforcers[k]? with
  | none => (.ok (), h)
  | some enforcer =>
    let (r, events) := enforcer.check ⟨.runtimeCall, task.function, g.engine.name⟩
    (r, h.record events)

/-- Asks the enforcer of an engine whether a request may pass; only tasks are checked. -/
def letPass (h : Host) (g : Guarded) (op : EngineOp) : Outcome Unit × Host :=
  match op with
  | .run task => h.check g task
  | _ => (.ok (), h)

/-- The stage that a call is at after an engine was asked. -/
def stageOf (r : EngineId) (op : EngineOp) : Progress → Stage
  | .done result => .over result
  | .acting => .acting r op
  | .preparing settings => .preparing r settings
  | .pooled t => .pooled r t

end Host

end LanguageHost
