import LanguageHost.Host.Basic

/-!
# The events of a host

A host changes by events, in any order in which they are possible.  Requests come and tokens fire;
engines, pools and application functions do their part; callers go away and time passes.  The
rest are steps that a call takes as soon as it can.

An application function is first called and then does its work.  It comes back from the call with
the work, or panics; the work comes to any outcome at any time, or panics.  Whatever else a function
does meanwhile, anyone could do: it fires its token, changes the bridge, or makes requests, and these
are events of their own.

A call that waits is left as soon as the token of the outermost race around it fires.  Once a stage
is over, its outcome goes through the frames one by one, and nothing comes between that changes
it.

`Host.step` is total and gives `none` for an event that is not possible; `Host.run` plays a list
of events.
-/

namespace LanguageHost

/-- What may happen in a host. -/
inductive HostEvent where
  /-- A request comes. -/
  | ask (request : Request) (token : Token)
  /-- A token fires. -/
  | fire (token : Token)
  /-- A call goes on as far as it can by itself. -/
  | resume (c : CallId)
  /-- The limit on a start is over. -/
  | timeOut (c : CallId)
  /-- A caller goes away. -/
  | drop (c : CallId)
  /-- A foreign engine has answered. -/
  | acted (c : CallId) (result : Outcome Json)
  /-- An interpreter was prepared, or could not be. -/
  | prepared (c : CallId) (report : Outcome StartReport)
  /-- An application function has come back from its call, and its work may begin. -/
  | returned (c : CallId)
  /-- The work of an application function has come to its end. -/
  | finished (c : CallId) (result : Outcome Json)
  /-- An application function panics, as it is called or at work, and so does its caller. -/
  | panicked (c : CallId)
  /-- Something happens in the pool of an engine. -/
  | pool (r : EngineId) (e : PoolEvent)
  /-- The work of a ticket ends. -/
  | workEnds (r : EngineId) (t : Ticket) (report : WorkReport)
  /-- An engine is made. -/
  | make (e : Engine) (guard? : Option EnforcerId)
  /-- An engine is kept under its name. -/
  | register (r : EngineId)
  /-- An enforcer is made. -/
  | makeEnforcer (policy : Policy)
  /-- An enforcer is told to enforce or not. -/
  | enforce (g : EnforcerId) (active : Bool)
  /-- An enforcer is given another policy. -/
  | update (g : EnforcerId) (policy : Policy)
  /-- A function is given a name on the bridge. -/
  | bridgeRegister (name : String) (f : BridgeFunction)
  /-- A name is taken away on the bridge. -/
  | bridgeUnregister (name : String)
  /-- The profiler is turned on or off. -/
  | profile (enabled : Bool)
  /-- The profiler forgets all calls. -/
  | resetProfiler
  /-- Time passes. -/
  | wait (time : Nat)

/-- The events of a pool that come from within: its callers and jobs go on. -/
def PoolEvent.isInner : PoolEvent → Bool
  | .take _ | .expire _ | .jobDown _ | .built _ _ => true
  | _ => false

/-- The frames around the outermost race whose token has fired. -/
def cutRace (fired : Token → Bool) : List Frame → Option (List Frame)
  | [] => none
  | f :: rest =>
    match cutRace fired rest with
    | some outer => some outer
    | none =>
      match f with
      | .race token => if fired token then some rest else none
      | _ => none

/-- The frames from the outermost start whose limit is over at a time, and the limit. -/
def cutStart (now : Nat) : List Frame → Option (Duration × List Frame)
  | [] => none
  | f :: rest =>
    match cutStart now rest with
    | some found => some found
    | none =>
      match f with
      | .starting _ (some limit) _ =>
        if limit.deadline ≤ now then some (limit.limit, f :: rest) else none
      | _ => none

namespace Host

/-! ### What a call does by itself -/

/-- Asks an engine. -/
def askEngine (h : Host) (r : EngineId) (op : EngineOp) (token : Token) (frames : List Frame) :
    Turn :=
  match h.engines[r]? with
  | none => ⟨h, frames, .over (.ok .null)⟩
  | some g =>
    match h.letPass g op with
    | (.error err, h) => ⟨h, frames, .over (.error err)⟩
    | (.ok (), h) =>
      let fired := h.hasFired token
      let (progress, e) := g.engine.ask op token fired h.now
      ⟨(h.note (.asked r op fired)).setEngine r e, frames, stageOf r op progress⟩

/-- Hands a task on to the engine of a name. -/
def dispatch (h : Host) (name : String) (task : Task) (token : Token) (frames : List Frame) :
    Turn :=
  match h.registry.get? name with
  | none => ⟨h, frames, .over (.error (.runtimeNotFound name))⟩
  | some r =>
    let frames :=
      if h.profiler.enabled then .tracked name task.function h.now :: frames else frames
    h.askEngine r (.run task) token frames

/-- Calls a function of the bridge, with a token made from the caller's. -/
def callBridge (h : Host) (name : String) (args : List Json) (token : Token) : Turn :=
  match h.bridge.get? name with
  | none => ⟨h, [], .over (.error (.functionNotFound name))⟩
  | some (.exposed runtime function) =>
    if h.hasFired token then ⟨h, [], .over (.error .operationCancelled)⟩
    else
      let inner := token.child h.scopes
      let h := { h with scopes := h.scopes + 1 }
      h.dispatch runtime (.call function args) inner [.race token]
  | some (.app f) => ⟨{ h with scopes := h.scopes + 1 }, [], .called f (token.child h.scopes) args⟩

/-- Starts the first of the engines that are left to start. -/
def startNext (h : Host) (token : Token) (entries : List (String × RuntimeSettings))
    (frames : List Frame) : Turn :=
  match entries with
  | [] => ⟨h, frames, .over (.ok .null)⟩
  | (name, settings) :: rest =>
    match h.registry.get? name with
    | none => ⟨h, frames, .over (.error (.runtimeNotRegistered name))⟩
    | some r =>
      let limit? := settings.timeout?.map fun d => (⟨h.now + d.toMillis, d⟩ : TimeLimit)
      h.askEngine r (.start settings) token (.starting name limit? rest :: frames)

/-- Stops the first of the engines that are left to stop. -/
def stopNext (h : Host) (token : Token) (entries : List (String × EngineId))
    (failures : List (String × HostError)) (frames : List Frame) : Turn :=
  match entries with
  | [] =>
    ⟨h, frames, .over (if failures.isEmpty then .ok .null else .error (.shutdownFailed failures))⟩
  | (name, r) :: rest => h.askEngine r .stop token (.stopping name rest failures :: frames)

/-- Begins a request. -/
def begin (h : Host) (request : Request) (token : Token) : Turn :=
  match request with
  | .start => h.startNext token h.config.enabledRuntimes []
  | .stop => h.stopNext token h.adopted [] []
  | .dispatch name task => h.dispatch name task token []
  | .bridge name args => h.callBridge name args token
  | .engine r op => h.askEngine r op token []

/-- An outcome goes through a frame. -/
def pass (h : Host) (token : Token) (f : Frame) (rest : List Frame) (result : Outcome Json) :
    Turn :=
  match f with
  | .race _ => ⟨h, rest, .over result⟩
  | .tracked runtime function since =>
    let spent := Duration.ofMillis (h.now - since)
    let profiler := h.profiler.record runtime function spent (failed result)
    ⟨{ h with profiler }.countCall runtime result, rest, .over result⟩
  | .starting name _ entries =>
    match result with
    | .ok _ => h.startNext token entries rest
    | .error e => ⟨h, rest, .over (.error (.initializationFailed name e))⟩
  | .stopping name entries failures =>
    match result with
    | .ok _ => h.stopNext token entries failures rest
    | .error e => h.stopNext token entries (failures ++ [(name, e)]) rest

/-! ### Calls -/

/-- Puts a call where it has got. -/
def settle (t : Turn) (c : Call) : Host :=
  let call := { c with frames := t.frames, stage := t.stage, since := t.host.now }
  { t.host with calls := t.host.calls.map fun k => if k.id = c.id then call else k }

/-- Goes away from the stage of a call: its ticket is withdrawn, and whatever else was begun is
left as it is. -/
def leave (h : Host) (stage : Stage) : Host :=
  match stage with
  | .pooled r t =>
    match h.engine? r with
    | some e => h.setEngine r (e.withPool fun p => p.follow (.withdraw t))
    | none => h
  | _ => h

/-- What the caller of a ticket learns, if there is anything. -/
def learn (h : Host) (r : EngineId) (t : Ticket) : Option (Outcome Json × Host) := do
  let e ← h.engine? r
  let pool ← e.pool?
  let pool := pool.follow (.learn t)
  let result ← pool.answer? t
  return (result, h.setEngine r (e.withPool fun _ => pool))

/-- A call goes on with a stage that waits. -/
def goOn (h : Host) (c : Call) : Option Turn :=
  match c.stage with
  | .pooled r t => do
    let (result, h) ← h.learn r t
    return ⟨h, c.frames, .over result⟩
  | .preparing r _ =>
    if h.hasFired c.token then
      (h.engine? r).map fun e =>
        ⟨h.setEngine r e.abandonStart, c.frames, .over (.error .operationCancelled)⟩
    else none
  | _ => none

/-- A call goes on as far as it can by itself. -/
def resume (h : Host) (c : Call) : Option Turn :=
  match c.stage with
  | .over result =>
    match c.frames with
    | [] => none
    | f :: rest => some (h.pass c.token f rest result)
  | stage =>
    match cutRace h.hasFired c.frames with
    | some outer => some ⟨h.leave stage, outer, .over (.error .operationCancelled)⟩
    | none => h.goOn c

/-- The limit on a start is over. -/
def timeOut (h : Host) (c : Call) : Option Turn :=
  match c.stage with
  | .over _ => none
  | stage =>
    (cutStart h.now c.frames).map fun (limit, frames) =>
      ⟨h.leave stage, frames, .over (.error (.initTimeout limit))⟩

/-- An application function has come back from its call.  From now on the token of the caller is
raced, and if it has fired already, the work does not begin. -/
def returned (h : Host) (c : Call) : Option Turn :=
  match c.stage with
  | .called f token args =>
    if h.hasFired c.token then some ⟨h, c.frames, .over (.error .operationCancelled)⟩
    else some ⟨h, .race c.token :: c.frames, .inside f token args⟩
  | _ => none

/-- The work of an application function has come to its end. -/
def finished (h : Host) (c : Call) (result : Outcome Json) : Option Turn :=
  match c.stage with
  | .inside .. => some ⟨h, c.frames, .over result⟩
  | _ => none

/-- A foreign engine has answered. -/
def acted (h : Host) (c : Call) (result : Outcome Json) : Option Turn :=
  match c.stage with
  | .acting _ _ => some ⟨h, c.frames, .over result⟩
  | _ => none

/-- An interpreter was prepared, or could not be. -/
def prepared (h : Host) (c : Call) (report : Outcome StartReport) : Option Turn :=
  match c.stage with
  | .preparing r settings =>
    (h.engine? r).map fun e =>
      let (result, e) := e.prepared settings report h.now
      ⟨h.setEngine r e, c.frames, .over result⟩
  | _ => none

/-- Lets a call do something. -/
def forCall (h : Host) (c : CallId) (f : Call → Option Turn) : Option Host := do
  let call ← h.call? c
  let turn ← f call
  return settle turn call

/-- Lets an engine do something. -/
def forEngine (h : Host) (r : EngineId) (f : Engine → Option Engine) : Option Host := do
  let e ← h.engine? r
  let e ← f e
  return h.setEngine r e

/-- A request comes. -/
def ask (h : Host) (request : Request) (token : Token) : Host :=
  let c := h.asked
  let turn := { h with asked := c + 1 }.begin request token
  let call : Call := ⟨c, token, turn.frames, turn.stage, turn.host.now⟩
  { turn.host with calls := call :: turn.host.calls }

/-- A caller goes away. -/
def drop (h : Host) (c : Call) : Host :=
  let h := h.leave c.stage
  { h with calls := h.calls.filter fun k => k.id ≠ c.id }

/-- An application function panics. -/
def panicked (h : Host) (c : Call) : Option Host :=
  match c.stage with
  | .called .. | .inside .. => some (h.drop c)
  | _ => none

/-- Time passes. -/
def wait (h : Host) (time : Nat) : Host :=
  { h with
    now := time
    engines := h.engines.map fun g => { g with engine := g.engine.wait time } }

/-- What an event does, if it is possible. -/
def step (h : Host) : HostEvent → Option Host
  | .ask request token => some (h.ask request token)
  | .fire token => some (h.fire token)
  | .resume c => h.forCall c h.resume
  | .timeOut c => h.forCall c h.timeOut
  | .drop c => (h.call? c).map h.drop
  | .acted c result => h.forCall c fun call => h.acted call result
  | .prepared c report => h.forCall c fun call => h.prepared call report
  | .returned c => h.forCall c h.returned
  | .finished c result => h.forCall c fun call => h.finished call result
  | .panicked c => (h.call? c).bind h.panicked
  | .pool r e => if e.isInner then h.forEngine r fun engine => engine.poolStep e else none
  | .workEnds r t report => h.forEngine r fun engine => engine.workEnds t report
  | .make e guard? => some (h.make e guard?).2
  | .register r => some (h.register r).2
  | .makeEnforcer policy => some (h.makeEnforcer policy).2
  | .enforce g active => some (h.changeEnforcer g fun e => { e with active })
  | .update g policy => some (h.changeEnforcer g fun e => { e with policy })
  | .bridgeRegister name f => some { h with bridge := (h.bridge.register name f).2 }
  | .bridgeUnregister name => some { h with bridge := (h.bridge.unregister name).2 }
  | .profile enabled => some { h with profiler := { h.profiler with enabled } }
  | .resetProfiler => some { h with profiler := h.profiler.reset }
  | .wait time => if h.now ≤ time then some (h.wait time) else none

/-- Plays events as far as they are possible. -/
def run (h : Host) : List HostEvent → Option Host
  | [] => some h
  | e :: rest => (h.step e).bind fun h => h.run rest

/-! ### Application functions -/

/-- A function that comes back from its call is raced from then on, or its work does not begin. -/
theorem of_returned {h : Host} {c : Call} {t : Turn} (ht : h.returned c = some t) :
    ∃ f token args, c.stage = .called f token args ∧
      t = if h.hasFired c.token then ⟨h, c.frames, .over (.error .operationCancelled)⟩
        else ⟨h, .race c.token :: c.frames, .inside f token args⟩ := by
  unfold returned at ht
  split at ht
  · next f token args hstage =>
    refine ⟨f, token, args, hstage, ?_⟩
    split at ht <;> next hfired => cases ht; simp only [hfired]; rfl
  · cases ht

/-- The work of a function that comes to its end ends the stage of its call. -/
theorem of_finished {h : Host} {c : Call} {result : Outcome Json} {t : Turn}
    (ht : h.finished c result = some t) :
    (∃ f token args, c.stage = .inside f token args) ∧ t = ⟨h, c.frames, .over result⟩ := by
  unfold finished at ht
  split at ht
  · next f token args hstage =>
    cases ht
    exact ⟨⟨f, token, args, hstage⟩, rfl⟩
  · cases ht

/-- A function that panics is that of a call, which goes away. -/
theorem of_step_panicked {h h' : Host} {c : CallId} (hs : h.step (.panicked c) = some h') :
    ∃ k f token args, h.call? c = some k ∧
      (k.stage = .called f token args ∨ k.stage = .inside f token args) ∧ h' = h.drop k := by
  obtain ⟨k, hk, hp⟩ := Option.bind_eq_some_iff.mp hs
  unfold panicked at hp
  split at hp
  · next f token args hstage => exact ⟨k, f, token, args, hk, .inl hstage, (Option.some.inj hp).symm⟩
  · next f token args hstage => exact ⟨k, f, token, args, hk, .inr hstage, (Option.some.inj hp).symm⟩
  · cases hp

/-- To its call, a function that panics is a caller that goes away. -/
theorem step_drop_of_panicked {h h' : Host} {c : CallId} (hs : h.step (.panicked c) = some h') :
    h.step (.drop c) = some h' := by
  obtain ⟨k, f, token, args, hk, -, rfl⟩ := of_step_panicked hs
  exact congrArg (Option.map h.drop) hk

end Host

end LanguageHost
