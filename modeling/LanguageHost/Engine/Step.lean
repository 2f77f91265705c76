import LanguageHost.Engine.Basic

/-!
# The events of an engine

An engine and the starts that claim it.  A start claims the engine, is under way for a while, and
then settles: it publishes a started state or gives the claim back.  A start that is dropped while
it is under way does neither.  Tasks, stops and the events of the pool may come at any time in
between.

`EngineUsers.step` is total and gives `none` for an event that is not possible;
`EngineUsers.run` plays a list of events.
-/

namespace LanguageHost

/-- What may happen to an engine. -/
inductive EngineEvent where
  /-- Somebody wants to start it. -/
  | claim
  /-- The start that has the claim comes to its end. -/
  | settle (settings : RuntimeSettings) (report : Outcome StartReport) (now : Nat)
  /-- The start that has the claim is dropped. -/
  | lose
  | run (task : Task) (token : Token) (fired : Bool)
  | stop
  /-- Something happens in the pool. -/
  | pool (e : PoolEvent)

/-- The events of the pool of an engine: its callers and jobs go on, tokens fire and time passes.
Workers are asked for by tasks only, and it is closed by stopping the engine.  What an engine does
for a task does not panic as it is called, for all of it is watched, and it does not cancel
itself. -/
def PoolEvent.isWithin : PoolEvent → Bool
  | .fire _ | .withdraw _ | .take _ | .learn _ | .finish _ _ | .panic _ | .expire _ | .jobDown _
  | .built _ _ | .wait _ => true
  | .ask | .askRun _ | .crash _ | .fireOwn _ | .release _ | .released _ | .abandonRelease _
  | .close | .closedOne | .abandonClose => false

/-- An engine, and what became of the starts that claimed it. -/
structure EngineUsers where
  engine : Engine
  /-- Whether a start has the claim and is under way. -/
  starting : Bool
  /-- Whether a start was dropped while it had the claim. -/
  lost : Bool

namespace EngineUsers

/-- An engine that nobody has used. -/
def new (e : Engine) : EngineUsers := ⟨e, false, false⟩

/-- What an event does, if it is possible. -/
def step (u : EngineUsers) : EngineEvent → Option EngineUsers
  | .claim =>
    match u.engine.lifecycle.claim with
    | (.ok (), lifecycle) =>
      some { u with engine := { u.engine with lifecycle }, starting := true }
    | (.error _, lifecycle) => some { u with engine := { u.engine with lifecycle } }
  | .settle settings report now =>
    if u.starting then
      some { u with engine := (u.engine.prepared settings report now).2, starting := false }
    else none
  | .lose => if u.starting then some { u with starting := false, lost := true } else none
  | .run task token fired => some { u with engine := (u.engine.run task token fired).2 }
  | .stop => some { u with engine := u.engine.stop }
  | .pool e =>
    if e.isWithin then some { u with engine := u.engine.withPool fun p => p.follow e } else none

/-- Plays events as far as they are possible. -/
def run (u : EngineUsers) : List EngineEvent → Option EngineUsers
  | [] => some u
  | e :: rest => (u.step e).bind fun u => u.run rest

end EngineUsers

end LanguageHost
