import LanguageHost.Error

/-!
# Starting once and stopping for good

A lifecycle guards the started state of a runtime.  Whoever wants to start it claims the start,
and then either publishes the started state or gives the claim back.  The first stop is final: it
hands out the started state, if there is one, and every later start is refused.
-/

namespace LanguageHost

/-- What a lifecycle remembers. -/
structure Lifecycle (σ : Type) where
  name : String
  claimed : Bool
  stopped : Bool
  started? : Option σ
  deriving Repr, DecidableEq

namespace Lifecycle

variable {σ : Type}

/-- A lifecycle that nobody has claimed. -/
def new (name : String) : Lifecycle σ := ⟨name, false, false, none⟩

/-- The refusal of anything after the stop. -/
def shutDownError (l : Lifecycle σ) : HostError :=
  .invalidState (l.name ++ " runtime is shut down")

/-- Claims the start. -/
def claim (l : Lifecycle σ) : Outcome Unit × Lifecycle σ :=
  if l.stopped then (.error l.shutDownError, l)
  else if l.claimed then
    (.error (.invalidState (l.name ++ " runtime already initialized")), l)
  else (.ok (), { l with claimed := true })

/-- Gives the claim back. -/
def abandon (l : Lifecycle σ) : Lifecycle σ := { l with claimed := false }

/-- Publishes the started state; only the first one counts. -/
def publish (l : Lifecycle σ) (s : σ) : Lifecycle σ :=
  match l.started? with
  | none => { l with started? := some s }
  | some _ => l

/-- The started state while it may be used. -/
def running (l : Lifecycle σ) : Outcome σ :=
  if l.stopped then .error l.shutDownError
  else
    match l.started? with
    | some s => .ok s
    | none => .error (.invalidState (l.name ++ " runtime not initialized"))

/-- Stops the lifecycle; the first stop hands out the started state. -/
def stop (l : Lifecycle σ) : Option σ × Lifecycle σ :=
  if l.stopped then (none, l) else (l.started?, { l with stopped := true })

end Lifecycle

/-- What may happen to a lifecycle. -/
inductive LifecycleEvent (σ : Type) where
  /-- Somebody wants to start. -/
  | claim
  /-- The start that has the claim fails. -/
  | abandon
  /-- The start that has the claim succeeds. -/
  | publish (s : σ)
  | stop

/-- A lifecycle and those who use it: whoever has claimed the start gives the claim back or
publishes a state once at most, and nobody else does either. -/
structure LifecycleUsers (σ : Type) where
  lifecycle : Lifecycle σ
  /-- Whether a start has the claim and is under way. -/
  starting : Bool
  /-- The states that stops have handed out, the latest first. -/
  handed : List σ

namespace LifecycleUsers

variable {σ : Type}

/-- A lifecycle that nobody has used. -/
def new (name : String) : LifecycleUsers σ := ⟨.new name, false, []⟩

/-- What an event does, if it is possible. -/
def step (u : LifecycleUsers σ) : LifecycleEvent σ → Option (LifecycleUsers σ)
  | .claim =>
    match u.lifecycle.claim with
    | (.ok (), lifecycle) => some { u with lifecycle, starting := true }
    | (.error _, lifecycle) => some { u with lifecycle }
  | .abandon =>
    if u.starting then some { u with lifecycle := u.lifecycle.abandon, starting := false }
    else none
  | .publish s =>
    if u.starting then some { u with lifecycle := u.lifecycle.publish s, starting := false }
    else none
  | .stop =>
    let (state?, lifecycle) := u.lifecycle.stop
    some { u with lifecycle, handed := state?.toList ++ u.handed }

/-- Plays events as far as they are possible. -/
def run (u : LifecycleUsers σ) : List (LifecycleEvent σ) → Option (LifecycleUsers σ)
  | [] => some u
  | e :: rest => (u.step e).bind fun u => u.run rest

end LifecycleUsers

end LanguageHost
