import LanguageHost.Pool.Basic

/-!
# Scripted workers and operations

A script says how long an operation takes and how it ends, and what it does instead once it is
told to stop.  A plan says how long it takes to make a worker and to shut one down, and which
attempts fail.  Scripts and plans stand in for real work where a pool is played on a clock of its
own.
-/

namespace LanguageHost

/-- How an operation ends. -/
inductive Ending where
  | value (v : Json)
  | failure (e : HostError)
  | panic
  /-- It returns the worker that it ran on. -/
  | worker

/-- A stretch of an operation: it sleeps and then ends. -/
structure Leg where
  sleep : Nat
  ending : Ending

/-- An operation; `onCancel` takes the place of its sleep once it is told to stop. -/
structure Script where
  main : Leg
  onCancel : Option Leg

/-- How workers are made and shut down. -/
structure WorkerPlan where
  createDelay : Nat
  /-- The attempts to make a worker that fail. -/
  createFail : List Nat
  shutdownDelay : Nat
  /-- The slots whose workers fail to shut down. -/
  shutdownFail : List Nat

/-- When the token of a run fires. -/
inductive CancelPlan where
  | never
  | before
  | after (ms : Nat)

namespace Worker

/-- The name of a worker in a log. -/
def label (w : Worker) : String := toString w.slot ++ "/" ++ toString w.serial

/-- The slot and the serial number as a value. -/
def value (w : Worker) : Json := .arr [.int w.slot, .int w.serial]

end Worker

namespace WorkerPlan

/-- The log line for an attempt to make a worker. -/
def createLine (plan : WorkerPlan) (w : Worker) : String :=
  "create " ++ w.label ++ if plan.createFail.contains w.serial then " failed" else ""

/-- The failure to make a worker. -/
def createError (w : Worker) : HostError :=
  .processSpawnFailed ("worker " ++ toString w.slot ++ " attempt " ++ toString w.serial)

/-- The log line for the shutdown of a worker. -/
def shutdownLine (plan : WorkerPlan) (w : Worker) : String :=
  "shutdown " ++ w.label ++ if plan.shutdownFail.contains w.slot then " failed" else ""

end WorkerPlan

/-- What an operation returns when it ends on a worker; nothing if it panics. -/
def Ending.result? (e : Ending) (w : Worker) : Option (Outcome Json) :=
  match e with
  | .value v => some (.ok v)
  | .failure e => some (.error e)
  | .worker => some (.ok w.value)
  | .panic => none

end LanguageHost
