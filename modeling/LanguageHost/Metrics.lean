import LanguageHost.Dict

/-!
# Metrics

A host counts what happens in series, each a name with labels.  Counters only grow; a gauge shows
the value that it was given last.  The exposition of all metrics has a line for every series.
-/

namespace LanguageHost

/-- A series of measurements. -/
structure Series where
  name : String
  labels : List (String × String)
  deriving Repr, DecidableEq

namespace Series

/-- The calls of a runtime that ended in a certain way. -/
def calls (runtime outcome : String) : Series :=
  ⟨"polyhost_calls_total", [("runtime", runtime), ("outcome", outcome)]⟩

/-- The calls of a runtime whose duration was measured. -/
def callDurations (runtime : String) : Series :=
  ⟨"polyhost_call_duration_seconds_count", [("runtime", runtime)]⟩

/-- The operations of a runtime that a policy denied. -/
def denials (runtime : String) : Series :=
  ⟨"polyhost_policy_denials_total", [("runtime", runtime)]⟩

/-- The workers of a pool that had to be replaced. -/
def workersReplaced (pool : String) : Series :=
  ⟨"polyhost_pool_workers_replaced_total", [("pool", pool)]⟩

/-- The octets of all shared regions together. -/
def sharedMemory : Series := ⟨"polyhost_shared_memory_bytes", []⟩

/-- A character of a label. -/
def labelChar (c : Char) : List Char :=
  if c = '\\' then ['\\', '\\']
  else if c = '"' then ['\\', '"']
  else if c = '\n' then ['\\', 'n']
  else [c]

/-- A label with its value. -/
def labelText (l : String × String) : String :=
  l.1 ++ "=\"" ++ String.ofList (l.2.toList.flatMap labelChar) ++ "\""

/-- The text of a series. -/
def render (s : Series) : String :=
  if s.labels.isEmpty then s.name
  else s.name ++ "\x7b" ++ String.intercalate "," (s.labels.map labelText) ++ "\x7d"

end Series

/-- The values of all series that were touched. -/
structure Metrics where
  counters : List (Series × Nat)
  gauges : List (Series × Nat)
  deriving Repr, DecidableEq

namespace Metrics

/-- Metrics of which none was touched. -/
def empty : Metrics := ⟨[], []⟩

instance : Inhabited Metrics := ⟨empty⟩

/-- Changes the value of a series; one that is not there has the value zero at first. -/
def change (s : Series) (f : Nat → Nat) : List (Series × Nat) → List (Series × Nat)
  | [] => [(s, f 0)]
  | (t, n) :: rest => if t = s then (t, f n) :: rest else (t, n) :: change s f rest

/-- The value of a series. -/
def value? (s : Series) (values : List (Series × Nat)) : Option Nat :=
  (values.find? fun e => e.1 = s).map Prod.snd

/-- Adds to a counter. -/
def add (m : Metrics) (s : Series) (n : Nat) : Metrics :=
  { m with counters := change s (· + n) m.counters }

/-- Sets a gauge. -/
def set (m : Metrics) (s : Series) (n : Nat) : Metrics :=
  { m with gauges := change s (fun _ => n) m.gauges }

/-- The value of a counter. -/
def count (m : Metrics) (s : Series) : Nat := (value? s m.counters).getD 0

/-- The lines of the exposition, in order. -/
def lines (m : Metrics) : List String :=
  ((m.counters ++ m.gauges).map fun e => e.1.render ++ " " ++ toString e.2).mergeSort
    fun a b => decide (a ≤ b)

end Metrics

end LanguageHost
