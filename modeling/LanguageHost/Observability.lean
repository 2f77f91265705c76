import LanguageHost.Error
import LanguageHost.Metrics

/-!
# What a process shows of itself

A process has at most one recorder of metrics and at most one subscriber to its log.  Installing
the recorder again keeps the one that is there, and installing the subscriber again fails.
-/

namespace LanguageHost

/-- What a process has installed to be observed. -/
structure Observability where
  /-- Whether something listens to the log. -/
  logging : Bool
  recorder? : Option Metrics
  deriving Repr, DecidableEq

namespace Observability

/-- A process that installed nothing yet. -/
def bare : Observability := ⟨false, none⟩

/-- Why a second subscriber to the log is refused. -/
def loggingTwice : String :=
  "tracing already initialized: a global default trace dispatcher has already been set"

/-- Installs the subscriber to the log. -/
def installLogging (o : Observability) : Outcome Unit × Observability :=
  if o.logging then (.error (.invalidState loggingTwice), o)
  else (.ok (), { o with logging := true })

/-- Installs the recorder of metrics, unless there is one. -/
def installMetrics (o : Observability) : Outcome Unit × Observability :=
  match o.recorder? with
  | some _ => (.ok (), o)
  | none => (.ok (), { o with recorder? := some .empty })

/-- Adds to a counter, if there is a recorder. -/
def add (o : Observability) (s : Series) (n : Nat) : Observability :=
  { o with recorder? := o.recorder?.map fun m => m.add s n }

/-- The exposition of the metrics, if there is a recorder. -/
def exposition? (o : Observability) : Option String :=
  o.recorder?.map fun m => String.join (m.lines.map (· ++ "\n"))

/-- The value of a counter. -/
def count (o : Observability) (s : Series) : Nat := o.recorder?.elim 0 fun m => m.count s

end Observability

end LanguageHost
