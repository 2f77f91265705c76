import LanguageHost.Duration

/-!
# Failures of the host

Each way in which an operation of the host can fail is a constructor of `HostError`.  A failure
has a short label, used where outcomes are counted, and a message for people.  A failed start
carries the failure of the runtime that refused to start, and a failed shutdown the failures of
all runtimes that did not shut down.
-/

namespace LanguageHost

/-- The ways in which an operation of the host can fail. -/
inductive HostError where
  | configInvalid (reason : String)
  | runtimeNotRegistered (name : String)
  | runtimeNotFound (name : String)
  | duplicateRegistration (name : String)
  | poolClosed
  | memoryLimitExceeded (requested usage limit : UInt64)
  | regionExists (id : String)
  | regionNotFound (id : String)
  | regionBusy (id : String) (readers writers : Nat)
  | writerConflict (id : String)
  | functionNotFound (name : String)
  | functionAlreadyRegistered (name : String)
  | operationCancelled
  | initializationFailed (runtime : String) (source : HostError)
  | shutdownFailed (failures : List (String × HostError))
  | initTimeout (limit : Duration)
  | executionTimeout (limit : Duration)
  | executionFailed (runtime message : String)
  | invalidState (reason : String)
  | policyDenied (operation policy : String)
  | processSpawnFailed (reason : String)
  | io (reason : String)
  deriving Repr, BEq, Inhabited

/-- The outcome of an operation that may fail. -/
abbrev Outcome (α : Type) : Type := Except HostError α

namespace HostError

/-- The short name of a kind of failure. -/
def label : HostError → String
  | configInvalid _ => "config_invalid"
  | runtimeNotRegistered _ => "runtime_not_registered"
  | runtimeNotFound _ => "runtime_not_found"
  | duplicateRegistration _ => "duplicate_registration"
  | poolClosed => "pool_closed"
  | memoryLimitExceeded .. => "memory_limit_exceeded"
  | regionExists _ => "region_exists"
  | regionNotFound _ => "region_not_found"
  | regionBusy .. => "region_busy"
  | writerConflict _ => "writer_conflict"
  | functionNotFound _ => "function_not_found"
  | functionAlreadyRegistered _ => "function_already_registered"
  | operationCancelled => "operation_cancelled"
  | initializationFailed .. => "initialization_failed"
  | shutdownFailed _ => "shutdown_failed"
  | initTimeout _ => "init_timeout"
  | executionTimeout _ => "execution_timeout"
  | executionFailed .. => "execution_failed"
  | invalidState _ => "invalid_state"
  | policyDenied .. => "policy_denied"
  | processSpawnFailed _ => "process_spawn_failed"
  | io _ => "io"

mutual

/-- The message for people. -/
def message : HostError → String
  | configInvalid reason => "invalid configuration: " ++ reason
  | runtimeNotRegistered name => "runtime " ++ name ++ " not registered"
  | runtimeNotFound name => "runtime " ++ name ++ " not found"
  | duplicateRegistration name => "runtime " ++ name ++ " already registered"
  | poolClosed => "worker pool is closed"
  | memoryLimitExceeded requested usage limit =>
    "memory limit exceeded: requested " ++ toString requested ++ " bytes, usage "
      ++ toString usage ++ "/" ++ toString limit
  | regionExists id => "region " ++ id ++ " already exists"
  | regionNotFound id => "region " ++ id ++ " not found"
  | regionBusy id readers writers =>
    "region " ++ id ++ " still has active users (readers=" ++ toString readers
      ++ ", writers=" ++ toString writers ++ ")"
  | writerConflict id => "region " ++ id ++ " already has a writer"
  | functionNotFound name => "function " ++ name ++ " not found"
  | functionAlreadyRegistered name => "function " ++ name ++ " already registered"
  | operationCancelled => "operation cancelled"
  | initializationFailed runtime source =>
    "failed to initialize " ++ runtime ++ ": " ++ message source
  | shutdownFailed failures =>
    "shutdown errors: " ++ String.intercalate "; " (namedMessages failures)
  | initTimeout limit => "initialization timed out after " ++ limit.render
  | executionTimeout limit => "execution timed out after " ++ limit.render
  | executionFailed runtime message => "execution failed in " ++ runtime ++ ": " ++ message
  | invalidState reason => "invalid state: " ++ reason
  | policyDenied operation policy => "operation " ++ operation ++ " denied by policy " ++ policy
  | processSpawnFailed reason => "failed to spawn process: " ++ reason
  | io reason => reason

/-- The messages of named failures, each after its name. -/
def namedMessages : List (String × HostError) → List String
  | [] => []
  | (name, e) :: rest => (name ++ ": " ++ message e) :: namedMessages rest

end

/-- The messages of the failure behind a failure, of the one behind that, and so on. -/
def sources : HostError → List String
  | initializationFailed _ source => source.message :: source.sources
  | _ => []

/-- Whether the failure says that the operation was cancelled. -/
def isCancelled : HostError → Bool
  | operationCancelled => true
  | _ => false

end HostError

end LanguageHost
