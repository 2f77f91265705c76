import LanguageHost.Config.Load
import LanguageHost.Host.Step
import LanguageHost.Text.Quoted

/-!
# The service

The service loads its configuration, makes the engine of an interpreter for every language that is
enabled and known by that name, and starts them.  When it is told to end, it stops them again.
Whatever goes wrong before it is ready makes it stop what was started, and give up with a report.
The exception is a pool of workers that there is no room for: then the process breaks down where it
stands.
-/

namespace LanguageHost

/-- How grave a line of a log is. -/
inductive LogLevel where
  | error
  | warn
  | info
  deriving Repr, DecidableEq

/-- The name of a level. -/
def LogLevel.name : LogLevel → String
  | error => "error"
  | warn => "warn"
  | info => "info"

/-- A line of a log. -/
structure LogLine where
  level : LogLevel
  text : String
  deriving Repr, DecidableEq

/-- Why the service gave up: what went wrong, and the failures behind it. -/
structure FailureReport where
  headline : String
  causes : List String
  deriving Repr, DecidableEq

namespace FailureReport

/-- The report on a failure. -/
def of (e : HostError) : FailureReport := ⟨e.message, e.sources⟩

/-- A text whose lines after the first one are set in. -/
def setIn (margin text : String) : String :=
  String.intercalate ("\n" ++ margin) (text.splitOn "\n")

/-- A cause among several, with its number. -/
def numbered (cause : String) (n : Nat) : String :=
  let number := toString n
  String.ofList (List.replicate (5 - number.length) ' ') ++ number ++ ": " ++ setIn "       " cause

/-- The lines of the causes; several are numbered. -/
def causeLines : List String → List String
  | [] => []
  | [cause] => ["", "Caused by:", "    " ++ setIn "    " cause]
  | causes => ["", "Caused by:"] ++ causes.zipIdx.map fun (cause, n) => numbered cause n

/-- The text of a report. -/
def render (r : FailureReport) : String :=
  String.join ((("Error: " ++ r.headline) :: causeLines r.causes).map (· ++ "\n"))

end FailureReport

/-- The preparations of the interpreters. -/
abbrev Preparation := Language → RuntimeSettings → Prepared

/-- A host that serves, the token under which its engines are started, and its log with the latest
line first. -/
structure Service where
  host : Host
  token : Token
  log : List LogLine

/-- A service that has ended: its log, why it gave up, if it did, the host that it leaves behind, if
it had one, and why it broke down, if it did. -/
structure ServiceRun where
  log : List LogLine
  failure? : Option FailureReport
  host? : Option Host
  breakdown? : Option Breakdown

namespace Host

/-- The limit on the start that a call waits for, if there is one. -/
def limitOf (c : Call) : Option TimeLimit :=
  match c.frames with
  | .starting _ limit? _ :: _ => limit?
  | _ => none

/-- The preparations that a call waits for come to their end, unless the limit is over before.  Once
they have succeeded, the workers of the interpreter are made. -/
def endPreparations (h : Host) (room : Room) (c : Call) (settings : RuntimeSettings)
    (p : Prepared) : Except Breakdown (Option Host) :=
  let done := h.now + p.spent
  match (limitOf c).filter fun limit => limit.deadline < done with
  | some limit => .ok ((h.wait limit.deadline).step (.timeOut c.id))
  | none =>
    match p.breakdown? room settings with
    | some b => .error b
    | none => .ok ((h.wait done).step (.prepared c.id p.report))

/-- What a call does next: its interpreter is prepared, or it goes on by itself. -/
def driveOnce (h : Host) (room : Room) (prepare : Preparation) (c : CallId) :
    Except Breakdown (Option Host) :=
  match h.call? c with
  | none => .ok none
  | some call =>
    match call.stage with
    | .preparing r settings =>
      match (h.engine? r).map Engine.kind with
      | some (.interpreter language) =>
        h.endPreparations room call settings (prepare language settings)
      | _ => .ok none
    | _ => .ok (h.step (.resume c))

/-- Lets a call go on until it is answered, or the program breaks down. -/
def drive (room : Room) (prepare : Preparation) (c : CallId) :
    Nat → Host → Option Breakdown × Host
  | 0, h => (none, h)
  | fuel + 1, h =>
    match h.driveOnce room prepare c with
    | .ok (some h) => drive room prepare c fuel h
    | .ok none => (none, h)
    | .error b => (some b, h)

/-- How many steps are enough for a request that goes through all engines. -/
def stepsEnough (h : Host) : Nat := 4 * (h.config.languages.size + h.registry.size + 1)

/-- What a call was answered, unless the program broke down before. -/
def answered (c : CallId) : Option Breakdown × Host → Except NoStart Json
  | (some b, _) => .error (.brokenDown b)
  | (none, h) => ((h.answer? c).getD (.ok .null)).mapError .failed

/-- Answers a request that goes through all engines. -/
def answer (h : Host) (room : Room) (prepare : Preparation) (request : Request) (token : Token) :
    Except NoStart Json × Host :=
  let driven := drive room prepare h.asked h.stepsEnough (h.ask request token)
  (answered h.asked driven, driven.2)

/-- Makes the engine of a language and keeps it. -/
def adopt (h : Host) (language : Language) : Outcome Unit × Host :=
  let (r, h) := h.make (.interpreter language) none
  h.register r

end Host

namespace Service

/-- The line that a service begins with. -/
def greeting : String := "Starting polyglot host v0.1.0"

/-- Logs a line. -/
def say (s : Service) (level : LogLevel) (text : String) : Service :=
  { s with log := ⟨level, text⟩ :: s.log }

/-- The language that an engine is made for: a language under its own name. -/
def language? (name : String) : Option Language :=
  (Language.ofName? name).filter fun language => language.name = name

/-- Makes the engine of a runtime that is enabled, if it can be made. -/
def adopt (s : Service) (name : String) : Outcome Service :=
  match language? name with
  | some language =>
    match s.host.adopt language with
    | (.ok (), host) => .ok { s with host }
    | (.error e, _) => .error e
  | none => .ok (s.say .warn ("No built-in adapter for runtime " ++ name))

/-- A service that gave up before it could start anything. -/
def refused (log : List LogLine) (report : FailureReport) : ServiceRun :=
  ⟨log.reverse, some report, none, none⟩

/-- A service that has ended. -/
def ended (s : Service) (failure? : Option FailureReport) : ServiceRun :=
  ⟨s.log.reverse, failure?, some s.host, none⟩

/-- A service that has broken down. -/
def brokenDown (s : Service) (b : Breakdown) : ServiceRun :=
  ⟨s.log.reverse, none, some s.host, some b⟩

/-- A service with a new host. -/
def hosting (host : Host) (log : List LogLine) : Service :=
  let (token, host) := host.newToken
  ⟨host, token, log⟩

/-- Passes a request on to all engines. -/
def request (s : Service) (room : Room) (prepare : Preparation) (request : Request)
    (token : Token) : Except ServiceRun (Outcome Unit × Service) :=
  let (r, host) := s.host.answer room prepare request token
  let s := { s with host }
  match r with
  | .ok _ => .ok (.ok (), s)
  | .error (.failed e) => .ok (.error e, s)
  | .error (.brokenDown b) => .error (s.brokenDown b)

/-- Gives up because of a failure, after all engines were stopped, which may have failed too. -/
def giveUp (s : Service) (e : HostError) (stopped : Outcome Unit) : ServiceRun :=
  match stopped with
  | .ok () => s.ended (some (.of e))
  | .error stopError => (s.say .error stopError.message).ended (some (.of e))

/-- Starts all engines; if that fails, those that were started are stopped again. -/
def start (s : Service) (room : Room) (prepare : Preparation) : Except ServiceRun Service := do
  let (r, s) ← s.request room prepare .start s.token
  match r with
  | .ok () => .ok (s.say .info ("Runtimes ready: " ++ Text.quoteList s.host.runtimes))
  | .error e =>
    let s := s.say .error ("Initialization failed: " ++ e.message)
    let (stopped, s) ← s.request room prepare .stop s.token
    .error (s.giveUp e stopped)

/-- Brings a service up from a configuration. -/
def ofConfig (config : HostConfig) (log : List LogLine) (room : Room) (prepare : Preparation) :
    Except ServiceRun Service :=
  match Host.new config with
  | .error e => .error (refused log (.of e))
  | .ok host =>
    match (config.enabledRuntimes.map Prod.fst).foldlM adopt (hosting host log) with
    | .error e => .error (refused log (.of e))
    | .ok s => s.start room prepare

/-- What is said of a configuration that cannot be loaded. -/
def loadMessage : LoadFailure → String
  | .unreadable => (HostError.configInvalid "failed to read the configuration file").message
  | .undecodable => (HostError.configInvalid "failed to decode the configuration").message
  | .refused e => e.message

/-- Brings a service up. -/
def bringUp (file? : Option ConfigFile) (environment : List (String × String)) (room : Room)
    (prepare : Preparation) : Except ServiceRun Service :=
  let log : List LogLine := [⟨.info, greeting⟩]
  match HostConfig.load file? environment with
  | .error e => .error (refused log ⟨"failed to load configuration", [loadMessage e]⟩)
  | .ok config =>
    ofConfig config (⟨.info, "Configuration loaded for " ++ config.app.name⟩ :: log) room prepare

/-- Stops all engines of a service that was told to end, with a token that has not fired: its own
token fires. -/
def stop (s : Service) (room : Room) (prepare : Preparation) :
    Except ServiceRun (Outcome Unit × Service) :=
  let (token, host) := (s.host.fire s.token).newToken
  { s with host }.request room prepare .stop token

/-- Ends a service whose engines were stopped, which may have failed. -/
def conclude (s : Service) (stopped : Outcome Unit) : ServiceRun :=
  match stopped with
  | .ok () => (s.say .info "Host stopped gracefully").ended none
  | .error e => (s.say .error ("Shutdown error: " ++ e.message)).ended (some (.of e))

/-- Ends a service. -/
def finish (s : Service) (room : Room) (prepare : Preparation) : ServiceRun :=
  match (s.say .info "Received shutdown signal, cleaning up...").stop room prepare with
  | .ok (stopped, s) => s.conclude stopped
  | .error r => r

/-- Brings a service up and ends it once it is ready. -/
def run (file? : Option ConfigFile) (environment : List (String × String)) (room : Room)
    (prepare : Preparation) : ServiceRun :=
  match bringUp file? environment room prepare with
  | .ok s => s.finish room prepare
  | .error r => r

end Service

/-- How a process ends: with an exit code, or by a signal. -/
inductive Exit where
  | code (n : Nat)
  | signal (n : Nat)
  deriving Repr, DecidableEq

/-- What a process says that breaks down. -/
def Breakdown.message : Breakdown → String
  | .capacityOverflow => "capacity overflow"
  | .outOfMemory octets => "memory allocation of " ++ toString octets ++ " bytes failed"
  | .tooManyPermits =>
    "a semaphore may not have more than MAX_PERMITS permits (" ++ toString mostPermits ++ ")"

/-- How a process ends that breaks down: it aborts where octets are not to be had, and panics
otherwise. -/
def Breakdown.exit : Breakdown → Exit
  | .outOfMemory _ => .signal 6
  | .capacityOverflow | .tooManyPermits => .code 101

/-- How the process of a service ends. -/
def ServiceRun.exit (r : ServiceRun) : Exit :=
  match r.breakdown? with
  | some b => b.exit
  | none => .code (if r.failure?.isSome then 1 else 0)

end LanguageHost
