import LanguageHost.Config.Basic
import LanguageHost.Json.Reader
import LanguageHost.Json.Writer
import LanguageHost.Language
import LanguageHost.Text.Utf8

/-!
# Interpreters as child processes

A program is run by a fresh interpreter: the program on its input, the arguments of the call as a
data value in its environment.  What it prints is the result: a data value if it can be read as
one, and a text otherwise.  An interpreter that does not exit with success has failed, with what
it printed on its error output.
-/

namespace LanguageHost

/-- A signal that ends processes. -/
structure Signal where
  number : Nat
  name : String
  deriving Repr, DecidableEq

/-- How a process ended. -/
inductive ExitStatus where
  | code (n : Nat)
  | signal (s : Signal)
  deriving Repr, DecidableEq

namespace ExitStatus

/-- Whether a process exited with success. -/
def success : ExitStatus → Bool
  | code n => n == 0
  | signal _ => false

/-- The text of a status. -/
def render : ExitStatus → String
  | code n => "exit status: " ++ toString n
  | signal s => "signal: " ++ toString s.number ++ " (" ++ s.name ++ ")"

end ExitStatus

/-- What a process left behind. -/
structure ChildOutput where
  status : ExitStatus
  out : List UInt8
  err : List UInt8
  deriving Repr, DecidableEq

/-- The text of octets without the blanks at both ends. -/
def trimmedText (octets : List UInt8) : String :=
  String.ofList (Text.stripBlanks (Text.Utf8.decodeLossy octets))

/-- The value of a printed text: nothing is `null`, and what cannot be read is a text. -/
def printedValue (text : String) : Json :=
  if text.isEmpty then .null else (Json.read? text.toList).getD (.str text)

/-- The outcome of a call whose process has ended. -/
def ChildOutput.outcome (o : ChildOutput) (runtime : String) : Outcome Json :=
  if o.status.success then .ok (printedValue (trimmedText o.out))
  else
    let said := trimmedText o.err
    .error (.executionFailed runtime
      (if said.isEmpty then "process exited with " ++ o.status.render else said))

/-- The version that an interpreter printed: the first line, of the error output if the other one
is empty. -/
def printedVersion (out err : List UInt8) : String :=
  let text := Text.Utf8.decodeLossy (if out.isEmpty then err else out)
  if text.isEmpty then "unknown"
  else String.ofList (Text.stripBlanks (text.takeWhile (· ≠ '\n')))

/-- Why an interpreter cannot be found. -/
def notFoundError (language : Language) : HostError :=
  .processSpawnFailed ("Executable '" ++ language.command
    ++ "' not found in PATH: cannot find binary path")

/-- A process that is to be started. -/
structure Spawn where
  language : Language
  program : String
  directory? : Option String
  /-- The variables that are set for it, the arguments of the call among them. -/
  environment : Dict String
  /-- How long it may take. -/
  limit? : Option Duration
  /-- How many milliseconds it has to end before it is killed. -/
  killGrace : Nat

namespace Spawn

/-- The variables as the process is given them, each as its name, `=` and its value. -/
def variableTexts (spawn : Spawn) : List String :=
  spawn.environment.entries.map fun e => e.1 ++ "=" ++ e.2

/-- The text of a variable: a text as it is, and any other value in its compact form. -/
def variableText : Json → String
  | .str s => s
  | v => v.render

/-- The variables that the settings of a runtime ask for. -/
def chosenVariables (settings : RuntimeSettings) : Dict String :=
  let members := ((settings.options.get? "env").bind Json.asObj?).getD []
  Dict.ofList (members.map fun e => (e.1, variableText e.2))

/-- How many milliseconds a process has to end where nothing is said. -/
def usualKillGrace : Nat := 500

/-- The process that runs a program with arguments. -/
def of (language : Language) (settings : RuntimeSettings) (program : String) (args : List Json) :
    Spawn :=
  { language, program
    directory? := settings.optionText? "work_dir"
    environment := (chosenVariables settings).insert argsVariable (Json.arr args).render
    limit? := (settings.optionNat? "exec_timeout_secs").map Duration.ofSecs
    killGrace := (settings.optionNat? "kill_grace_ms").getD usualKillGrace }

end Spawn

/-- What became of a process. -/
inductive ChildReport where
  /-- It could not be started. -/
  | unspawned (reason : String)
  /-- It ended, after its program had been written and with everything that it printed read. -/
  | ended (output : ChildOutput)
  /-- Writing its program, reading what it prints, or waiting for it failed.  What it leaves behind
  is not asked for then. -/
  | broken (reason : String) (output? : Option ChildOutput)
  /-- It took too long and was ended. -/
  | timedOut
  /-- It was ended because the token of the call fired. -/
  | stopped

/-- The outcome of the call that a process was started for; none where the report does not fit. -/
def ChildReport.outcome? (r : ChildReport) (spawn : Spawn) (fired : Bool) : Option (Outcome Json) :=
  match r with
  | unspawned reason => some (.error (.processSpawnFailed ("Failed to spawn process: " ++ reason)))
  | ended output => some (output.outcome spawn.language.name)
  | broken reason _ => some (.error (.io reason))
  | timedOut => spawn.limit?.map fun limit => .error (.executionTimeout limit)
  | stopped => if fired then some (.error .operationCancelled) else none

end LanguageHost
