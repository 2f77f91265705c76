import LanguageHost.Machine.Basic
import LanguageHost.Service

/-!
# The command line

Runs the service: reads the configuration file and the environment, looks for the interpreters,
and serves until the input ends.
-/

namespace LanguageHost.CommandLine

/-- The text of a file, if it can be read. -/
def readText (path : String) : IO (Option String) := do
  try
    return some (← IO.FS.readFile path)
  catch _ =>
    return none

/-- A variable and its value, where they are written with `=` between them. -/
def splitVariable (entry : String) : Option (String × String) :=
  let cs := entry.toList
  let name := String.ofList (cs.takeWhile (· ≠ '='))
  if name = entry then none else some (name, String.ofList ((cs.dropWhile (· ≠ '=')).drop 1))

/-- The environment of this process. -/
def readEnvironment : IO (List (String × String)) := do
  let text := (← readText "/proc/self/environ").getD ""
  return (text.splitOn (String.singleton (Char.ofNat 0))).filterMap splitVariable

/-- The first file that can be read. -/
def firstFile : List (String × FileFormat) → IO (Option ConfigFile)
  | [] => return none
  | (path, format) :: rest => do
    match ← readText path with
    | some text => return some ⟨format, text⟩
    | none => firstFile rest

/-- Whether a file can be opened. -/
def canOpen (path : String) : IO Bool := do
  try
    let _ ← IO.FS.Handle.mk path .read
    return true
  catch _ =>
    return false

/-- The languages whose interpreters are in one of some directories. -/
def findLanguages (directories : List String) : IO (List Language) :=
  [Language.python, .javascript, .ruby, .php].filterM fun language =>
    directories.anyM fun directory => canOpen (directory ++ "/" ++ language.command)

/-- The scripts that a configuration names, with their texts. -/
def readScripts (config : HostConfig) : IO (List (String × String)) :=
  (config.enabledRuntimes.filterMap fun e => e.2.optionText? "script").filterMapM fun path => do
    return (← readText path).map fun text => (path, text)

/-- What is found out about an interpreter, given what was found. -/
def startReport (languages : List Language) (scripts : List (String × String))
    (language : Language) (settings : RuntimeSettings) : Outcome StartReport :=
  if languages.contains language then
    match settings.optionText? "script" with
    | none => .ok ⟨"unknown", ""⟩
    | some path =>
      match scripts.lookup path with
      | some text => .ok ⟨"unknown", text⟩
      | none => .error (.io "No such file or directory (os error 2)")
  else .error (notFoundError language)

/-- The preparations of an interpreter, which take no time once everything was found. -/
def prepare (languages : List Language) (scripts : List (String × String)) : Preparation :=
  fun language settings => ⟨0, startReport languages scripts language settings⟩

/-- Prints lines of a log. -/
def printLog (lines : List LogLine) : IO Unit :=
  lines.forM fun l => IO.println (l.level.name ++ " " ++ l.text)

/-- Ends with a run: prints why it broke down or gave up, if it did, and gives its exit code.  A
signal counts as a code above 128. -/
def conclude (r : ServiceRun) : IO UInt32 := do
  if let some b := r.breakdown? then
    IO.eprintln b.message
  if let some report := r.failure? then
    (← IO.getStderr).putStr report.render
  match r.exit with
  | .code n => return n.toUInt32
  | .signal n => return (128 + n).toUInt32

/-- Waits until the input ends. -/
partial def awaitEnd (input : IO.FS.Stream) : IO Unit := do
  unless (← input.getLine).isEmpty do awaitEnd input

/-- Runs the service. -/
def serve : IO UInt32 := do
  let environment ← readEnvironment
  let file? ← firstFile (HostConfig.candidates (HostConfig.filePath environment))
  let directories := ((environment.lookup "PATH").getD "").splitOn ":"
  let languages ← findLanguages directories
  let scripts ← match HostConfig.load file? environment with
    | .ok config => readScripts config
    | .error _ => pure []
  let prepare := prepare languages scripts
  match Service.bringUp file? environment Machine.usualRoom prepare with
  | .error r =>
    printLog r.log
    conclude r
  | .ok s =>
    printLog s.log.reverse
    awaitEnd (← IO.getStdin)
    let r := s.finish Machine.usualRoom prepare
    printLog (r.log.drop s.log.length)
    conclude r

end LanguageHost.CommandLine

def main : IO UInt32 := LanguageHost.CommandLine.serve
