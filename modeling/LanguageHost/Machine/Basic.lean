import LanguageHost.Engine.Basic
import LanguageHost.Machine.Files
import LanguageHost.Machine.LineProgram

/-!
# The machine under a host

Where a host is played rather than run, a machine takes the place of the operating system: it has
files, a search path and so much memory, and its interpreters run programs of lines.
-/

namespace LanguageHost

/-- How the clock of a machine goes. -/
inductive Clock where
  /-- The clock stands still while anything can happen and then jumps, faster than any process. -/
  | jumping
  /-- The clock goes on by itself, and a process that ends does so before the clock has moved. -/
  | steady
  deriving Repr, DecidableEq

/-- What a host finds around it. -/
structure Machine where
  clock : Clock
  /-- Whether the interpreters are found on the search path. -/
  onPath : Bool
  files : Files
  /-- The room that the workers of interpreters take. -/
  room : Room

namespace Machine

/-- The room that a process has for the workers of interpreters: its addresses have 47 bits. -/
def usualRoom : Room := ⟨72, 0x800000000000⟩

/-- A machine with all interpreters. -/
def usual (clock : Clock) : Machine := ⟨clock, true, .usual, usualRoom⟩

/-- What an interpreter prints, on its output and on its error output, when it is asked for its
version. -/
def versionOutput : Language → String × String
  | .python => ("Python 3.99.0\n", "")
  | .javascript => ("  v99.1.0 \nsecond line\n", "")
  | .ruby => ("", "ruby 9.9.9 (on stderr)\n")
  | .php => ("", "")

/-- What is found out about an interpreter: it must be found, and so must the script that the
settings name. -/
def startReport (m : Machine) (language : Language) (settings : RuntimeSettings) :
    Outcome StartReport := do
  unless m.onPath do throw (notFoundError language)
  let (out, err) := versionOutput language
  let version := printedVersion (LineRun.plain out) (LineRun.plain err)
  match settings.optionText? "script" with
  | none => return ⟨version, ""⟩
  | some path =>
    match m.files.read path with
    | .ok script => return ⟨version, script⟩
    | .error reason => throw (.io reason)

/-- Prepares an interpreter, which takes no time. -/
def prepare (m : Machine) (language : Language) (settings : RuntimeSettings) : Prepared :=
  ⟨0, m.startReport language settings⟩

/-- The message for a zero character in what a process is started with. -/
def zeroInData : String := "nul byte found in provided data"

/-- The message for variables that are too long. -/
def tooLong : String := "Argument list too long (os error 7)"

/-- The most octets of a variable with its name, `=` and a zero at its end. -/
def longestVariable : Nat := 131072

/-- Whether a text has a zero character. -/
def hasZero (s : String) : Bool := s.contains (Char.ofNat 0)

/-- Starts a process, unless that is refused. -/
def spawn (m : Machine) (spawn : Spawn) : Except String LineRun := do
  let texts := spawn.variableTexts
  if texts.any hasZero || (spawn.directory?.elim false hasZero) then throw zeroInData
  let directory ← match spawn.directory? with
    | some path => m.files.enter path
    | none => .ok m.files.here
  if texts.any fun v => longestVariable ≤ v.utf8ByteSize then throw tooLong
  return .of ⟨spawn.program, spawn.language.arguments, Files.render directory, texts⟩

end Machine

end LanguageHost
