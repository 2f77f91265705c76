import LanguageHost.Engine.Child

/-!
# Programs of lines

A small language that stands in for interpreters: a program is read line by line, a line is a
command and what follows the first space is its argument.  Lines that are no command are passed
over.  A program prints octets, ends itself or hangs.
-/

namespace LanguageHost

/-- What a program finds around it. -/
structure Surroundings where
  program : String
  arguments : List String
  directory : String
  /-- The variables that are set, each as its name, `=` and its value. -/
  environment : List String

/-- How a program goes on after its last command. -/
inductive LineEnd where
  | exits (status : ExitStatus)
  | hangs

/-- What a program did. -/
structure LineRun where
  out : List UInt8
  err : List UInt8
  /-- Whether it is deaf to the signal that asks it to end. -/
  deaf : Bool
  ending : LineEnd

namespace LineRun

/-- The signals that a program can send itself. -/
def signals : List Signal :=
  [⟨1, "SIGHUP"⟩, ⟨2, "SIGINT"⟩, ⟨3, "SIGQUIT"⟩, ⟨4, "SIGILL"⟩, ⟨6, "SIGABRT"⟩, ⟨8, "SIGFPE"⟩,
    ⟨9, "SIGKILL"⟩, ⟨10, "SIGUSR1"⟩, ⟨11, "SIGSEGV"⟩, ⟨12, "SIGUSR2"⟩, ⟨13, "SIGPIPE"⟩,
    ⟨14, "SIGALRM"⟩, ⟨15, "SIGTERM"⟩]

/-- The signal of a name without its first three letters, or of a number. -/
def signal? (name : String) : Option Signal :=
  signals.find? fun s => s.name = "SIG" ++ name ∨ toString s.number = name

/-- The value of an octal digit. -/
def octalValue? (c : Char) : Option Nat :=
  if '0' ≤ c ∧ c ≤ '7' then some (c.toNat - '0'.toNat) else none

/-- Reads at most so many octal digits. -/
def octal : Nat → Nat → List Char → Nat × List Char
  | 0, value, cs => (value, cs)
  | _, value, [] => (value, [])
  | n + 1, value, c :: rest =>
    match octalValue? c with
    | some d => octal n (value * 8 + d) rest
    | none => (value, c :: rest)

theorem length_octal (n value : Nat) (cs : List Char) :
    (octal n value cs).2.length ≤ cs.length := by
  induction n generalizing value cs with
  | zero => simp [octal]
  | succ n ih =>
    cases cs with
    | nil => simp [octal]
    | cons c rest =>
      simp only [octal]
      split
      · exact Nat.le_trans (ih _ rest) (by simp)
      · simp

/-- The octets of a text in which a backslash, a zero and up to three octal digits stand for an
octet. -/
def octets : List Char → List UInt8
  | [] => []
  | '\\' :: '0' :: rest => (octal 3 0 rest).1.toUInt8 :: octets (octal 3 0 rest).2
  | c :: rest => Text.Utf8.encodeChar c ++ octets rest
termination_by cs => cs.length
decreasing_by
  · have := length_octal 3 0 rest
    simp only [List.length_cons]
    omega
  · simp

/-- The command of a line and its argument. -/
def command (line : String) : String × String :=
  let cs := line.toList
  (String.ofList (cs.takeWhile (· ≠ ' ')), String.ofList ((cs.dropWhile (· ≠ ' ')).drop 1))

/-- The value of a variable; of two with one name the later one counts. -/
def value? (s : Surroundings) (name : String) : Option String :=
  let start := (name ++ "=").toList
  (s.environment.reverse.find? fun v => start.isPrefixOf v.toList).map fun v =>
    String.ofList (v.toList.drop start.length)

/-- The octets of a text. -/
def plain (s : String) : List UInt8 := Text.Utf8.encode s.toList

/-- What a line prints on its output, if that is all it does. -/
def printed? (s : Surroundings) (name argument : String) : Option (List UInt8) :=
  match name with
  | "OUT" => some (octets argument.toList)
  | "ARGS" => some (plain ((value? s argsVariable).getD ""))
  | "ENV" => some (plain ((value? s argument).getD "<unset>"))
  | "ARGV" => some (plain (String.intercalate " " s.arguments))
  | "PWD" => some (plain (s.directory ++ "\n"))
  | "PROGRAM" => some (plain s.program)
  | _ => none

/-- The exit code that a text asks for. -/
def exitCode (argument : String) : Nat := (argument.toNat?.getD 0) % 256

/-- Runs lines one after another. -/
def runLines (s : Surroundings) : List String → LineRun → LineRun
  | [], r => r
  | line :: rest, r =>
    let (name, argument) := command line
    match printed? s name argument with
    | some more => runLines s rest { r with out := r.out ++ more }
    | none =>
      match name with
      | "ERR" => runLines s rest { r with err := r.err ++ octets argument.toList }
      | "EXIT" => { r with ending := .exits (.code (exitCode argument)) }
      | "IGNORE_TERM" => runLines s rest { r with deaf := true }
      | "HANG" => { r with ending := .hangs }
      | "KILL" =>
        match signal? argument with
        | some signal =>
          if r.deaf ∧ signal.name = "SIGTERM" then runLines s rest r
          else { r with ending := .exits (.signal signal) }
        | none => runLines s rest r
      | _ => runLines s rest r

/-- Runs a program. -/
def of (s : Surroundings) : LineRun :=
  runLines s (s.program.splitOn "\n") ⟨[], [], false, .exits (.code 0)⟩

end LineRun

end LanguageHost
