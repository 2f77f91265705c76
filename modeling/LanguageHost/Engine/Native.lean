import LanguageHost.Error
import LanguageHost.Json.Value
import LanguageHost.Text.Quoted

/-!
# Functions compiled into the host

A native engine has a table of functions.  Of a function nothing is known but which one it is: it is
given arguments and a token, and it returns a value, fails or panics.  Whatever it does, the worker
that ran it stays fit for the next one: a panic becomes an ordinary failure.
-/

namespace LanguageHost

/-- The identity of a native function. -/
abbrev NativeFunction := Nat

/-- How a native function ends. -/
inductive NativeEnding where
  | value (v : Json)
  | failure (e : HostError)
  /-- It panics with a text, or with something that is none. -/
  | panic (text? : Option String)

namespace NativeEnding

/-- What is said of a panic; tasks have no numbers that could be told. -/
def panicMessage (text? : Option String) : String :=
  "native call failed: task N panicked" ++
    text?.elim "" fun text => " with message " ++ Text.quote text

/-- The outcome of a call in a runtime. -/
def outcome (runtime : String) : NativeEnding → Outcome Json
  | value v => .ok v
  | failure e => .error e
  | panic text? => .error (.executionFailed runtime (panicMessage text?))

end NativeEnding

/-- A native function that is run: what it is given, whether its token had fired by the time it
ended, and how it ended. -/
structure Invocation where
  function : NativeFunction
  args : List Json
  fired : Bool
  ending : NativeEnding

/-- A table of native functions; of two with one name the later one counts. -/
abbrev NativeTable := Dict NativeFunction

namespace NativeTable

/-- The function of a symbol is run, if there is one. -/
def invocation? (table : NativeTable) (symbol : String) (args : List Json) (fired : Bool)
    (ending : NativeEnding) : Option Invocation :=
  (table.get? symbol).map fun f => ⟨f, args, fired, ending⟩

/-- The outcome of a call of a symbol, where its function, if there is one, comes to this end. -/
def invoke (table : NativeTable) (runtime symbol : String) (args : List Json) (fired : Bool)
    (ending : NativeEnding) : Outcome Json :=
  match table.invocation? symbol args fired ending with
  | some run => run.ending.outcome runtime
  | none => .error (.executionFailed runtime ("symbol not found: " ++ symbol))

end NativeTable

end LanguageHost
