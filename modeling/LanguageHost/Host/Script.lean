import LanguageHost.Host.Basic
import LanguageHost.Text.Quoted

/-!
# Scripted engines and functions

Where a host is played on a clock of its own, scripts say what its foreign engines do with a
request and what its application functions do, and bodies what its native functions do.  The log of
such a play has a line for each request to a foreign engine, and for the beginning and the end of
the work of each application function.
-/

namespace LanguageHost

/-- What a foreign engine does with a request: it sleeps, and then fails or answers. -/
structure EngineAct where
  sleep : Nat
  failure? : Option HostError
  value? : Option Json

/-- What a foreign engine does with requests. -/
structure EngineScript where
  start : EngineAct
  execute : EngineAct
  call : EngineAct
  stop : EngineAct

namespace EngineScript

/-- What is done with a request. -/
def act (s : EngineScript) : EngineOp → EngineAct
  | .start _ => s.start
  | .run (.execute ..) => s.execute
  | .run (.call ..) => s.call
  | .stop => s.stop

/-- The answer to a request where the script gives none. -/
def usualValue : EngineOp → Json
  | .run (.execute code args) => .ofMembers [("code", .str code), ("args", .arr args)]
  | .run (.call function args) => .ofMembers [("function", .str function), ("args", .arr args)]
  | _ => .null

/-- The answer to a request. -/
def outcome (s : EngineScript) (op : EngineOp) : Outcome Json :=
  match (s.act op).failure? with
  | some e => .error e
  | none => .ok ((s.act op).value?.getD (usualValue op))

end EngineScript

/-- What a native function does. -/
inductive NativeBody where
  /-- It returns its arguments. -/
  | echo
  /-- It returns the number of its arguments. -/
  | count
  | value (v : Json)
  | failure (e : HostError)
  | panic (text : String)
  /-- It returns whether its token has fired. -/
  | askToken
  /-- It fires the token of the request that is being played, and waits until the gate is open. -/
  | fireAndWait

/-- How a function of a body ends. -/
def NativeBody.ending (args : List Json) (fired : Bool) : NativeBody → NativeEnding
  | echo => .value (.arr args)
  | count => .value (.int args.length)
  | value v => .value v
  | failure e => .failure e
  | panic text => .panic (some text)
  | askToken => .value (.bool fired)
  | fireAndWait => .value (.str "late")

/-- What an application function does once it has slept. -/
inductive FunctionAct where
  /-- It returns its arguments. -/
  | echo
  /-- It returns the number of its arguments. -/
  | count
  | value (v : Json)
  | failure (e : HostError)
  /-- It returns whether its token has fired. -/
  | askToken
  /-- It fires its token. -/
  | fireToken
  /-- It waits until its token fires. -/
  | awaitToken
  /-- It gives a name to a function that counts its arguments, and returns all names. -/
  | register (name : String)
  /-- It takes a name away, and returns all names. -/
  | unregister (name : String)
  /-- It calls another function with its own token and arguments. -/
  | call (name : String)

/-- What an application function does: it sleeps and then acts. -/
structure FunctionScript where
  /-- How many milliseconds it sleeps. -/
  sleep : Nat
  act : FunctionAct
  /-- The name under which it is logged, if it is. -/
  label? : Option String

/-- A function that counts its arguments and is not logged. -/
def FunctionScript.counter : FunctionScript := ⟨0, .count, none⟩

/-- The outcome of a change of the bridge from within: all names, or its failure. -/
def Bridge.outcome (b : Bridge) (r : Outcome Unit) : Outcome Json :=
  r.map fun _ => .arr (b.names.map .str)

/-- The word for whether a token has fired. -/
def firedWord (fired : Bool) : String := if fired then "true" else "false"

/-- The line for a request to a foreign engine. -/
def EngineOp.line (name : String) (fired : Bool) : EngineOp → String
  | .start settings =>
    String.intercalate " "
      ["init", name, settings.name, settings.version, toString settings.poolSize,
        Text.quoteList settings.options.keys, firedWord fired]
  | .run (.execute ..) => "execute " ++ name ++ " " ++ firedWord fired
  | .run (.call function _) => "call " ++ name ++ " " ++ function ++ " " ++ firedWord fired
  | .stop => "shutdown " ++ name

/-- The line for a note, if there is one. -/
def HostNote.line? (h : Host) : HostNote → Option String
  | asked r op fired =>
    match h.engine? r with
    | some ⟨name, .foreign _, _, _⟩ => some (op.line name fired)
    | _ => none
  | policy _ => none

/-- What a note puts on record about a policy. -/
def HostNote.policyEvent? : HostNote → Option PolicyEvent
  | policy e => some e
  | _ => none

/-- What was put on record about policies, in order. -/
def Host.policyEvents (h : Host) : List PolicyEvent :=
  h.notes.reverse.filterMap HostNote.policyEvent?

end LanguageHost
