import LanguageHost.Error
import LanguageHost.Dict
import LanguageHost.Pattern.Reader
import LanguageHost.Text.Quoted

/-!
# Policies

A policy decides whether a runtime may do something.  The capabilities that were granted to a
runtime come first and can only forbid.  After that the rules that match decide: the earliest one
among those of the highest priority.  Where no rule matches, the operation is allowed.

Main definitions: `Policy.winner?`, the rule that decides, and `Policy.allow`, the decision.
-/

namespace LanguageHost

/-- What kind of thing an operation does. -/
inductive OperationKind where
  | fileRead
  | fileWrite
  | netConnect
  | netListen
  | exec
  | memAlloc
  | syscall
  | runtimeCall
  deriving Repr, DecidableEq, Inhabited

namespace OperationKind

/-- The name of a kind. -/
def name : OperationKind → String
  | fileRead => "file_read"
  | fileWrite => "file_write"
  | netConnect => "net_connect"
  | netListen => "net_listen"
  | exec => "exec"
  | memAlloc => "mem_alloc"
  | syscall => "syscall"
  | runtimeCall => "runtime_call"

/-- All kinds. -/
def all : List OperationKind :=
  [fileRead, fileWrite, netConnect, netListen, exec, memAlloc, syscall, runtimeCall]

/-- The kind of a name. -/
def ofName? (name : String) : Option OperationKind := all.find? fun k => k.name = name

end OperationKind

/-- Something that a runtime wants to do. -/
structure Operation where
  kind : OperationKind
  /-- A path, a host, the name of a function: whatever the operation is about. -/
  target : String
  runtime : String
  deriving Repr, DecidableEq

/-- The text of an operation. -/
def Operation.render (op : Operation) : String :=
  op.kind.name ++ " " ++ op.target ++ " (" ++ op.runtime ++ ")"

/-- What a rule does with an operation that it matches. -/
inductive Action where
  | allow
  | deny
  /-- Allows the operation and puts it on record. -/
  | audit
  deriving Repr, DecidableEq, Inhabited

namespace Action

/-- The name of an action. -/
def name : Action → String
  | allow => "allow"
  | deny => "deny"
  | audit => "audit"

/-- The action of a name. -/
def ofName? (name : String) : Option Action :=
  if name = "allow" then some allow
  else if name = "deny" then some deny
  else if name = "audit" then some audit
  else none

end Action

/-- A pattern for targets, with the text that spells it. -/
structure TargetPattern where
  text : String
  pattern : Pattern
  deriving Repr, DecidableEq

namespace TargetPattern

/-- Reads a pattern. -/
def read (text : String) : Outcome TargetPattern :=
  match Pattern.read text with
  | .ok pattern => .ok ⟨text, pattern⟩
  | .error e =>
    .error (.configInvalid ("invalid rule pattern " ++ Text.quote text ++ ": " ++ e.message))

/-- Whether a target contains a stretch of the pattern. -/
def fits (p : TargetPattern) (target : String) : Bool := p.pattern.occursIn target

end TargetPattern

/-- A rule of a policy. -/
structure Rule where
  operation : OperationKind
  /-- The targets that the rule is about; all of them if there is no pattern. -/
  target? : Option TargetPattern
  action : Action
  priority : Int
  deriving Repr, DecidableEq

namespace Rule

/-- A rule about all targets. -/
def new (operation : OperationKind) (action : Action) (priority : Int) : Rule :=
  { operation, target? := none, action, priority }

/-- Restricts a rule to the targets that fit a pattern. -/
def withTarget (r : Rule) (pattern : String) : Outcome Rule :=
  (TargetPattern.read pattern).map fun p => { r with target? := some p }

/-- Whether a rule is about an operation.  An operation without a target is matched by every rule
of its kind. -/
def covers (r : Rule) (op : Operation) : Bool :=
  r.operation == op.kind
    && match r.target? with
      | none => true
      | some p => op.target == "" || p.fits op.target

end Rule

/-- The capabilities that were granted to a runtime. -/
structure Capabilities where
  network : Bool
  fileRead : Bool
  fileWrite : Bool
  exec : Bool
  /-- If there are any, a file must fit one of them. -/
  allowedPaths : List TargetPattern
  /-- A file must fit none of them. -/
  deniedPaths : List TargetPattern
  deriving Repr, DecidableEq

namespace Capabilities

/-- No capabilities. -/
def none : Capabilities := ⟨false, false, false, false, [], []⟩

/-- Whether a file is within reach. -/
def reaches (c : Capabilities) (path : String) : Bool :=
  !(c.deniedPaths.any fun p => p.fits path)
    && (c.allowedPaths.isEmpty || c.allowedPaths.any fun p => p.fits path)

/-- Whether the capabilities suffice for an operation. -/
def permit (c : Capabilities) (op : Operation) : Bool :=
  match op.kind with
  | .netConnect | .netListen => c.network
  | .fileRead => c.fileRead && c.reaches op.target
  | .fileWrite => c.fileWrite && c.reaches op.target
  | .exec => c.exec
  | _ => true

end Capabilities

/-- A named set of rules, with the capabilities of single runtimes. -/
structure Policy where
  name : String
  rules : List Rule
  runtimes : Dict Capabilities

namespace Policy

/-- A policy without rules. -/
def new (name : String) : Policy := ⟨name, [], Dict.empty⟩

/-- Adds a rule at the end. -/
def addRule (p : Policy) (r : Rule) : Policy := { p with rules := p.rules ++ [r] }

/-- Sets the capabilities of a runtime. -/
def setRuntime (p : Policy) (runtime : String) (c : Capabilities) : Policy :=
  { p with runtimes := p.runtimes.insert runtime c }

/-- The policy that denies starting programs and puts connections on record. -/
def usual : Policy :=
  ((new "default").addRule (.new .exec .deny 100)).addRule (.new .netConnect .audit 50)

/-- The policy that allows everything and puts writes and connections on record. -/
def permissive : Policy :=
  ((new "permissive").addRule (.new .fileWrite .audit 10)).addRule (.new .netConnect .audit 10)

/-- Of two rules the one with the higher priority, the earlier one of two with the same. -/
def stronger (best : Option Rule) (r : Rule) : Option Rule :=
  match best with
  | some b => if r.priority ≤ b.priority then some b else some r
  | none => some r

/-- The rule that decides about an operation. -/
def winner? (p : Policy) (op : Operation) : Option Rule :=
  (p.rules.filter fun r => r.covers op).foldl stronger none

/-- Whether what was granted to the runtime of an operation forbids it. -/
def forbidden (p : Policy) (op : Operation) : Bool :=
  (p.runtimes.get? op.runtime).any fun c => !c.permit op

/-- Whether an operation is allowed. -/
def allow (p : Policy) (op : Operation) : Bool :=
  !p.forbidden op && (p.winner? op).all fun r => r.action != .deny

/-- Whether deciding about an operation puts it on record. -/
def audits (p : Policy) (op : Operation) : Bool :=
  !p.forbidden op && (p.winner? op).any fun r => r.action == .audit

end Policy

end LanguageHost
