import LanguageHost.Metrics
import LanguageHost.Policy.Basic

/-!
# Enforcing a policy

An enforcer holds a policy and turns its denials into failures as long as it is active.  What it
and its policy put on record are events.
-/

namespace LanguageHost

/-- What is put on record about operations. -/
inductive PolicyEvent where
  | audit (policy : String) (op : Operation)
  | denial (policy : String) (op : Operation)
  deriving Repr, DecidableEq

namespace PolicyEvent

/-- The importance of an event in a log. -/
def level : PolicyEvent → String
  | audit .. => "info"
  | denial .. => "warn"

/-- The name of the policy of an event. -/
def policy : PolicyEvent → String
  | audit policy _ | denial policy _ => policy

/-- The text of an event in a log. -/
def message : PolicyEvent → String
  | audit _ op => "audit: " ++ op.render
  | denial _ op => "denied: " ++ op.render

/-- The counter that an event increments. -/
def series? : PolicyEvent → Option Series
  | audit .. => none
  | denial _ op => some (.denials op.runtime)

/-- Counts events. -/
def count (m : Metrics) (events : List PolicyEvent) : Metrics :=
  (events.filterMap series?).foldl (fun m s => m.add s 1) m

end PolicyEvent

/-- The events of a bare decision. -/
def Policy.auditEvents (p : Policy) (op : Operation) : List PolicyEvent :=
  if p.audits op then [.audit p.name op] else []

/-- Holds a policy and enforces it while it is active. -/
structure Enforcer where
  policy : Policy
  active : Bool

namespace Enforcer

/-- An active enforcer. -/
def new (policy : Policy) : Enforcer := ⟨policy, true⟩

/-- What every enforcer of a policy calls itself. -/
def name : String := "policy"

/-- Checks an operation; an inactive enforcer lets everything pass. -/
def check (e : Enforcer) (op : Operation) : Outcome Unit × List PolicyEvent :=
  if !e.active then (.ok (), [])
  else if e.policy.allow op then (.ok (), e.policy.auditEvents op)
  else (.error (.policyDenied op.render e.policy.name), [.denial e.policy.name op])

end Enforcer

end LanguageHost
