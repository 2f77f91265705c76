import LanguageHost.Error
import LanguageHost.Json.Value

/-!
# The configuration of a host

What a host is told before it starts: who it is, which runtimes it may start and with what
settings, and how much memory the runtimes may share.  A configuration is checked once, when a
host is built from it.

Main fact: `validate_eq_ok_iff` (what an accepted configuration looks like).
-/

namespace LanguageHost

/-- What is known about the application. -/
structure AppInfo where
  name : String
  version : String
  description : String
  author : String
  license : String
  deriving Repr, DecidableEq

instance : Inhabited AppInfo := ⟨⟨"polyglot-app", "0.1.0", "", "", "MIT"⟩⟩

/-- The settings of one runtime. -/
structure RuntimeSettings where
  name : String
  version : String
  enabled : Bool
  options : Dict Json
  maxConcurrency : Nat
  timeoutSecs : Nat

/-- The settings of a runtime of which nothing is said. -/
instance : Inhabited RuntimeSettings := ⟨⟨"", "", false, Dict.empty, 10, 30⟩⟩

namespace RuntimeSettings

/-- The settings of an enabled runtime with the usual limits. -/
def new (name version : String) : RuntimeSettings :=
  { (default : RuntimeSettings) with name, version, enabled := true }

/-- Sets an option. -/
def withOption (r : RuntimeSettings) (key : String) (value : Json) : RuntimeSettings :=
  { r with options := r.options.insert key value }

/-- The number of workers where none is asked for. -/
def usualPoolSize : Nat := 4

/-- The number of workers. -/
def poolSize (r : RuntimeSettings) : Nat :=
  if r.maxConcurrency = 0 then usualPoolSize else r.maxConcurrency

/-- How long a start may take; zero seconds stand for no limit. -/
def timeout? (r : RuntimeSettings) : Option Duration :=
  if 0 < r.timeoutSecs then some (Duration.ofSecs r.timeoutSecs) else none

/-- An option that is a text. -/
def optionText? (r : RuntimeSettings) (key : String) : Option String :=
  (r.options.get? key).bind Json.asStr?

/-- An option that is a whole number from zero on. -/
def optionNat? (r : RuntimeSettings) (key : String) : Option Nat :=
  (r.options.get? key).bind Json.asNat?

end RuntimeSettings

/-- How readers and writers of a shared region exclude each other. -/
inductive AccessRule where
  /-- Writers exclude writers only. -/
  | cooperative
  /-- Writers exclude both readers and writers. -/
  | exclusive
  deriving Repr, DecidableEq

namespace AccessRule

instance : Inhabited AccessRule := ⟨exclusive⟩

/-- The name of a rule. -/
def name : AccessRule → String
  | cooperative => "cooperative"
  | exclusive => "exclusive"

/-- The rule of a name. -/
def ofName? (name : String) : Option AccessRule :=
  if name = "cooperative" then some cooperative
  else if name = "exclusive" then some exclusive
  else none

end AccessRule

/-- The settings of the shared memory. -/
structure MemorySettings where
  /-- How many octets all regions together may have. -/
  limit : UInt64
  rule : AccessRule
  deriving Repr, DecidableEq

/-- A gibibyte, with exclusive writers. -/
instance : Inhabited MemorySettings := ⟨⟨1073741824, default⟩⟩

/-- The configuration of a host. -/
structure HostConfig where
  app : AppInfo
  /-- The settings of the runtimes under their names. -/
  languages : Dict RuntimeSettings
  memory : MemorySettings

instance : Inhabited HostConfig := ⟨⟨default, Dict.empty, default⟩⟩

namespace HostConfig

/-- The first runtime entry that gives itself another name than its own. -/
def misnamed? (c : HostConfig) : Option (String × RuntimeSettings) :=
  c.languages.entries.find? fun e => e.2.name ≠ "" ∧ e.2.name ≠ e.1

/-- Checks what a host relies on. -/
def validate (c : HostConfig) : Outcome Unit :=
  if c.app.name = "" then .error (.configInvalid "app name is required")
  else if c.memory.limit = 0 then .error (.configInvalid "max shared memory must be positive")
  else
    match c.misnamed? with
    | some (name, r) =>
      .error (.configInvalid ("runtime entry " ++ name ++ " declares mismatched name " ++ r.name))
    | none => .ok ()

/-- A configuration is accepted when the application has a name, some memory may be shared, and
no runtime entry gives itself another name. -/
theorem validate_eq_ok_iff (c : HostConfig) :
    c.validate = .ok () ↔
      c.app.name ≠ "" ∧ c.memory.limit ≠ 0 ∧
        ∀ e ∈ c.languages.entries, e.2.name = "" ∨ e.2.name = e.1 := by
  unfold validate
  split
  · simp_all
  · split
    · simp_all
    · split
      · next name r h =>
        have hm := List.mem_of_find?_eq_some h
        have hp := List.find?_some h
        simp only [decide_eq_true_eq] at hp
        constructor
        · intro h; cases h
        · rintro ⟨_, _, hall⟩
          rcases hall _ hm with h' | h'
          · exact absurd h' hp.1
          · exact absurd h' hp.2
      · next h =>
        have hp := List.find?_eq_none.mp h
        refine ⟨fun _ => ⟨‹_›, ‹_›, fun e he => ?_⟩, fun _ => rfl⟩
        have := hp e he
        simp only [decide_eq_true_eq, not_and, Classical.not_not] at this
        by_cases hn : e.2.name = ""
        · exact .inl hn
        · exact .inr (this hn)

/-- Enables a runtime with the usual limits, in place of what was set for it before. -/
def enable (c : HostConfig) (name version : String) : HostConfig :=
  { c with languages := c.languages.insert name (.new name version) }

/-- Disables a runtime, if there is an entry for it. -/
def disable (c : HostConfig) (name : String) : HostConfig :=
  { c with languages := c.languages.modify name fun r => { r with enabled := false } }

/-- Whether a runtime is to be started. -/
def isEnabled (c : HostConfig) (name : String) : Bool :=
  (c.languages.get? name).elim false RuntimeSettings.enabled

/-- The entries of the runtimes that are to be started, in the order of their names. -/
def enabledRuntimes (c : HostConfig) : List (String × RuntimeSettings) :=
  c.languages.entries.filter fun e => e.2.enabled

/-- Gives every runtime entry without a name the name that it stands under. -/
def fillNames (c : HostConfig) : HostConfig :=
  { c with
    languages := c.languages.map fun name r => if r.name = "" then { r with name } else r }

end HostConfig

end LanguageHost
