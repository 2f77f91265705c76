import LanguageHost.Config.Basic
import LanguageHost.Text.Lowercase
import LanguageHost.Json.Writer
import LanguageHost.Word

/-!
# Configurations from data values

A configuration is read from a data value field by field.  What is missing keeps its usual value,
and what is unknown is left alone.  A record may also be given as an array of its leading fields.

How the leaves are read is up to a `Reading`: the strict one takes every value for what it is,
the lenient one also accepts a text that spells a number or a flag, a number for a flag, and so
on.
-/

namespace LanguageHost

/-- How the leaves of a configuration are read. -/
structure Reading where
  text? : Json → Option String
  flag? : Json → Option Bool
  count? : Json → Option Nat
  rule? : Json → Option AccessRule
  /-- The value that an option keeps. -/
  option : Json → Json
  /-- Whether an array may have more items than its record has fields. -/
  surplus : Bool

namespace Reading

/-! ### Taking every value for what it is -/

/-- A flag. -/
def strictFlag? : Json → Option Bool
  | .bool b => some b
  | _ => none

/-- An access rule: its name, or its name with nothing. -/
def strictRule? : Json → Option AccessRule
  | .str s => AccessRule.ofName? s
  | .obj [(name, .null)] => AccessRule.ofName? name
  | _ => none

/-- The reading that takes every value for what it is. -/
def strict : Reading :=
  { text? := Json.asStr?
    flag? := strictFlag?
    count? := Json.asNat?
    rule? := strictRule?
    option := id
    surplus := false }

/-! ### Reading leaves generously -/

/-- A text, or the text of a number or a flag. -/
def lenientText? : Json → Option String
  | .str s => some s
  | .bool b => some (if b then "true" else "false")
  | .int n => some (toString n)
  | .float bits => some (Decimal.render Decimal.plain bits)
  | _ => none

/-- Words that stand for a set flag. -/
def yesWords : List String := ["true", "on", "yes"]

/-- Words that stand for a flag that is not set. -/
def noWords : List String := ["false", "off", "no"]

/-- A flag, a number that is or is not zero, or a word that stands for a flag. -/
def lenientFlag? : Json → Option Bool
  | .bool b => some b
  | .int n => some (n ≠ 0)
  | .float bits => some (Float.ofBits bits != 0)
  | .str s =>
    let word := Text.lower s
    if word ∈ "1" :: yesWords then some true
    else if word ∈ "0" :: noWords then some false
    else none
  | _ => none

/-- The number that digits spell, after an optional plus sign, if 64 bits hold it. -/
def spelledCount? (cs : List Char) : Option Nat :=
  let ds := match cs with
    | '+' :: rest => rest
    | _ => cs
  if ds ≠ [] ∧ ds.all Char.isDigit then
    let n := ds.foldl (fun n c => n * 10 + (c.toNat - '0'.toNat)) 0
    if n < Word.count then some n else none
  else none

/-- The nearest whole number of a double within 64 bits, a half going up; zero for what is
negative or no number. -/
def nearestCount (bits : UInt64) : Nat :=
  match Decimal.Binary64.ofBits bits with
  | .notANumber => 0
  | .infinite negative => if negative then 0 else Word.largest
  | .finite negative mantissa exponent _ =>
    if negative then 0
    else
      let n :=
        if 0 ≤ exponent then mantissa * Nat.pow 2 exponent.toNat
        else
          let unit := Nat.pow 2 (-exponent).toNat
          (2 * mantissa + unit) / (2 * unit)
      min n Word.largest

/-- A whole number from zero on, or what spells one or can be rounded to one. -/
def lenientCount? : Json → Option Nat
  | .int n => if 0 ≤ n then some n.toNat else none
  | .bool b => some (if b then 1 else 0)
  | .float bits => some (nearestCount bits)
  | .str s =>
    let word := Text.lower s
    if word ∈ yesWords then some 1
    else if word ∈ noWords then some 0
    else spelledCount? s.toList
  | _ => none

/-- An access rule by its name in letters of any case, alone or with a value. -/
def lenientRule? : Json → Option AccessRule
  | .str s => AccessRule.ofName? (Text.lower s)
  | .obj [(name, _)] => AccessRule.ofName? (Text.lower name)
  | _ => none

/-- A leaf, or nothing in place of what is not finite. -/
def finiteLeaf : Json → Json
  | .float bits => if Decimal.Binary64.isFinite bits then .float bits else .null
  | v => v

/-- The reading that accepts whatever can be understood. -/
def lenient : Reading :=
  { text? := lenientText?
    flag? := lenientFlag?
    count? := lenientCount?
    rule? := lenientRule?
    option := Json.mapLeaves finiteLeaf
    surplus := true }

/-! ### Records -/

/-- The fields that a value gives of a record with fields of these names in this order. -/
def fields? (r : Reading) (names : List String) : Json → Option (List (String × Json))
  | .obj members => some members
  | .arr items =>
    if r.surplus ∨ items.length ≤ names.length then some (names.zip items) else none
  | _ => none

/-- Reads one of the given fields; what is not given has its usual value. -/
def field {α : Type} (given : List (String × Json)) (name : String) (read? : Json → Option α)
    (usual : α) : Option α :=
  match SortedByName.get? name given with
  | none => some usual
  | some v => read? v

/-- Reads every entry of an object. -/
def dict? {α : Type} (read? : Json → Option α) : Json → Option (Dict α)
  | .obj members => do
    return Dict.ofList (← members.mapM fun (name, v) => do return (name, ← read? v))
  | _ => none

/-- Reads what is known about the application. -/
def app? (r : Reading) (v : Json) : Option AppInfo := do
  let given ← r.fields? ["name", "version", "description", "author", "license"] v
  let usual : AppInfo := default
  return {
    name := ← field given "name" r.text? usual.name
    version := ← field given "version" r.text? usual.version
    description := ← field given "description" r.text? usual.description
    author := ← field given "author" r.text? usual.author
    license := ← field given "license" r.text? usual.license }

/-- Reads the settings of a runtime. -/
def runtime? (r : Reading) (v : Json) : Option RuntimeSettings := do
  let given ←
    r.fields? ["name", "version", "enabled", "options", "max_concurrency", "timeout_secs"] v
  let usual : RuntimeSettings := default
  return {
    name := ← field given "name" r.text? usual.name
    version := ← field given "version" r.text? usual.version
    enabled := ← field given "enabled" r.flag? usual.enabled
    options := ← field given "options" (dict? fun v => some (r.option v)) usual.options
    maxConcurrency := ← field given "max_concurrency" r.count? usual.maxConcurrency
    timeoutSecs := ← field given "timeout_secs" r.count? usual.timeoutSecs }

/-- Reads the settings of the shared memory. -/
def memory? (r : Reading) (v : Json) : Option MemorySettings := do
  let given ← r.fields? ["max_shared_memory", "access_policy"] v
  let usual : MemorySettings := default
  return {
    limit := (← field given "max_shared_memory" r.count? usual.limit.toNat).toUInt64
    rule := ← field given "access_policy" r.rule? usual.rule }

/-- Reads a configuration. -/
def config? (r : Reading) (v : Json) : Option HostConfig := do
  let given ← r.fields? ["app", "languages", "memory"] v
  let usual : HostConfig := default
  return {
    app := ← field given "app" r.app? usual.app
    languages := ← field given "languages" (dict? r.runtime?) usual.languages
    memory := ← field given "memory" r.memory? usual.memory }

end Reading

end LanguageHost
