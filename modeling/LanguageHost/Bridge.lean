import LanguageHost.Error
import LanguageHost.Json.Value

/-!
# Functions for a frontend

A bridge gives names to functions that a frontend may call.  A function either forwards to a
function of a runtime, or belongs to the application.  Of an application function the bridge knows
nothing but which one it is: what it does is up to the application.

Main facts: `get?_register` and `get?_unregister` (what a look-up sees after a change).
-/

namespace LanguageHost

/-- The identity of an application function. -/
abbrev FunctionId := Nat

/-- A function that a frontend may call. -/
inductive BridgeFunction where
  /-- Forwards to a function of a runtime. -/
  | exposed (runtime function : String)
  | app (f : FunctionId)

/-- Functions under their names. -/
structure Bridge where
  functions : Dict BridgeFunction

namespace Bridge

/-- A bridge without functions. -/
def empty : Bridge := ⟨Dict.empty⟩

instance : Inhabited Bridge := ⟨empty⟩

/-- The function of a name. -/
def get? (b : Bridge) (name : String) : Option BridgeFunction := b.functions.get? name

/-- The names, in increasing order. -/
def names (b : Bridge) : List String := SortedByName.sortedNames b.functions.entries

/-- Gives a name to a function, unless the name is taken. -/
def register (b : Bridge) (name : String) (f : BridgeFunction) : Outcome Unit × Bridge :=
  match b.get? name with
  | some _ => (.error (.functionAlreadyRegistered name), b)
  | none => (.ok (), ⟨b.functions.insert name f⟩)

/-- Takes a name away. -/
def unregister (b : Bridge) (name : String) : Outcome Unit × Bridge :=
  match b.get? name with
  | some _ => (.ok (), ⟨b.functions.erase name⟩)
  | none => (.error (.functionNotFound name), b)

/-- Gives a name to a function of a runtime. -/
def expose (b : Bridge) (name runtime function : String) : Outcome Unit × Bridge :=
  b.register name (.exposed runtime function)

theorem get?_register (b : Bridge) (name : String) (f : BridgeFunction) (k : String) :
    (b.register name f).2.get? k =
      if k = name then some ((b.get? name).getD f) else b.get? k := by
  unfold register
  split
  · next g h =>
    by_cases hk : k = name
    · simp [hk, h]
    · simp [hk]
  · next h => simp [get?, Dict.get?_insert] at h ⊢; simp [h]

theorem get?_unregister (b : Bridge) (name k : String) :
    (b.unregister name).2.get? k = if k = name then none else b.get? k := by
  unfold unregister
  split
  · simp [get?, Dict.get?_erase]
  · next h =>
    by_cases hk : k = name
    · simp [hk, h]
    · simp [hk]

end Bridge

end LanguageHost
