import LanguageHost.Dict

/-!
# Data values

The values that programs exchange with the host.  Whole numbers are those of 64 bits, signed or
unsigned; every other number is a double, kept as its bits.  The members of an object stand in
increasing order of their names.
-/

namespace LanguageHost

/-- A value of the data format. -/
inductive Json where
  | null
  | bool (b : Bool)
  | int (n : Int)
  | float (bits : UInt64)
  | str (s : String)
  | arr (items : List Json)
  | obj (members : List (String × Json))
  deriving Repr, BEq, Inhabited

namespace Json

/-- The text of a string value. -/
def asStr? : Json → Option String
  | str s => some s
  | _ => none

/-- The number of a value that is a whole number from zero on. -/
def asNat? : Json → Option Nat
  | int n => if 0 ≤ n then some n.toNat else none
  | _ => none

/-- The items of an array. -/
def asArr? : Json → Option (List Json)
  | arr items => some items
  | _ => none

/-- The members of an object. -/
def asObj? : Json → Option (List (String × Json))
  | obj members => some members
  | _ => none

/-- A member of an object. -/
def member? (v : Json) (name : String) : Option Json :=
  match v with
  | obj members => SortedByName.get? name members
  | _ => none

/-- An object of named values; of two with one name the later one counts. -/
def ofMembers (members : List (String × Json)) : Json :=
  obj (members.foldl (fun d e => SortedByName.insert e.1 e.2 d) [])

mutual

/-- Changes every value that is neither an array nor an object. -/
def mapLeaves (f : Json → Json) : Json → Json
  | arr items => arr (mapItems f items)
  | obj members => obj (mapMembers f members)
  | v => f v

/-- Changes the leaves of items. -/
def mapItems (f : Json → Json) : List Json → List Json
  | [] => []
  | v :: rest => mapLeaves f v :: mapItems f rest

/-- Changes the leaves of members. -/
def mapMembers (f : Json → Json) : List (String × Json) → List (String × Json)
  | [] => []
  | (name, v) :: rest => (name, mapLeaves f v) :: mapMembers f rest

end

end Json

end LanguageHost
