import LanguageHost.Json.Value
import LanguageHost.Text.Lowercase
import LanguageHost.Word

/-!
# Paths into a configuration

A path names a place in a tree of tables and arrays: a key, and then keys after dots and indices
between brackets.  Setting a place makes whatever is missing on the way there.  Where a table is
set, its keys are merged into what is there, and the names of merged keys are put in lower case.
-/

namespace LanguageHost

/-- One step of a path. -/
inductive PathStep where
  | child (name : String)
  /-- Items are counted from the end if the index is negative. -/
  | item (index : Int)
  deriving Repr, DecidableEq

/-- A place in a tree of tables and arrays. -/
structure Path where
  head : String
  steps : List PathStep
  deriving Repr, DecidableEq

namespace Path

/-! ### Reading paths -/

/-- Whether a character may stand in a key of a path. -/
def isKeyChar (c : Char) : Bool := c.isAlphanum || c = ' ' || c = '_' || c = '-'

/-- A key at the front of a text. -/
def key? (cs : List Char) : Option (String × List Char) :=
  match cs.takeWhile isKeyChar with
  | [] => none
  | name => some (String.ofList name, cs.dropWhile isKeyChar)

/-- The text after blanks. -/
def skipBlanks (cs : List Char) : List Char := cs.dropWhile fun c => c = ' ' || c = '\t'

/-- An index of 64 bits between brackets, after the opening one. -/
def index? (cs : List Char) : Option (Int × List Char) :=
  let cs := skipBlanks cs
  let (negative, cs) := match cs with
    | '-' :: rest => (true, rest)
    | _ => (false, cs)
  let ds := cs.takeWhile Char.isDigit
  let k : Int := ds.foldl (fun n c => n * 10 + (c.toNat - '0'.toNat)) 0
  let n := if negative then -k else k
  match skipBlanks (cs.dropWhile Char.isDigit) with
  | ']' :: rest =>
    if ds ≠ [] ∧ -(Word.half : Int) ≤ n ∧ n < Word.half then some (n, rest) else none
  | _ => none

/-- The steps of a whole text. -/
def steps? : Nat → List Char → Option (List PathStep)
  | _, [] => some []
  | 0, _ => none
  | fuel + 1, '.' :: rest => do
    let (name, rest) ← key? rest
    return .child name :: (← steps? fuel rest)
  | fuel + 1, '[' :: rest => do
    let (index, rest) ← index? rest
    return .item index :: (← steps? fuel rest)
  | _, _ => none

/-- The path that a text spells. -/
def parse? (s : String) : Option Path := do
  let (head, rest) ← key? s.toList
  return ⟨head, ← steps? rest.length rest⟩

/-- The path that a text spells, or the text as a single key. -/
def ofString (s : String) : Path := (parse? s).getD ⟨s, []⟩

/-! ### Setting a place -/

mutual

/-- Puts a value under a key of a table; anything that is no table is replaced by one. -/
def setKey (key : String) (v : Json) (table : Json) : Json :=
  let members := table.asObj?.getD []
  let name := Text.lower key
  match v with
  | .obj incoming =>
    let target := (SortedByName.get? name members).getD (.obj [])
    .obj (SortedByName.insert name (mergeKeys incoming target) members)
  | v => .obj (SortedByName.insert name v members)

/-- Puts the members of a table into another one. -/
def mergeKeys : List (String × Json) → Json → Json
  | [], target => target
  | (key, v) :: rest, target => mergeKeys rest (setKey key v target)

end

/-- Changes what stands under a key, nothing standing there at first. -/
def changeChild (name : String) (f : Json → Json) (table : Json) : Json :=
  let members := table.asObj?.getD []
  .obj (SortedByName.insert name (f ((SortedByName.get? name members).getD .null)) members)

/-- Changes the item at an index of an array, which is made long enough. -/
def changeItem (index : Int) (f : Json → Json) (array : Json) : Json :=
  let items := array.asArr?.getD []
  let i := if 0 ≤ index then index.toNat else items.length - index.natAbs
  let items := items ++ List.replicate (i + 1 - items.length) .null
  .arr (items.modify i f)

/-- Sets the place at the end of steps. -/
def setSteps (v : Json) : List PathStep → Json → Json
  | [], _ => v
  | [.child name], tree => setKey name v tree
  | .child name :: rest, tree => changeChild name (setSteps v rest) tree
  | .item index :: rest, tree => changeItem index (setSteps v rest) tree

/-- Sets the place of a path in a table. -/
def set (p : Path) (v : Json) (tree : Json) : Json :=
  match p.steps with
  | [] => setKey p.head v tree
  | steps => changeChild p.head (setSteps v steps) tree

end Path

end LanguageHost
