import LanguageHost.Pattern.Escape

/-!
# Sets between brackets

A set is written between brackets as characters, ranges, escapes, named sets and sets within the
set; `&&`, `--` and `~~` combine what stands on their left with what stands on their right.  The
text is read in one loop with the sets that are still open on a stack.
-/

namespace LanguageHost.Pattern

/-- The ways of combining two sets. -/
inductive SetOp where
  | inter
  | diff
  | symmDiff
  deriving Repr, DecidableEq

/-- Combines two sets. -/
def SetOp.apply : SetOp → CodeRanges → CodeRanges → CodeRanges
  | inter => CodeRanges.inter
  | diff => CodeRanges.diff
  | symmDiff => CodeRanges.symmDiff

/-- A set, and how deeply it is nested in itself. -/
structure NestedSet where
  codes : CodeRanges
  depth : Nat

/-- A set that is still open: what has been read since the last operator, and what stands on the
left of that operator. -/
structure OpenSet where
  negated : Bool
  items : List NestedSet
  pending : Option (SetOp × NestedSet)

namespace OpenSet

/-- The items since the last operator as one set. -/
def union (s : OpenSet) : NestedSet :=
  let codes := CodeRanges.normalize (s.items.flatMap NestedSet.codes)
  let depth := (s.items.map NestedSet.depth).foldl max 0
  ⟨codes, if s.items.length ≤ 1 then depth else depth + 1⟩

/-- The whole set so far. -/
def combined (f : Flags) (s : OpenSet) : NestedSet :=
  let right := s.union
  match s.pending with
  | none => right
  | some (op, left) =>
    ⟨op.apply (f.fold left.codes) (f.fold right.codes), max left.depth right.depth + 1⟩

/-- Adds an item. -/
def push (s : OpenSet) (item : NestedSet) : OpenSet := { s with items := item :: s.items }

/-- Begins the right side of an operator. -/
def operator (f : Flags) (s : OpenSet) (op : SetOp) : OpenSet :=
  { s with items := [], pending := some (op, s.combined f) }

/-- Ends the set. -/
def close? (f : Flags) (s : OpenSet) : Option NestedSet := do
  let whole := s.combined f
  return ⟨← f.finish? s.negated whole.codes, whole.depth + 1⟩

end OpenSet

/-- A character as the only one of a set. -/
def singleton? (f : Flags) (c : Char) : Option CodeRanges :=
  if !f.unicode && 128 ≤ c.toNat then none else some [(c.toNat, c.toNat)]

/-- Dashes at the front of a set, which stand for themselves. -/
def leadingDashes (f : Flags) : Nat → List Char → List NestedSet → List NestedSet × List Char
  | fuel + 1, '-' :: rest, items =>
    leadingDashes f fuel (f.skip rest) (⟨[(45, 45)], 0⟩ :: items)
  | _, cs, items => (items, cs)

/-- Opens a set after its bracket.  A closing bracket that comes first stands for itself. -/
def openSet? (f : Flags) (cs : List Char) : Option (OpenSet × List Char) :=
  let cs := f.skip cs
  let (negated, cs) := match cs with
    | '^' :: rest => (true, f.skip rest)
    | _ => (false, cs)
  let (items, cs) := leadingDashes f (cs.length + 1) cs []
  let (items, cs) : List NestedSet × List Char := match items, cs with
    | [], ']' :: rest => ([⟨[(93, 93)], 0⟩], f.skip rest)
    | _, _ => (items, cs)
  if cs.isEmpty then none else some (⟨negated, items, none⟩, cs)

/-- A named set such as `[:alpha:]`, after its opening bracket. -/
def asciiClass? (f : Flags) (cs : List Char) : Option (Option CodeRanges × List Char) :=
  match cs with
  | ':' :: rest =>
    let (negated, rest) := match rest with
      | '^' :: rest => (true, rest)
      | _ => (false, rest)
    match rest.dropWhile (· ≠ ':') with
    | ':' :: ']' :: after =>
      let name := String.ofList (rest.takeWhile (· ≠ ':'))
      (asciiClasses.find? fun e => e.1 = name).map fun e => (f.finish? negated e.2, after)
    | _ => none
  | _ => none

/-- One end of a range, or an item by itself. -/
def setItem? (f : Flags) (cs : List Char) : Option (Primitive × List Char) :=
  match cs with
  | '\\' :: rest => escape? f rest
  | c :: rest => some (.literal c false, rest)
  | [] => none

/-- An item of a set: a range, a character or an escape that stands for characters. -/
def setRange? (f : Flags) (cs : List Char) : Option (CodeRanges × List Char) := do
  let (first, rest) ← setItem? f cs
  let rest := f.skip rest
  let range := match rest with
    | '-' :: after =>
      match f.skip after with
      | ']' :: _ | '-' :: _ => none
      | cs => some cs
    | _ => none
  match range with
  | none =>
    match first with
    | .literal c _ => return (← singleton? f c, rest)
    | .set codes => return (codes, rest)
    | .anchor _ => none
  | some cs =>
    let (last, rest) ← setItem? f cs
    match first, last with
    | .literal a _, .literal b _ =>
      let _ ← singleton? f a
      let _ ← singleton? f b
      if a.toNat ≤ b.toNat then return ([(a.toNat, b.toNat)], rest) else none
    | _, _ => none

/-- The rest of the innermost open set and of those around it. -/
def setLoop? (f : Flags) : Nat → OpenSet → List OpenSet → List Char →
    Option (NestedSet × List Char)
  | 0, _, _, _ => none
  | fuel + 1, s, outer, cs => do
    match f.skip cs with
    | [] => none
    | '[' :: rest =>
      match asciiClass? f rest with
      | some (codes?, after) => setLoop? f fuel (s.push ⟨← codes?, 0⟩) outer after
      | none =>
        let (inner, rest) ← openSet? f rest
        setLoop? f fuel inner (s :: outer) rest
    | ']' :: rest =>
      let whole ← s.close? f
      match outer with
      | [] => return (whole, rest)
      | around :: outer => setLoop? f fuel (around.push whole) outer rest
    | '&' :: '&' :: rest => setLoop? f fuel (s.operator f .inter) outer rest
    | '-' :: '-' :: rest => setLoop? f fuel (s.operator f .diff) outer rest
    | '~' :: '~' :: rest => setLoop? f fuel (s.operator f .symmDiff) outer rest
    | cs =>
      let (codes, rest) ← setRange? f cs
      setLoop? f fuel (s.push ⟨codes, 0⟩) outer rest

/-- A set between brackets, after the opening one. -/
def bracket? (f : Flags) (cs : List Char) : Option (NestedSet × List Char) := do
  let (s, rest) ← openSet? f cs
  setLoop? f (rest.length + 1) s [] rest

end LanguageHost.Pattern
