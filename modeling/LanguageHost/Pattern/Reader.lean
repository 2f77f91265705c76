import LanguageHost.Pattern.Bracket

/-!
# Reading patterns

A pattern is read in one loop, with the groups that are still open on a stack.  Flags that are set
inside a group hold up to its end, through all of its alternatives.  A pattern is refused if it is
nested too deeply or would become too large.
-/

namespace LanguageHost.Pattern

/-- How deeply a pattern may be nested. -/
def maxDepth : Nat := 250

/-- About how many octets a compiled pattern may take. -/
def maxWeight : Nat := 10485760

/-- Why a text is no pattern. -/
inductive Refusal where
  | malformed
  | tooLarge
  deriving Repr, DecidableEq

/-- The first line of the explanation of a refusal. -/
def Refusal.message : Refusal → String
  | malformed => "regex parse error:"
  | tooLarge => "Compiled regex exceeds size limit of " ++ toString maxWeight ++ " bytes."

/-- A part of a pattern, how deeply it is nested, and whether it may be repeated. -/
structure Part where
  pattern : Pattern
  depth : Nat
  repeatable : Bool

/-- The alternatives of a group so far, and the parts of the one that is being read, each list
with the latest first. -/
structure Level where
  branches : List Part
  parts : List Part

namespace Level

/-- A group of which nothing was read. -/
def start : Level := ⟨[], []⟩

/-- Adds a part. -/
def push (l : Level) (p : Part) : Level := { l with parts := p :: l.parts }

/-- Parts one after the other. -/
def sequence : List Part → Part
  | [] => ⟨.empty, 0, true⟩
  | [p] => p
  | parts =>
    let inOrder := parts.reverse
    ⟨inOrder.foldr (fun p q => .seq p.pattern q) .empty,
      (parts.map Part.depth).foldl max 0 + 1, true⟩

/-- Begins another alternative. -/
def nextBranch (l : Level) : Level := ⟨sequence l.parts :: l.branches, []⟩

/-- All alternatives as one part. -/
def close (l : Level) : Part :=
  match l.branches with
  | [] => sequence l.parts
  | branches =>
    let all := sequence l.parts :: branches
    ⟨all.foldl (fun q p => .either p.pattern q) .never, (all.map Part.depth).foldl max 0 + 1, true⟩

end Level

/-- A pattern that is being read: the flags and parts of the innermost group, those of the groups
around it, and the names of groups. -/
structure Scan where
  flags : Flags
  level : Level
  outer : List (Flags × Level)
  names : List (List Char)

/-! ### Groups -/

/-- Letters of flags up to the end of their list; each letter and the minus sign stand once. -/
def flagList? (f : Flags) (on : Bool) (seen : List Char) :
    List Char → Option (Flags × List Char × List Char)
  | [] => none
  | c :: rest =>
    if c = ':' ∨ c = ')' then
      if seen.head? = some '-' then none else some (f, seen, c :: rest)
    else if seen.contains c then none
    else if c = '-' then flagList? f false (c :: seen) rest
    else do
      let f ← f.set? c on
      flagList? f on (c :: seen) rest

/-- Whether a character may begin the name of a group. -/
def isNameStart (c : Char) : Bool := c = '_' || Text.Property.alphabetic.contains c.toNat

/-- Whether a character may go on the name of a group. -/
def isNamePart (c : Char) : Bool :=
  ['_', '.', '[', ']'].contains c || Text.Property.alphabetic.contains c.toNat
    || ((Text.Category.find? "n").getD []).contains c.toNat

/-- The name of a group up to its closing bracket. -/
def groupName? (cs : List Char) : Option (List Char × List Char) :=
  let name := cs.takeWhile (· ≠ '>')
  match name, cs.dropWhile (· ≠ '>') with
  | c :: more, _ :: rest => if isNameStart c && more.all isNamePart then some (name, rest) else none
  | _, _ => none

namespace Scan

/-- Opens a group with flags of its own. -/
def openGroup (r : Scan) (f : Flags) : Scan :=
  { r with flags := f, level := .start, outer := (r.flags, r.level) :: r.outer }

/-- Opens a group with a name. -/
def named? (r : Scan) (cs : List Char) : Option (Scan × List Char) := do
  let (name, rest) ← groupName? cs
  if r.names.contains name then none
  else return ({ r.openGroup r.flags with names := name :: r.names }, rest)

/-- Opens a group or sets flags, after an opening parenthesis. -/
def group? (r : Scan) (cs : List Char) : Option (Scan × List Char) := do
  match r.flags.skip cs with
  | '?' :: '=' :: _ | '?' :: '!' :: _ | '?' :: '<' :: '=' :: _ | '?' :: '<' :: '!' :: _ => none
  | '?' :: 'P' :: '<' :: rest => r.named? rest
  | '?' :: '<' :: rest => r.named? rest
  | '?' :: rest =>
    let (f, seen, after) ← flagList? r.flags true [] rest
    match after with
    | ')' :: after =>
      if seen.isEmpty then none
      else return ({ r with flags := f, level := r.level.push ⟨.empty, 0, false⟩ }, after)
    | _ :: after => return (r.openGroup f, after)
    | [] => none
  | rest => return (r.openGroup r.flags, rest)

/-- Closes the innermost group. -/
def closeGroup? (r : Scan) : Option Scan :=
  match r.outer with
  | [] => none
  | (f, l) :: outer =>
    let inside := r.level.close
    some { r with
      flags := f
      level := l.push ⟨inside.pattern, inside.depth + 1, true⟩
      outer }

/-! ### Repetitions -/

/-- Repeats the last part. -/
def repeated? (r : Scan) (least : Nat) (most : Option Nat) : Option Scan :=
  match r.level.parts with
  | p :: parts =>
    if p.repeatable then
      let repeated : Part := ⟨.times p.pattern least most, p.depth + 1, true⟩
      some { r with level := { r.level with parts := repeated :: parts } }
    else none
  | [] => none

end Scan

/-- The text after a question mark, if one stands here. -/
def dropLazy (cs : List Char) : List Char :=
  match cs with
  | '?' :: rest => rest
  | _ => cs

/-- Digits of a count. -/
def countDigits (f : Flags) : Nat → List Char → List Char × List Char
  | fuel + 1, c :: rest =>
    if c.isDigit then
      let (ds, after) := countDigits f fuel (f.skip rest)
      (c :: ds, after)
    else ([], c :: rest)
  | _, cs => ([], cs)

/-- A count of 32 bits with blanks around it; nothing for no digits. -/
def count? (f : Flags) (cs : List Char) : Option (Option Nat × List Char) :=
  let cs := Text.dropBlanks cs
  let (ds, rest) := countDigits f (cs.length + 1) cs
  let rest := f.skip (Text.dropBlanks rest)
  if ds.isEmpty then some (none, rest)
  else
    let n := Json.natOfDigits ds
    if n < UInt32.size then some (some n, rest) else none

/-- The bounds of a repetition, after an opening brace. -/
def bounds? (f : Flags) (cs : List Char) : Option ((Nat × Option Nat) × List Char) := do
  let (least, rest) ← count? f (f.skip cs)
  let least ← least
  match rest with
  | ',' :: rest =>
    match f.skip rest with
    | '\x7d' :: rest => return ((least, none), rest)
    | rest =>
      let (most, rest) ← count? f rest
      let most ← most
      match rest with
      | '\x7d' :: rest => if least ≤ most then return ((least, some most), rest) else none
      | _ => none
  | '\x7d' :: rest => return ((least, some least), rest)
  | _ => none

namespace Scan

/-! ### Parts -/

/-- Adds what nothing else is in. -/
def primitive? (r : Scan) (p : Primitive) : Option Scan := do
  let f := r.flags
  let pattern ←
    match p with
    | .literal c octet =>
      if !f.unicode && octet && 128 ≤ c.toNat then none
      else if f.unicode || c.toNat < 128 then some (.oneOf (f.fold [(c.toNat, c.toNat)]))
      else some (.oneOf [(c.toNat, c.toNat)])
    | .set codes => some (.oneOf codes)
    | .anchor a => some (.anchor a)
  return { r with level := r.level.push ⟨pattern, 0, true⟩ }

/-- Reads one part, group mark or repetition. -/
def step? (r : Scan) (cs : List Char) : Option (Scan × List Char) := do
  let f := r.flags
  match cs with
  | [] => none
  | '(' :: rest => r.group? rest
  | ')' :: rest => return (← r.closeGroup?, rest)
  | '|' :: rest => return ({ r with level := r.level.nextBranch }, rest)
  | '[' :: rest =>
    let (s, rest) ← bracket? f rest
    return ({ r with level := r.level.push ⟨.oneOf s.codes, s.depth, true⟩ }, rest)
  | '?' :: rest => return (← r.repeated? 0 (some 1), dropLazy rest)
  | '*' :: rest => return (← r.repeated? 0 none, dropLazy rest)
  | '+' :: rest => return (← r.repeated? 1 none, dropLazy rest)
  | '\x7b' :: rest =>
    let ((least, most), rest) ← bounds? f rest
    return (← r.repeated? least most, dropLazy (f.skip rest))
  | '\\' :: rest =>
    let (p, rest) ← escape? f rest
    return (← r.primitive? p, rest)
  | '.' :: rest => return (← r.primitive? (.set (← f.dot?)), rest)
  | '^' :: rest =>
    let a := if f.multiLine then .lineStart f.anyNewline else .textStart
    return (← r.primitive? (.anchor a), rest)
  | '$' :: rest =>
    let a := if f.multiLine then .lineEnd f.anyNewline else .textEnd
    return (← r.primitive? (.anchor a), rest)
  | c :: rest => return (← r.primitive? (.literal c false), rest)

/-- Reads the rest of a pattern; every turn uses up at least one character. -/
def finish? : Nat → Scan → List Char → Option Part
  | 0, _, _ => none
  | fuel + 1, r, cs =>
    match r.flags.skip cs with
    | [] => if r.outer.isEmpty then some r.level.close else none
    | cs => do
      let (r, rest) ← r.step? cs
      finish? fuel r rest

end Scan

/-- The pattern that a text spells. -/
def read (text : String) : Except Refusal Pattern :=
  let cs := text.toList
  match Scan.finish? (cs.length + 1) ⟨.usual, .start, [], []⟩ cs with
  | none => .error .malformed
  | some p =>
    if maxDepth < p.depth then .error .malformed
    else if maxWeight < p.pattern.weight then .error .tooLarge
    else .ok p.pattern

end LanguageHost.Pattern
