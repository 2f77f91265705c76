import LanguageHost.Text.Property

/-!
# Patterns

A pattern describes stretches of a text.  Whether a text contains such a stretch is found out by
following all of them at once: a set of places in the text is a number whose bits say which places
are in it, and every pattern takes the places where stretches begin to the places where they end.

Main definitions: `Spans`, the relation that says what a pattern describes, and `occursIn`, which
decides whether a text contains a stretch of a pattern.
-/

namespace LanguageHost

/-- The edges of words. -/
inductive WordEdge where
  | boundary
  | inside
  | start
  | stop
  | startHalf
  | stopHalf
  deriving Repr, DecidableEq

/-- Conditions on a place in a text. -/
inductive Anchor where
  | textStart
  | textEnd
  /-- After a line feed; with `anyNewline` also after a carriage return that no line feed
  follows. -/
  | lineStart (anyNewline : Bool)
  /-- Before a line feed; with `anyNewline` also before a carriage return, but not between the
  two. -/
  | lineEnd (anyNewline : Bool)
  /-- An edge of a word made of the characters of a set. -/
  | wordEdge (edge : WordEdge) (word : CodeRanges)
  deriving Repr, DecidableEq

/-- A pattern. -/
inductive Pattern where
  | empty
  /-- One character of a set. -/
  | oneOf (codes : CodeRanges)
  | anchor (a : Anchor)
  | seq (p q : Pattern)
  | either (p q : Pattern)
  /-- A pattern at least and at most so many times in a row. -/
  | times (p : Pattern) (least : Nat) (most : Option Nat)
  deriving Repr, DecidableEq

namespace WordEdge

/-- Whether an edge lies between two places, told whether they belong to words. -/
def holds (edge : WordEdge) (before after : Bool) : Bool :=
  match edge with
  | boundary => before != after
  | inside => before == after
  | start => !before && after
  | stop => before && !after
  | startHalf => !before
  | stopHalf => !after

end WordEdge

namespace Anchor

/-- Whether the condition holds between two characters, where there are any. -/
def holds (a : Anchor) (before after : Option Char) : Bool :=
  match a with
  | textStart => before.isNone
  | textEnd => after.isNone
  | lineStart anyNewline =>
    before.isNone || before == some '\n'
      || (anyNewline && before == some '\r' && after != some '\n')
  | lineEnd anyNewline =>
    after.isNone || (after == some '\n' && !(anyNewline && before == some '\r'))
      || (anyNewline && after == some '\r')
  | wordEdge edge word =>
    let isWord := fun (c : Option Char) => c.any fun c => word.contains c.toNat
    edge.holds (isWord before) (isWord after)

/-- Whether the condition holds at a place of a text. -/
def holdsAt (a : Anchor) (text : Array Char) (i : Nat) : Bool :=
  a.holds (if i = 0 then none else text[i - 1]?) text[i]?

end Anchor

namespace Pattern

/-- A pattern that nothing fits. -/
def never : Pattern := oneOf []

mutual

/-- The stretches of a text that a pattern describes, each from one place to another. -/
inductive Spans (text : Array Char) : Pattern → Nat → Nat → Prop where
  | empty {i : Nat} : i ≤ text.size → Spans text .empty i i
  | oneOf {codes : CodeRanges} {i : Nat} {c : Char} :
    text[i]? = some c → codes.contains c.toNat → Spans text (.oneOf codes) i (i + 1)
  | anchor {a : Anchor} {i : Nat} : i ≤ text.size → a.holdsAt text i → Spans text (.anchor a) i i
  | seq {p q : Pattern} {i j k : Nat} :
    Spans text p i j → Spans text q j k → Spans text (.seq p q) i k
  | left {p q : Pattern} {i j : Nat} : Spans text p i j → Spans text (.either p q) i j
  | right {p q : Pattern} {i j : Nat} : Spans text q i j → Spans text (.either p q) i j
  | times {p : Pattern} {least : Nat} {most : Option Nat} {n i j : Nat} :
    least ≤ n → (∀ m, most = some m → n ≤ m) → SpansTimes text p n i j →
      Spans text (.times p least most) i j

/-- Stretches of one pattern, so many in a row. -/
inductive SpansTimes (text : Array Char) : Pattern → Nat → Nat → Nat → Prop where
  | none {p : Pattern} {i : Nat} : i ≤ text.size → SpansTimes text p 0 i i
  | more {p : Pattern} {n i j k : Nat} :
    Spans text p i j → SpansTimes text p n j k → SpansTimes text p (n + 1) i k

end

/-! ### Sets of places -/

/-- The places of a text that fulfil a condition. -/
def placesWhere (size : Nat) (f : Nat → Bool) : Nat :=
  (List.range (size + 1)).foldl (fun s i => if f i then s ||| 1 <<< i else s) 0

/-- All places of a text. -/
def allPlaces (size : Nat) : Nat := placesWhere size fun _ => true

/-- Goes on from places so many times. -/
def follow (step : Nat → Nat) : Nat → Nat → Nat
  | 0, places => places
  | n + 1, places => if places = 0 then 0 else follow step n (step places)

/-- Goes on from places up to so many times, keeping all places on the way, until nothing new is
found. -/
def followUpTo (step : Nat → Nat) : Nat → Nat → Nat
  | 0, places => places
  | n + 1, places =>
    let more := places ||| step places
    if more = places then places else followUpTo step n more

/-- The places where stretches of a pattern end that begin in one of the given places. -/
def ends (text : Array Char) : Pattern → Nat → Nat
  | empty, places => places
  | oneOf codes, places =>
    (places &&& placesWhere text.size fun i =>
      text[i]?.any fun c => codes.contains c.toNat) <<< 1
  | anchor a, places => places &&& placesWhere text.size (a.holdsAt text)
  | seq p q, places => ends text q (ends text p places)
  | either p q, places => ends text p places ||| ends text q places
  | times p least most, places =>
    let reached := follow (ends text p) least places
    match most with
    | some m => followUpTo (ends text p) (m - least) reached
    | none => followUpTo (ends text p) (text.size + 1) reached

/-- Whether a text contains a stretch of a pattern. -/
def occursIn (p : Pattern) (text : String) : Bool :=
  let cs := text.toList.toArray
  ends cs p (allPlaces cs.size) != 0

/-! ### Size -/

/-- About how many octets a set of characters takes in a compiled pattern. -/
def setWeight (codes : CodeRanges) : Nat :=
  match codes with
  | [(a, b)] => if a = b then 32 * (Char.ofNat a).utf8Size else 64
  | _ => 32 + 28 * codes.length

/-- About how many octets a compiled pattern takes. -/
def weight : Pattern → Nat
  | empty => 0
  | oneOf codes => setWeight codes
  | anchor _ => 32
  | seq p q => weight p + weight q
  | either p q => weight p + weight q + 32
  | times p least most =>
    let w := weight p
    if w = 0 then 0 else (w + 32) * max 1 (most.getD least)

end Pattern

end LanguageHost
