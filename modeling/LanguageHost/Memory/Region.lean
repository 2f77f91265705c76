import LanguageHost.Text.Quoted

/-!
# Shared regions

A region is a buffer of octets with a fixed size and a declared type of its elements, together
with the counters of its declared readers and writers, which are words.  Its contents are kept as
the list of what was written, the latest first: an octet is the one that was written last in its
place, and zero where nothing was written.

Main facts: `octet_put` (what a write changes) and `contents_length`.
-/

namespace LanguageHost

/-- The declared type of the elements of a region. -/
inductive ElementType where
  | bytes
  | int32
  | int64
  | float32
  | float64
  | text
  | record
  deriving Repr, DecidableEq, Inhabited

namespace ElementType

/-- All types with their names. -/
def names : List (String × ElementType) :=
  [("bytes", bytes), ("int32", int32), ("int64", int64), ("float32", float32),
    ("float64", float64), ("string", text), ("struct", record)]

/-- The type of a name. -/
def ofName? (name : String) : Option ElementType := (names.find? fun e => e.1 = name).map Prod.snd

/-- The name of a type. -/
def name : ElementType → String
  | bytes => "bytes"
  | int32 => "int32"
  | int64 => "int64"
  | float32 => "float32"
  | float64 => "float64"
  | text => "string"
  | record => "struct"

/-- The name of a type in a description. -/
def title : ElementType → String
  | bytes => "Bytes"
  | int32 => "Int32"
  | int64 => "Int64"
  | float32 => "Float32"
  | float64 => "Float64"
  | text => "String"
  | record => "Struct"

/-- How many octets an element has, if all have equally many. -/
def width? : ElementType → Option Nat
  | bytes => some 1
  | int32 | float32 => some 4
  | int64 | float64 => some 8
  | text | record => none

end ElementType

/-- Octets that were written from a place on. -/
structure Patch where
  place : Nat
  octets : List UInt8
  deriving Repr, DecidableEq

namespace Patch

/-- The octet that was written in a place. -/
def octet? (p : Patch) (i : Nat) : Option UInt8 :=
  if p.place ≤ i then p.octets[i - p.place]? else none

end Patch

/-- The octet that was written last in a place. -/
def lastWritten (patches : List Patch) (i : Nat) : UInt8 :=
  (patches.findSome? fun p => p.octet? i).getD 0

/-- A shared region. -/
structure Region where
  id : String
  size : UInt64
  element : ElementType
  /-- What was written, the latest first. -/
  patches : List Patch
  readers : UInt64
  writers : UInt64
  deriving Repr, DecidableEq

namespace Region

/-- A region in which nothing was written and that nobody uses. -/
def new (id : String) (size : UInt64) (element : ElementType) : Region :=
  { id, size, element, patches := [], readers := 0, writers := 0 }

/-- The octet in a place. -/
def octet (r : Region) (i : Nat) : UInt8 := lastWritten r.patches i

/-- All octets. -/
def contents (r : Region) : List UInt8 := (List.range r.size.toNat).map r.octet

/-- Writes octets from a place on, if they fit. -/
def put? (r : Region) (place : Nat) (octets : List UInt8) : Option Region :=
  if place + octets.length ≤ r.size.toNat then
    some { r with patches := ⟨place, octets⟩ :: r.patches }
  else none

/-- A description of the region. -/
def describe (r : Region) : String :=
  "MemoryRegion \x7b id: " ++ Text.quote r.id ++ ", size: " ++ toString r.size ++ ", memory_type: "
    ++ r.element.title ++ ", readers: " ++ toString r.readers ++ ", writers: "
    ++ toString r.writers ++ " \x7d"

@[simp] theorem contents_length (r : Region) : r.contents.length = r.size.toNat := by
  simp [contents]

/-- A write changes the octets of its places and no other. -/
theorem octet_put {r r' : Region} {place : Nat} {octets : List UInt8}
    (h : r.put? place octets = some r') (i : Nat) :
    r'.octet i =
      if place ≤ i then (octets[i - place]?).getD (r.octet i) else r.octet i := by
  unfold put? at h
  split at h
  · cases h
    simp only [octet, lastWritten, List.findSome?_cons, Patch.octet?]
    by_cases hp : place ≤ i
    · simp only [hp, if_true]
      cases octets[i - place]? <;> rfl
    · simp [hp]
  · cases h

end Region

end LanguageHost
