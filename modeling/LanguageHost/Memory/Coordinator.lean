import LanguageHost.Config.Basic
import LanguageHost.Memory.Region
import LanguageHost.Word

/-!
# The coordinator of the shared memory

A coordinator hands out regions by name, within a budget of octets for all of them together.
Whoever uses a region declares it first, by name or through a guard, and a region can only be
freed when nobody has declared a use.  Freeing takes a region out of the table; whoever still
holds it keeps that very region, even when its name is used again.

Regions are objects with an identity, their place in the list of all regions that were ever made.
-/

namespace LanguageHost

/-- The identity of a region. -/
abbrev RegionRef := Nat

/-- The two ways of using a region. -/
inductive Access where
  | read
  | write
  deriving Repr, DecidableEq

/-- The declared use of a region that ends when the guard is dropped. -/
structure Guard where
  region : RegionRef
  access : Access
  deriving Repr, DecidableEq

/-- Where the regions are mapped: how many octets may be mapped at once. -/
structure AddressSpace where
  size : Nat
  deriving Repr, DecidableEq

namespace AddressSpace

/-- The addresses of 47 bits. -/
def usual : AddressSpace := ⟨0x800000000000⟩

/-- The text of a failure to map memory when there is none. -/
def exhausted : String := "Cannot allocate memory (os error 12)"

/-- The text of a failure to map more memory than a signed length can say. -/
def tooLong : String := "memory map length overflows isize"

/-- Why a size cannot be mapped beside what is mapped already. -/
def fault? (space : AddressSpace) (mapped : Nat) (size : UInt64) : Option String :=
  if Word.half ≤ size.toNat then some tooLong
  else if space.size < mapped + size.toNat then some exhausted
  else none

end AddressSpace

/-- What a coordinator reports about itself. -/
structure MemoryStats where
  regions : Nat
  usage : UInt64
  limit : UInt64
  /-- The usage divided by the limit. -/
  utilization : Float

/-- The coordinator of the shared memory. -/
structure Coordinator where
  settings : MemorySettings
  space : AddressSpace
  /-- All regions that were ever made. -/
  made : Array Region
  /-- The regions that can be found by name. -/
  table : Dict RegionRef
  usage : UInt64

namespace Coordinator

/-- A coordinator without regions. -/
def new (settings : MemorySettings) (space : AddressSpace) : Coordinator :=
  { settings, space, made := #[], table := Dict.empty, usage := 0 }

/-- The usage with a size added, as far as 64 bits go. -/
def saturatingAdd (a b : UInt64) : UInt64 := (min (a.toNat + b.toNat) Word.largest).toUInt64

/-- A region. -/
def region? (c : Coordinator) (ref : RegionRef) : Option Region := c.made[ref]?

/-- Changes a region. -/
def changeRegion (c : Coordinator) (ref : RegionRef) (f : Region → Region) : Coordinator :=
  { c with made := c.made.modify ref f }

/-- The coordinator with one more region, which has a name. -/
def withRegion (c : Coordinator) (id : String) (size : UInt64) (element : ElementType) :
    Coordinator :=
  { c with
    made := c.made.push (.new id size element)
    table := c.table.insert id c.made.size
    usage := c.usage + size }

/-- The coordinator in which the name of a region is free again. -/
def withoutName (c : Coordinator) (id : String) (r : Region) : Coordinator :=
  { c with table := c.table.erase id, usage := c.usage - r.size }

/-- Makes a region whose octets are all zero. -/
def allocate (c : Coordinator) (id : String) (size : UInt64) (element : ElementType) :
    Outcome RegionRef × Coordinator :=
  if c.table.contains id then (.error (.regionExists id), c)
  else if c.settings.limit < saturatingAdd c.usage size then
    (.error (.memoryLimitExceeded size c.usage c.settings.limit), c)
  else
    match c.space.fault? c.usage.toNat size with
    | some reason => (.error (.io ("failed to map region " ++ id ++ ": " ++ reason)), c)
    | none => (.ok c.made.size, c.withRegion id size element)

/-- The region of a name. -/
def get (c : Coordinator) (id : String) : Outcome RegionRef :=
  match c.table.get? id with
  | some ref => .ok ref
  | none => .error (.regionNotFound id)

/-- The region of a name with its identity. -/
def find (c : Coordinator) (id : String) : Outcome (RegionRef × Region) :=
  match (c.table.get? id).bind fun ref => (c.region? ref).map fun r => (ref, r) with
  | some found => .ok found
  | none => .error (.regionNotFound id)

/-- Takes a region that nobody uses out of the table. -/
def free (c : Coordinator) (id : String) : Outcome Unit × Coordinator :=
  match c.find id with
  | .error e => (.error e, c)
  | .ok (_, r) =>
    if 0 < r.readers ∨ 0 < r.writers then
      (.error (.regionBusy id r.readers.toNat r.writers.toNat), c)
    else (.ok (), c.withoutName id r)

/-- Why a region cannot be used in a way. -/
def refusal? (rule : AccessRule) (access : Access) (id : String) (r : Region) : Option HostError :=
  match access with
  | .read =>
    if rule = .exclusive ∧ 0 < r.writers then some (.writerConflict id) else none
  | .write =>
    if 0 < r.writers then some (.writerConflict id)
    else if rule = .exclusive ∧ 0 < r.readers then some (.regionBusy id r.readers.toNat 0)
    else none

/-- Counts one more use of a region.  After the largest word a counter begins again at zero. -/
def declared (access : Access) (r : Region) : Region :=
  match access with
  | .read => { r with readers := r.readers + 1 }
  | .write => { r with writers := r.writers + 1 }

/-- A counter less one.  One that is zero is left alone: it would begin again at the largest
word. -/
def lowered (counter : UInt64) : UInt64 := if counter = 0 then counter else counter - 1

/-- Counts one use of a region less; nothing changes if there is none. -/
def withdrawn (access : Access) (r : Region) : Region :=
  match access with
  | .read => { r with readers := lowered r.readers }
  | .write => { r with writers := lowered r.writers }

/-- Declares a use of the region of a name. -/
def acquire (c : Coordinator) (access : Access) (id : String) : Outcome RegionRef × Coordinator :=
  match c.find id with
  | .error e => (.error e, c)
  | .ok (ref, r) =>
    match refusal? c.settings.rule access id r with
    | some e => (.error e, c)
    | none => (.ok ref, c.changeRegion ref (declared access))

/-- Withdraws a use of a region. -/
def withdraw (c : Coordinator) (access : Access) (ref : RegionRef) : Coordinator :=
  c.changeRegion ref (withdrawn access)

/-- Withdraws a use of the region that has a name now. -/
def release (c : Coordinator) (access : Access) (id : String) : Outcome Unit × Coordinator :=
  match c.get id with
  | .error e => (.error e, c)
  | .ok ref => (.ok (), c.withdraw access ref)

/-- Declares a use of the region of a name for as long as a guard lives. -/
def guard (c : Coordinator) (access : Access) (id : String) : Outcome Guard × Coordinator :=
  match c.acquire access id with
  | (.ok ref, c) => (.ok ⟨ref, access⟩, c)
  | (.error e, c) => (.error e, c)

/-- Drops a guard. -/
def drop (c : Coordinator) (g : Guard) : Coordinator := c.withdraw g.access g.region

/-- Writes octets into a region, if they fit. -/
def put? (c : Coordinator) (ref : RegionRef) (place : Nat) (octets : List UInt8) :
    Option Coordinator := do
  let r ← c.region? ref
  let r ← r.put? place octets
  return c.changeRegion ref fun _ => r

/-- The names of the regions, in order. -/
def ids (c : Coordinator) : List String := SortedByName.sortedNames c.table.entries

/-- What the coordinator reports about itself. -/
def stats (c : Coordinator) : MemoryStats :=
  let limit := c.settings.limit
  { regions := c.table.size
    usage := c.usage
    limit
    utilization := if limit = 0 then 0 else c.usage.toFloat / limit.toFloat }

end Coordinator

end LanguageHost
