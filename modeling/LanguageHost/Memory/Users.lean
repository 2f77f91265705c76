import LanguageHost.Memory.Coordinator

/-!
# Those who use the shared memory

A coordinator together with those who use its regions.  Some hold guards, which concern one region
for as long as they live.  Others declare a use by name and withdraw it by name later; what they
reach is the region that has the name at the time.

`MemoryUsers.step` is total and gives `none` for an event that is not possible, such as dropping a
guard twice; an operation that the coordinator refuses is possible and changes nothing.  What was
declared and withdrawn by name is kept, for each region and each way of using it.
-/

namespace LanguageHost

/-- What may happen to the shared memory. -/
inductive MemoryEvent where
  | allocate (id : String) (size : UInt64) (element : ElementType)
  | free (id : String)
  /-- A use of the region of a name is declared. -/
  | acquire (access : Access) (id : String)
  /-- A use of the region of a name is withdrawn. -/
  | release (access : Access) (id : String)
  /-- A guard for the region of a name is asked for. -/
  | guard (access : Access) (id : String)
  /-- A guard is dropped. -/
  | drop (n : Nat)
  /-- Octets are written through a guard. -/
  | write (n : Nat) (place : Nat) (octets : List UInt8)
  /-- Octets are written by somebody who just has the region. -/
  | put (ref : RegionRef) (place : Nat) (octets : List UInt8)

/-- A coordinator and those who use it. -/
structure MemoryUsers where
  coordinator : Coordinator
  /-- The guards that are alive with their numbers, the latest first. -/
  guards : List (Nat × Guard)
  /-- How many guards there were. -/
  opened : Nat
  /-- All uses that were declared by name, the latest first. -/
  declarations : List (RegionRef × Access)
  /-- All uses that were withdrawn by name, the latest first. -/
  withdrawals : List (RegionRef × Access)

namespace MemoryUsers

/-- A coordinator that nobody uses. -/
def start (c : Coordinator) : MemoryUsers :=
  { coordinator := c, guards := [], opened := 0, declarations := [], withdrawals := [] }

/-- The guard of a number, as long as it is alive. -/
def guard? (u : MemoryUsers) (n : Nat) : Option Guard :=
  (u.guards.find? fun g => g.1 = n).map Prod.snd

/-- What an event does, if it is possible. -/
def step (u : MemoryUsers) : MemoryEvent → Option MemoryUsers
  | .allocate id size element =>
    some { u with coordinator := (u.coordinator.allocate id size element).2 }
  | .free id => some { u with coordinator := (u.coordinator.free id).2 }
  | .acquire access id =>
    match u.coordinator.acquire access id with
    | (.ok ref, coordinator) =>
      some { u with coordinator, declarations := (ref, access) :: u.declarations }
    | (.error _, coordinator) => some { u with coordinator }
  | .release access id =>
    let coordinator := (u.coordinator.release access id).2
    match u.coordinator.get id with
    | .ok ref => some { u with coordinator, withdrawals := (ref, access) :: u.withdrawals }
    | .error _ => some { u with coordinator }
  | .guard access id =>
    match u.coordinator.guard access id with
    | (.ok g, coordinator) =>
      some { u with coordinator, guards := (u.opened, g) :: u.guards, opened := u.opened + 1 }
    | (.error _, coordinator) => some { u with coordinator }
  | .drop n =>
    (u.guard? n).map fun g =>
      { u with
        coordinator := u.coordinator.drop g
        guards := u.guards.filter fun g => g.1 ≠ n }
  | .write n place octets =>
    match u.guard? n with
    | some ⟨ref, .write⟩ =>
      (u.coordinator.put? ref place octets).map fun coordinator => { u with coordinator }
    | _ => none
  | .put ref place octets =>
    (u.coordinator.put? ref place octets).map fun coordinator => { u with coordinator }

/-- Plays events as far as they are possible. -/
def run (u : MemoryUsers) : List MemoryEvent → Option MemoryUsers
  | [] => some u
  | e :: rest => (u.step e).bind fun u => u.run rest

/-- The same users where so much can be mapped now. -/
def inSpace (u : MemoryUsers) (space : AddressSpace) : MemoryUsers :=
  { u with coordinator := { u.coordinator with space } }

/-- Tries an event where so much can be mapped now; one that is not possible changes nothing. -/
def attempt (u : MemoryUsers) (x : AddressSpace × MemoryEvent) : MemoryUsers :=
  ((u.inSpace x.1).step x.2).getD (u.inSpace x.1)

/-- Tries events one after the other, while it may change how much can be mapped. -/
def attempts (u : MemoryUsers) (xs : List (AddressSpace × MemoryEvent)) : MemoryUsers :=
  xs.foldl attempt u

end MemoryUsers

end LanguageHost
