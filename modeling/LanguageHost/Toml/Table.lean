import LanguageHost.Json.Value

/-!
# Tables of a TOML document

A table remembers how it came about, because that decides how it may grow.  An implicit table
exists only because something below it was named: a header may still define it.  A dotted one was
named in front of the dot of a key: only such keys may add to it.
-/

namespace LanguageHost.Toml

/-- What stands under a key. -/
inductive Node where
  | value (v : Json)
  | table (implicit dotted : Bool) (members : List (String × Node))
  /-- The tables of an array, in order. -/
  | tables (items : List (List (String × Node)))

mutual

/-- The value of a node. -/
def Node.toJson : Node → Json
  | .value v => v
  | .table _ _ members => .obj (membersToJson members)
  | .tables items => .arr (itemsToJson items)

/-- The values of members, by name. -/
def membersToJson : List (String × Node) → List (String × Json)
  | [] => []
  | (name, node) :: rest => (name, node.toJson) :: membersToJson rest

/-- The values of the tables of an array. -/
def itemsToJson : List (List (String × Node)) → List Json
  | [] => []
  | members :: rest => .obj (membersToJson members) :: itemsToJson rest

end

/-- A table and how it came about. -/
structure Table where
  implicit : Bool
  dotted : Bool
  members : List (String × Node)

namespace Table

/-- A table that is defined by itself. -/
def empty : Table := ⟨false, false, []⟩

/-- The value of a table. -/
def toJson (t : Table) : Json := .obj (membersToJson t.members)

/-- The table as what stands under a key. -/
def node (t : Table) : Node := .table t.implicit t.dotted t.members

/-- Puts a node under a key. -/
def put (t : Table) (key : String) (n : Node) : Table :=
  { t with members := SortedByName.insert key n t.members }

/-- Changes the table at the end of a path, making the tables on the way that do not exist.  On the
path in front of the last dot of a key, no table may lie that a header defined. -/
def change? (dotted : Bool) (f : Table → Option Table) : List String → Table → Option Table
  | [], t => f t
  | key :: path, t =>
    match SortedByName.get? key t.members with
    | none => (change? dotted f path ⟨true, dotted, []⟩).map fun u => t.put key u.node
    | some (.table implicit wasDotted members) =>
      if dotted && !implicit then none
      else (change? dotted f path ⟨implicit, wasDotted, members⟩).map fun u => t.put key u.node
    | some (.tables items) =>
      match items.getLast? with
      | none => none
      | some members =>
        (change? dotted f path { empty with members }).map fun u =>
          t.put key (.tables (items.dropLast ++ [u.members]))
    | some (.value _) => none

/-- What stands under a key of the table at the end of a path. -/
def find? (key : String) : List String → Table → Option Node
  | [], t => SortedByName.get? key t.members
  | k :: path, t =>
    match SortedByName.get? k t.members with
    | some (.table implicit dotted members) => find? key path ⟨implicit, dotted, members⟩
    | some (.tables items) =>
      items.getLast?.bind fun members => find? key path { empty with members }
    | _ => none

/-- Adds a value under a key that is not there yet; with dots in front of the key, the table must
have been named by dots only. -/
def addValue? (t : Table) (path : List String) (key : String) (v : Json) : Option Table :=
  let add := fun (u : Table) =>
    if u.dotted = path.isEmpty ∨ (SortedByName.get? key u.members).isSome then none
    else some (u.put key (.value v))
  change? true add path t

end Table

/-- A document on the way: the finished tables, and the table whose keys are being read with the
place where it belongs. -/
structure Draft where
  root : Table
  current : Table
  path : List String
  key : Option String
  /-- Whether the current table is one of an array of tables. -/
  repeated : Bool

namespace Draft

/-- The document before its first line. -/
def start : Draft := ⟨.empty, .empty, [], none, false⟩

/-- Adds a value to the current table. -/
def addValue? (d : Draft) (path : List String) (key : String) (v : Json) : Option Draft :=
  (d.current.addValue? path key v).map fun current => { d with current }

/-- Puts the current table in its place. -/
def finish? (d : Draft) : Option Table :=
  match d.key with
  | none => some d.current
  | some key =>
    let place := fun (parent : Table) =>
      match SortedByName.get? key parent.members with
      | none =>
        some (parent.put key (if d.repeated then .tables [d.current.members] else d.current.node))
      | some (.tables items) =>
        if d.repeated then some (parent.put key (.tables (items ++ [d.current.members]))) else none
      | some (.table implicit _ _) =>
        if !d.repeated && implicit then some (parent.put key d.current.node) else none
      | some (.value _) => none
    Table.change? false place d.path d.root

/-- Begins a table with a header.  A table that exists only implicitly goes on with what it has;
any other may not be defined again. -/
def begin? (d : Draft) (path : List String) (key : String) : Option Draft := do
  let root ← Table.change? false some path (← d.finish?)
  match root.find? key path with
  | none => return ⟨root, .empty, path, some key, false⟩
  | some (.table true false members) =>
    let remove := fun (parent : Table) =>
      some { parent with members := SortedByName.erase key parent.members }
    let root ← Table.change? false remove path root
    return ⟨root, { Table.empty with members }, path, some key, false⟩
  | some _ => none

/-- Begins one more table of an array of tables. -/
def beginRepeated? (d : Draft) (path : List String) (key : String) : Option Draft := do
  let root ← Table.change? false some path (← d.finish?)
  match root.find? key path with
  | none | some (.tables _) => return ⟨root, .empty, path, some key, true⟩
  | some _ => none

end Draft

end LanguageHost.Toml
