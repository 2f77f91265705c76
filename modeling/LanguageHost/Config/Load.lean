import LanguageHost.Config.Decode
import LanguageHost.Config.Path
import LanguageHost.Toml.Reader

/-!
# Loading a configuration

A configuration is put together in layers: the usual values, then a file, if there is one, then
variables of the environment.  Keys of tables are in lower case, and leaves are read leniently.
-/

namespace LanguageHost

/-- The formats of configuration files that are read; files of other formats are left out. -/
inductive FileFormat where
  | toml
  | json
  deriving Repr, DecidableEq

/-- A configuration file. -/
structure ConfigFile where
  format : FileFormat
  text : String
  deriving Repr, DecidableEq

/-- The ways in which loading a configuration can fail. -/
inductive LoadFailure where
  /-- The file is not of its format, or is no table. -/
  | unreadable
  /-- Some value cannot be read as what is expected in its place. -/
  | undecodable
  /-- The configuration was read and refused. -/
  | refused (e : HostError)

namespace ConfigFile

/-- A whole number that 63 bits do not hold becomes a double. -/
def narrowLeaf : Json → Json
  | .int n => if n < Word.half then .int n else .float (Decimal.nearest false n.toNat 0)
  | v => v

/-- A text without the byte order mark in front of it. -/
def dropMark (cs : List Char) : List Char :=
  match cs with
  | c :: rest => if c.toNat = 0xFEFF then rest else cs
  | [] => cs

/-- The entries of a file. -/
def entries? (f : ConfigFile) : Option (List (String × Json)) :=
  let cs := dropMark f.text.toList
  match f.format with
  | .toml => (Toml.read? cs).bind Json.asObj?
  | .json => ((Json.read? cs).map (Json.mapLeaves narrowLeaf)).bind Json.asObj?

end ConfigFile

namespace HostConfig

/-- What the names of the variables begin with that set parts of the configuration. -/
def variableStart : List Char := "polyhost__".toList

/-- A text with a dot in place of each pair of underscores. -/
def dotted : List Char → List Char
  | '_' :: '_' :: rest => '.' :: dotted rest
  | c :: rest => c :: dotted rest
  | [] => []

/-- The path that the name of a variable stands for. -/
def variablePath? (name : String) : Option String :=
  let cs := (Text.lower name).toList
  if variableStart.isPrefixOf cs then some (String.ofList (dotted (cs.drop variableStart.length)))
  else none

/-- The entries that variables of the environment set. -/
def variableEntries (environment : List (String × String)) : List (String × Json) :=
  environment.filterMap fun (name, value) =>
    (variablePath? name).map fun path => (path, .str value)

/-- A layer of entries put on a tree. -/
def layer (tree : Json) (entries : List (String × Json)) : Json :=
  entries.foldl (fun tree e => (Path.ofString e.1).set e.2 tree) tree

/-- Loads a configuration from a file and the environment and checks it.  The order in which the
variables are taken matters only where one of them sets a part of what another one sets
(`load_perm`). -/
def load (file? : Option ConfigFile) (environment : List (String × String)) :
    Except LoadFailure HostConfig := do
  let fileEntries ←
    match file? with
    | none => pure []
    | some f =>
      match f.entries? with
      | some entries => pure entries
      | none => throw .unreadable
  let tree := layer (layer (.obj []) fileEntries) (variableEntries environment)
  match Reading.lenient.config? tree with
  | none => throw .undecodable
  | some c =>
    let c := c.fillNames
    match c.validate with
    | .ok () => return c
    | .error e => throw (.refused e)

/-- The name of the variable that says where the configuration file is. -/
def fileVariable : String := "POLYHOST_CONFIG"

/-- Where the configuration file is, with or without its ending. -/
def filePath (environment : List (String × String)) : String :=
  (environment.lookup fileVariable).getD "polyhost"

/-- The files that a path may mean, in the order in which they are looked for. -/
def candidates (path : String) : List (String × FileFormat) :=
  let exact :=
    if path.endsWith ".toml" then [(path, FileFormat.toml)]
    else if path.endsWith ".json" then [(path, .json)]
    else []
  exact ++ [(path ++ ".toml", .toml), (path ++ ".json", .json)]

end HostConfig

end LanguageHost
