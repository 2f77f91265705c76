import LanguageHost.Dict

/-!
# Files of a machine

The part of a machine's file system that a host can come across: some directories and some text
files.  A path is read from the root or from the directory that the host works in.
-/

namespace LanguageHost

/-- Directories, and the texts of files, by their full paths. -/
structure Files where
  /-- The directory that relative paths start from. -/
  here : List String
  directories : List (List String)
  texts : List (List String × String)

/-- What there is under a path. -/
inductive FileEntry where
  | directory (path : List String)
  | text (s : String)

namespace Files

/-- The messages of the operating system. -/
def missing : String := "No such file or directory (os error 2)"

/-- The message for a file where a directory was meant. -/
def notDirectory : String := "Not a directory (os error 20)"

/-- The message for a directory where a file was meant. -/
def isDirectory : String := "Is a directory (os error 21)"

/-- The message for a path with a zero character. -/
def zeroInPath : String := "file name contained an unexpected NUL byte"

/-- The files that every machine has. -/
def usual : Files :=
  { here := []
    directories := [[], ["etc"], ["tmp"], ["usr"], ["var"], ["dev"], ["proc"], ["home"]]
    texts := [(["etc", "passwd"], ""), (["dev", "null"], "")] }

/-- Adds a text file. -/
def add (f : Files) (path : List String) (text : String) : Files :=
  { f with texts := (path, text) :: f.texts }

/-- The text of a file. -/
def text? (f : Files) (path : List String) : Option String :=
  (f.texts.find? fun e => e.1 = path).map Prod.snd

/-- Follows the steps of a path from a directory; every directory on the way must be there. -/
def walk (f : Files) : List String → List String → Except String FileEntry
  | path, [] => if f.directories.contains path then .ok (.directory path) else .error missing
  | path, name :: rest =>
    if !f.directories.contains path then .error missing
    else if name = "" ∨ name = "." then f.walk path rest
    else if name = ".." then f.walk path.dropLast rest
    else
      match f.text? (path ++ [name]) with
      | some text => if rest.isEmpty then .ok (.text text) else .error notDirectory
      | none => f.walk (path ++ [name]) rest

/-- What there is under the path of a text. -/
def find (f : Files) (path : String) : Except String FileEntry :=
  if path.isEmpty then .error missing
  else f.walk (if path.startsWith "/" then [] else f.here) (path.splitOn "/")

/-- Reads a text file. -/
def read (f : Files) (path : String) : Except String String :=
  if path.contains (Char.ofNat 0) then .error zeroInPath
  else
    match f.find path with
    | .ok (.text s) => .ok s
    | .ok (.directory _) => .error isDirectory
    | .error e => .error e

/-- Goes into a directory. -/
def enter (f : Files) (path : String) : Except String (List String) :=
  match f.find path with
  | .ok (.directory path) => .ok path
  | .ok (.text _) => .error notDirectory
  | .error e => .error e

/-- The text of a full path. -/
def render (path : List String) : String :=
  if path.isEmpty then "/" else String.join (path.map ("/" ++ ·))

end Files

end LanguageHost
