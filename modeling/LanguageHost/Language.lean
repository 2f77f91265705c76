import LanguageHost.Error
import LanguageHost.Text.Blank
import LanguageHost.Text.Quoted

/-!
# Interpreted languages

The languages that the host can run by starting an interpreter, and the program that calls one
function of a script: the script, followed by a line that decodes the arguments from the
environment, applies the function and prints the result.

The function must be a plain name, or several joined by dots, so that nothing else of a
program can be smuggled in through it.
-/

namespace LanguageHost

/-- A language with an interpreter. -/
inductive Language where
  | python
  | javascript
  | ruby
  | php
  deriving DecidableEq, Repr, Inhabited

namespace Language

/-- The name under which a runtime of the language is registered. -/
def name : Language → String
  | python => "python"
  | javascript => "javascript"
  | ruby => "ruby"
  | php => "php"

/-- The language of a name; some names are other names of a language. -/
def ofName? (name : String) : Option Language :=
  if name = "python" then some python
  else if name = "javascript" ∨ name = "js" ∨ name = "node" then some javascript
  else if name = "ruby" then some ruby
  else if name = "php" then some php
  else none

/-- The interpreter's command. -/
def command : Language → String
  | python => "python3"
  | javascript => "node"
  | ruby => "ruby"
  | php => "php"

/-- The arguments that make the interpreter read its program from its input. -/
def arguments : Language → List String
  | python => ["-u", "-"]
  | javascript => ["-"]
  | ruby => ["-"]
  | php => []

/-- The ending of the names of source files. -/
def extension : Language → String
  | python => "py"
  | javascript => "js"
  | ruby => "rb"
  | php => "php"

end Language

/-- The environment variable that carries the arguments of a call. -/
def argsVariable : String := "POLYHOST_ARGS"

/-! ### Function names -/

/-- Whether a character may begin a plain name. -/
def isNameStart (c : Char) : Bool := c.isAlpha || c = '_'

/-- Whether a character may go on a plain name. -/
def isNamePart (c : Char) : Bool := c.isAlphanum || c = '_'

/-- Whether characters are a plain name. -/
def isPlainName : List Char → Bool
  | [] => false
  | c :: rest => isNameStart c && rest.all isNamePart

/-- The parts of a text between dots. -/
def dotParts : List Char → List (List Char)
  | [] => [[]]
  | c :: rest =>
    if c = '.' then [] :: dotParts rest
    else
      match dotParts rest with
      | [] => [[c]]
      | part :: parts => (c :: part) :: parts

/-- Whether a text is a plain name or several joined by dots. -/
def isFunctionName (s : String) : Bool := (dotParts s.toList).all isPlainName

/-! ### Call programs -/

/-- The text before and after the script in a program that calls a function. -/
structure Envelope where
  before : String
  after : String
  deriving Repr, DecidableEq

namespace Language

/-- What stands around the script in a program that calls a function. -/
def envelope (language : Language) (function : String) : Envelope :=
  match language with
  | python =>
    ⟨"",
      "\nimport json as _ph_json, os as _ph_os\n_ph_result = " ++ function
        ++ "(*_ph_json.loads(_ph_os.environ[\"" ++ argsVariable
        ++ "\"]))\nprint(_ph_json.dumps(_ph_result))\n"⟩
  | javascript =>
    ⟨"",
      "\nconst __phResult = " ++ function ++ "(...JSON.parse(process.env." ++ argsVariable
        ++ "));\nconsole.log(JSON.stringify(__phResult === undefined ? null : __phResult));\n"⟩
  | ruby =>
    ⟨"require 'json'\n",
      "\nputs((" ++ function ++ "(*JSON.parse(ENV['" ++ argsVariable ++ "']))).to_json)\n"⟩
  | php =>
    ⟨"<?php\n",
      "\necho json_encode(" ++ function ++ "(...json_decode(getenv('" ++ argsVariable
        ++ "'), true))), \"\\n\";\n"⟩

/-- The characters that open a script in a page of text. -/
def openTag : List Char := ['<', '?', 'p', 'h', 'p']

/-- Text without an opening tag at its front. -/
def dropOpenTag (cs : List Char) : List Char :=
  if openTag.isPrefixOf cs then cs.drop openTag.length else cs

/-- The script as it stands in a program: of a PHP script the blanks in front of it and an opening
tag are left out, since the program has an opening tag of its own. -/
def body (language : Language) (script : String) : String :=
  match language with
  | php => String.ofList (dropOpenTag (Text.dropBlanks script.toList))
  | _ => script

/-- The program that applies a function of a script to the arguments in the environment and
prints the result. -/
def callProgram (language : Language) (script function : String) : Outcome String :=
  if isFunctionName function then
    let e := language.envelope function
    .ok (e.before ++ language.body script ++ e.after)
  else
    .error (.executionFailed language.name ("invalid function name: " ++ Text.quote function))

end Language

end LanguageHost
