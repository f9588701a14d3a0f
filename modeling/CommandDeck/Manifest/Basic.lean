import CommandDeck.Number.Binary64

/-!
# Manifests

A manifest names the commands that one source repository offers under a namespace. A command says
where it comes from, which runtime image runs it and which arguments it takes. The records here hold
what a manifest file holds, whether or not it may be published.
-/

namespace CommandDeck

/-- The lines of a command in its source file. -/
structure LineRange where
  startLine : UInt32
  endLine : UInt32
  deriving DecidableEq

/-- Whether an argument is given with a flag or by its place. -/
inductive Placement where
  | flag
  | positional
  deriving DecidableEq

/-- The declared type of an argument's value. -/
inductive ArgumentType where
  | string
  | integer
  | float
  | boolean
  | array
  | file
  deriving DecidableEq

/-- The value of an argument that is not given. -/
inductive DefaultValue where
  | boolean (b : Bool)
  | integer (i : Int64)
  | float (x : Binary64)
  | string (s : String)
  deriving DecidableEq

structure Argument where
  name : String
  cli : String
  placement : Placement
  type : ArgumentType
  required : Bool
  default? : Option DefaultValue
  multiple? : Option Bool
  env? : Option String
  description : String
  sourceParameter? : Option String
  confidence : Binary64
  deriving DecidableEq

structure Command where
  name : String
  id : String
  description : String
  sourceFile : String
  sourceRange? : Option LineRange
  language : String
  entrypoint : String
  runtime : String
  arguments : List Argument
  returns : String
  isAsync : Bool
  confidence : Binary64
  examples : List String
  deriving DecidableEq

structure Manifest where
  namespaceName : String
  source : String
  generatedAt : String
  language : String
  commands : List Command
  warnings : List String
  deriving DecidableEq

/-- What a run of a command answers with, as its `returns` tag says. -/
inductive ReturnShape where
  | json
  | file
  | text
  deriving DecidableEq

namespace ReturnShape

/-- The shape of a `returns` tag; every tag but two means plain text. -/
def ofTag (tag : String) : ReturnShape :=
  if tag = "json" then json else if tag = "file" then file else text

def name : ReturnShape → String
  | json => "json"
  | file => "file"
  | text => "text"

end ReturnShape

namespace Placement

def named : List (String × Placement) := [("flag", flag), ("positional", positional)]

def name : Placement → String
  | flag => "flag"
  | positional => "positional"

end Placement

namespace ArgumentType

def named : List (String × ArgumentType) :=
  [("string", string), ("integer", integer), ("float", float), ("boolean", boolean),
    ("array", array), ("file", file)]

def name : ArgumentType → String
  | string => "string"
  | integer => "integer"
  | float => "float"
  | boolean => "boolean"
  | array => "array"
  | file => "file"

/-- The place of a type in the list of types, from zero. -/
def number : ArgumentType → Nat
  | string => 0
  | integer => 1
  | float => 2
  | boolean => 3
  | array => 4
  | file => 5

def ofName? (s : String) : Option ArgumentType := (named.find? fun n => n.1 == s).map (·.2)

def unknownMessage (s : String) : String :=
  "Invalid argument type: " ++ s ++ ". Use: string, integer, float, boolean, array, file"

end ArgumentType

namespace Binary64

def one : Binary64 := ⟨false, 0x10000000000000, 1022, by decide, Or.inr (by decide), by decide⟩

def plainZero (x : Binary64) : Binary64 := if x.units = 0 then zero else x

end Binary64

namespace DefaultValue

def plainZero : DefaultValue → DefaultValue
  | float x => float x.plainZero
  | v => v

end DefaultValue

namespace Argument

/-- The argument that an editor appends to a command. -/
def fresh : Argument where
  name := "new_arg"
  cli := "--new-arg"
  placement := .flag
  type := .string
  required := false
  default? := none
  multiple? := none
  env? := none
  description := ""
  sourceParameter? := none
  confidence := Binary64.one

def plainZero (a : Argument) : Argument :=
  { a with default? := a.default?.map DefaultValue.plainZero, confidence := a.confidence.plainZero }

end Argument

namespace Command

def requiredArguments (c : Command) : List Argument := c.arguments.filter (·.required)

def returnShape (c : Command) : ReturnShape := ReturnShape.ofTag c.returns

def plainZero (c : Command) : Command :=
  { c with
    arguments := c.arguments.map Argument.plainZero, confidence := c.confidence.plainZero }

end Command

namespace Manifest

def command? (m : Manifest) (id : String) : Option Command := m.commands.find? fun c => c.id == id

def plainZero (m : Manifest) : Manifest := { m with commands := m.commands.map Command.plainZero }

/-- Equality that does not tell the two zeros apart. -/
def agrees (m n : Manifest) : Bool := decide (m.plainZero = n.plainZero)

/-- The empty manifest from which one is written by hand. -/
def scaffold (stamp : String) : Manifest where
  namespaceName := "new-project"
  source := "manual-entry"
  generatedAt := stamp
  language := "unknown"
  commands := []
  warnings := []

/-- The manifest with which a registry can be seeded. -/
def demo (stamp : String) : Manifest where
  namespaceName := "billing-service"
  source := "github.com/nexus/billing"
  generatedAt := stamp
  language := "python"
  commands := [
    { name := "invoice-generate"
      id := "billing-service:invoice-generate"
      description := "Generates a PDF invoice"
      sourceFile := "src/invoicing.py"
      sourceRange? := none
      language := "python"
      entrypoint := "src.invoicing:generate"
      runtime := "python:3.9-slim"
      arguments := []
      returns := "file"
      isAsync := false
      confidence := Binary64.one
      examples := [] }]
  warnings := []

end Manifest

end CommandDeck
