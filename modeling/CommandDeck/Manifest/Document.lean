import CommandDeck.Json.Document
import CommandDeck.Json.Record
import CommandDeck.Manifest.Basic
import CommandDeck.Text.Blank

/-!
# Manifest documents

Manifests as JSON. The members of each record are written in the order of its layout, and the five
optional ones only where they are present. A confidence that is a whole number is written as an
integer. The document of a manifest must name a namespace that is not blank.
-/

namespace CommandDeck

open Json

namespace LineRange

def layout : RecordLayout LineRange where
  title := "struct SourceRange"
  members := [
    .of "start_line" .required lineNumber fun r n => { r with startLine := n },
    .of "end_line" .required lineNumber fun r n => { r with endLine := n }]
  blank := ⟨0, 0⟩

def toJson (r : LineRange) : Value :=
  .object [("start_line", .integer r.startLine.toNat), ("end_line", .integer r.endLine.toNat)]

end LineRange

namespace DefaultValue

/-- Integers have at most 64 bits with the sign; any other number is a double. -/
def ofValue? : Json.Value → Option DefaultValue
  | .boolean b => some (.boolean b)
  | .integer i =>
    if -0x8000000000000000 ≤ i ∧ i ≤ 0x7FFFFFFFFFFFFFFF then some (.integer (Int64.ofInt i))
    else some (.float (doubleOfInt i))
  | .float x => some (.float x)
  | .string s => some (.string s)
  | _ => none

/-- A default is any boolean, number or string. -/
def read : Reader DefaultValue := fun levels s =>
  match value levels s with
  | .error e => .error e
  | .ok (v, rest) =>
    match ofValue? v with
    | some d => .ok (d, rest)
    | none => .error (.noVariant "DefaultValue")

def toJson : DefaultValue → Value
  | boolean b => .boolean b
  | integer i => .integer i.toInt
  | float x => .float x
  | string s => .string s

end DefaultValue

/-- A confidence as it is written: whole numbers without a point. -/
def confidenceToJson (x : Binary64) : Value :=
  match x.whole? with
  | some i => .integer i
  | none => .float x

/-- The member `key`, if there is a value for it. -/
def optionalMember {α : Type} (key : String) (toJson : α → Value) (a? : Option α) :
    List (String × Value) :=
  match a? with
  | some a => [(key, toJson a)]
  | none => []

namespace Argument

def layout : RecordLayout Argument where
  title := "struct Argument"
  members := [
    .of "name" .required string fun a s => { a with name := s },
    .of "cli" .required string fun a s => { a with cli := s },
    .of "position" .defaulted (variant Placement.named) fun a p => { a with placement := p },
    .of "type" .defaulted (variant ArgumentType.named) fun a t => { a with type := t },
    .of "required" .defaulted boolean fun a b => { a with required := b },
    .of "default" .optional (optional DefaultValue.read) fun a d => { a with default? := d },
    .of "multiple" .optional (optional boolean) fun a b => { a with multiple? := b },
    .of "env" .optional (optional string) fun a s => { a with env? := s },
    .of "description" .defaulted string fun a s => { a with description := s },
    .of "source_parameter" .optional (optional string) fun a s =>
      { a with sourceParameter? := s },
    .of "confidence" .defaulted double fun a x => { a with confidence := x }]
  blank :=
    { name := "", cli := "", placement := .flag, type := .string, required := false,
      default? := none, multiple? := none, env? := none, description := "",
      sourceParameter? := none, confidence := Binary64.zero }

def toJson (a : Argument) : Value :=
  .object ([
    ("name", .string a.name),
    ("cli", .string a.cli),
    ("position", .string a.placement.name),
    ("type", .string a.type.name),
    ("required", .boolean a.required)] ++
    optionalMember "default" DefaultValue.toJson a.default? ++
    optionalMember "multiple" .boolean a.multiple? ++
    optionalMember "env" .string a.env? ++
    [("description", .string a.description)] ++
    optionalMember "source_parameter" .string a.sourceParameter? ++
    [("confidence", confidenceToJson a.confidence)])

end Argument

namespace Command

def layout : RecordLayout Command where
  title := "struct Command"
  members := [
    .of "name" .required string fun c s => { c with name := s },
    .of "id" .required string fun c s => { c with id := s },
    .of "description" .defaulted string fun c s => { c with description := s },
    .of "source_file" .defaulted string fun c s => { c with sourceFile := s },
    .of "source_range" .optional (optional LineRange.layout.read) fun c r =>
      { c with sourceRange? := r },
    .of "language" .defaulted string fun c s => { c with language := s },
    .of "entrypoint" .defaulted string fun c s => { c with entrypoint := s },
    .of "runtime" .defaulted string fun c s => { c with runtime := s },
    .of "arguments" .defaulted (list Argument.layout.read) fun c as => { c with arguments := as },
    .of "returns" .defaulted string fun c s => { c with returns := s },
    .of "async" .defaulted boolean fun c b => { c with isAsync := b },
    .of "confidence" .defaulted double fun c x => { c with confidence := x },
    .of "examples" .defaulted (list string) fun c es => { c with examples := es }]
  blank :=
    { name := "", id := "", description := "", sourceFile := "", sourceRange? := none,
      language := "", entrypoint := "", runtime := "", arguments := [], returns := "",
      isAsync := false, confidence := Binary64.zero, examples := [] }

def toJson (c : Command) : Value :=
  .object ([
    ("name", .string c.name),
    ("id", .string c.id),
    ("description", .string c.description),
    ("source_file", .string c.sourceFile)] ++
    optionalMember "source_range" LineRange.toJson c.sourceRange? ++ [
    ("language", .string c.language),
    ("entrypoint", .string c.entrypoint),
    ("runtime", .string c.runtime),
    ("arguments", .array (c.arguments.map Argument.toJson)),
    ("returns", .string c.returns),
    ("async", .boolean c.isAsync),
    ("confidence", confidenceToJson c.confidence),
    ("examples", .array (c.examples.map .string))])

end Command

/-- Why a text is no manifest that can be used. -/
inductive ManifestTextError where
  | parse (fault : ReadError)
  | blankNamespace

namespace ManifestTextError

def message : ManifestTextError → String
  | parse fault => "Failed to parse manifest: " ++ fault.message
  | blankNamespace => "Invalid manifest: namespace must not be empty"

end ManifestTextError

namespace Manifest

def layout : RecordLayout Manifest where
  title := "struct Manifest"
  members := [
    .of "namespace" .required string fun m s => { m with namespaceName := s },
    .of "source" .required string fun m s => { m with source := s },
    .of "generated_at" .required string fun m s => { m with generatedAt := s },
    .of "language" .required string fun m s => { m with language := s },
    .of "commands" .defaulted (list Command.layout.read) fun m cs => { m with commands := cs },
    .of "warnings" .defaulted (list string) fun m ws => { m with warnings := ws }]
  blank :=
    { namespaceName := "", source := "", generatedAt := "", language := "", commands := [],
      warnings := [] }

def toJson (m : Manifest) : Value :=
  .object [
    ("namespace", .string m.namespaceName),
    ("source", .string m.source),
    ("generated_at", .string m.generatedAt),
    ("language", .string m.language),
    ("commands", .array (m.commands.map Command.toJson)),
    ("warnings", .array (m.warnings.map .string))]

/-- The document of a manifest, one member a line. -/
def toText (m : Manifest) : String := m.toJson.indented

def ofText (text : String) : Except ManifestTextError Manifest :=
  match readAll layout.read text with
  | .error fault => .error (.parse fault)
  | .ok m => if Text.isBlankText m.namespaceName then .error .blankNamespace else .ok m

end Manifest

end CommandDeck
