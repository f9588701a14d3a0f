import CommandDeck.Manifest.Document
import CommandDeck.Proofs.Json.Record
import CommandDeck.Proofs.Number.Exact

/-!
# The document of a manifest

A manifest in which every number is an integer is read back from its document, record by record: each
layout reads what the record of its kind is written as. Only the sign of a zero confidence is lost,
which does not tell two manifests apart.
-/

namespace CommandDeck

open Json RecordLayout

namespace Binary64

theorem plainZero_plainZero (x : Binary64) : x.plainZero.plainZero = x.plainZero := by
  by_cases none : x.units = 0
  · have same : x.plainZero = zero := if_pos none
    rw [same]
    exact ite_id _
  · have same : x.plainZero = x := if_neg none
    rw [same, same]

end Binary64

/-- A confidence is read back but for the sign of zero. -/
theorem reads_confidence {x : Binary64} (whole : x.IsWhole) :
    Reads 0 double (confidenceToJson x) x.plainZero := by
  obtain ⟨k, small, value⟩ := whole
  have fits : FitsNumeral (if x.negative then -(k : Int) else k) := by
    unfold FitsNumeral
    split <;> omega
  have written : confidenceToJson x = .integer (if x.negative then -(k : Int) else k) := by
    unfold confidenceToJson
    rw [Binary64.whole?_eq small value]
  rw [written, ← doubleOfInt_whole value]
  exact reads_double fits

namespace DefaultValue

/-- The value is no double. -/
def IsIntegral (d : DefaultValue) : Prop := ∀ x, d ≠ .float x

theorem plainZero_of_integral {d : DefaultValue} (integral : d.IsIntegral) : d.plainZero = d := by
  cases d with
  | float x => exact absurd rfl (integral x)
  | boolean b => rfl
  | integer i => rfl
  | string s => rfl

theorem toJson_ne_null (d : DefaultValue) : d.toJson ≠ .null := by
  cases d <;> simp [toJson]

theorem reads_of_value {d : DefaultValue} {v : Value} (h : Reads 0 value v v)
    (known : ofValue? v = some d) : Reads 0 read v d := by
  intro sp spacing depth levels enough before rest blank ends
  simp only [read, h sp spacing depth levels enough before rest blank ends, known]

theorem reads_toJson {d : DefaultValue} (integral : d.IsIntegral) : Reads 0 read d.toJson d := by
  cases d with
  | float x => exact absurd rfl (integral x)
  | boolean b => exact reads_of_value (reads_value_boolean b) rfl
  | string s => exact reads_of_value (reads_value_string s) rfl
  | integer i =>
    have low := i.le_toInt
    have high := i.toInt_lt
    have known : ofValue? (.integer i.toInt) = some (.integer i) := by
      simp only [ofValue?]
      rw [if_pos ⟨by omega, by omega⟩, Int64.ofInt_toInt]
    exact reads_of_value (reads_value_integer ⟨by omega, by omega⟩) known

end DefaultValue

namespace Placement

theorem reads_name (p : Placement) : Reads 0 (variant named) (.string p.name) p := by
  have found : (named.find? fun k => k.1 == p.name) = some (p.name, p) := by
    cases p <;> rfl
  exact reads_variant found

end Placement

namespace ArgumentType

theorem reads_name (t : ArgumentType) : Reads 0 (variant named) (.string t.name) t := by
  have found : (named.find? fun k => k.1 == t.name) = some (t.name, t) := by
    cases t <;> rfl
  exact reads_variant found

end ArgumentType

theorem keys_optionalMember {α : Type} (key : String) (toJson : α → Value) (a? : Option α) :
    ((optionalMember key toJson a?).map (·.1)).Sublist [key] := by
  cases a? with
  | none => exact List.nil_sublist [key]
  | some a => exact List.Sublist.refl [key]

/-- An optional member is put in where it is present, and a record without it stays as it is. -/
theorem puts_optional {σ α : Type} {layout : RecordLayout σ} {n : Nat} {name : String}
    {presence : Presence} {read : Reader α} {set : σ → Option α → σ} {toJson : α → Value}
    {r r' : σ} {a? b? : Option α} {ms : List (String × Value)}
    (known : (layout.members.find? fun m => m.name == name) =
      some (.of name presence (optional read) set))
    (one : Option.Rel (fun a b => Reads n read (toJson a) b) a? b?)
    (present : ∀ a, toJson a ≠ .null) (blank : set r none = r)
    (others : Puts layout n (set r b?) ms r') :
    Puts layout n r (optionalMember name toJson a? ++ ms) r' := by
  cases one with
  | none =>
    rw [blank] at others
    exact others
  | some one => exact .member known (reads_optional one (present _)) others

theorem rel_self {α : Type} {r : α → α → Prop} {a? : Option α} (each : ∀ a, a? = some a → r a a) :
    Option.Rel r a? a? := by
  cases a? with
  | none => exact .none
  | some a => exact .some (each a rfl)

theorem reads_strings (ss : List String) : Reads 1 (list string) (.array (ss.map .string)) ss :=
  reads_list (List.forall₂_map_left_iff.mpr (List.forall₂_same.mpr fun s _ => reads_string s))

/-- A list of records is read when each of them is. -/
theorem reads_records {α : Type} {n : Nat} {read : Reader α} {toJson : α → Value}
    {items kept : List α} (each : List.Forall₂ (fun a b => Reads n read (toJson a) b) items kept) :
    Reads (n + 1) (list read) (.array (items.map toJson)) kept :=
  reads_list (List.forall₂_map_left_iff.mpr each)

theorem forall₂_map {α : Type} {r : α → α → Prop} {f : α → α} {items : List α}
    (each : ∀ a ∈ items, r a (f a)) : List.Forall₂ r items (items.map f) :=
  List.forall₂_map_right_iff.mpr (List.forall₂_same.mpr each)

namespace LineRange

theorem reads_toJson (r : LineRange) : Reads 1 layout.read r.toJson r := by
  have names : ["start_line", "end_line"].Nodup := by decide
  refine reads_object ?_ names (fun _ known => known)
  refine .member rfl (reads_lineNumber r.startLine) ?_
  refine .member rfl (reads_lineNumber r.endLine) ?_
  exact .nil _

end LineRange

namespace Argument

structure IsIntegral (a : Argument) : Prop where
  default : ∀ d, a.default? = some d → d.IsIntegral
  confidence : a.confidence.IsWhole

theorem plainZero_of_integral {a : Argument} (integral : a.IsIntegral) :
    a.plainZero = { a with confidence := a.confidence.plainZero } := by
  have same : a.default?.map DefaultValue.plainZero = a.default? := by
    cases held : a.default? with
    | none => rfl
    | some d =>
      rw [Option.map_some, DefaultValue.plainZero_of_integral (integral.default d held)]
  rw [plainZero, same]

/-- An argument is read back with what its default and its confidence are read as. -/
theorem reads_of {a : Argument} {default? : Option DefaultValue} {confidence : Binary64}
    (value : Option.Rel (fun d e => Reads 0 DefaultValue.read d.toJson e) a.default? default?)
    (trust : Reads 0 double (confidenceToJson a.confidence) confidence) :
    Reads 1 layout.read a.toJson { a with default? := default?, confidence := confidence } := by
  refine reads_object ?_ ?_ ?_
  · simp only [List.append_assoc, List.cons_append, List.nil_append]
    refine .member rfl (reads_string a.name) ?_
    refine .member rfl (reads_string a.cli) ?_
    refine .member rfl (Placement.reads_name a.placement) ?_
    refine .member rfl (ArgumentType.reads_name a.type) ?_
    refine .member rfl (reads_boolean a.required) ?_
    refine puts_optional rfl value DefaultValue.toJson_ne_null rfl ?_
    refine puts_optional rfl (rel_self fun b _ => reads_boolean b) (fun _ => by simp) rfl ?_
    refine puts_optional rfl (rel_self fun s _ => reads_string s) (fun _ => by simp) rfl ?_
    refine .member rfl (reads_string a.description) ?_
    refine puts_optional rfl (rel_self fun s _ => reads_string s) (fun _ => by simp) rfl ?_
    refine .member rfl trust ?_
    exact .nil _
  · have names : (["name", "cli", "position", "type", "required"] ++ ["default"] ++ ["multiple"] ++
        ["env"] ++ ["description"] ++ ["source_parameter"] ++ ["confidence"]).Nodup := by decide
    refine names.sublist ?_
    simp only [List.map_append]
    repeat' apply List.Sublist.append
    all_goals first | exact keys_optionalMember _ _ _ | exact .refl _
  · have required : layout.required = ["name", "cli"] := rfl
    simp [required]

theorem reads_toJson {a : Argument} (integral : a.IsIntegral) :
    Reads 1 layout.read a.toJson a.plainZero := by
  rw [plainZero_of_integral integral]
  exact reads_of (rel_self fun d held => DefaultValue.reads_toJson (integral.default d held))
    (reads_confidence integral.confidence)

end Argument

namespace Command

structure IsIntegral (c : Command) : Prop where
  arguments : ∀ a ∈ c.arguments, a.IsIntegral
  confidence : c.confidence.IsWhole

/-- A command is read back with what its arguments and its confidence are read as. -/
theorem reads_of {c : Command} {arguments : List Argument} {confidence : Binary64}
    (each : List.Forall₂ (fun a b => Reads 1 Argument.layout.read a.toJson b) c.arguments arguments)
    (trust : Reads 0 double (confidenceToJson c.confidence) confidence) :
    Reads 3 layout.read c.toJson { c with arguments := arguments, confidence := confidence } := by
  have text := fun s => (reads_string s).mono (Nat.zero_le 2)
  refine reads_object ?_ ?_ ?_
  · simp only [List.cons_append, List.nil_append]
    refine .member rfl (text c.name) ?_
    refine .member rfl (text c.id) ?_
    refine .member rfl (text c.description) ?_
    refine .member rfl (text c.sourceFile) ?_
    refine puts_optional rfl (rel_self fun r _ => (LineRange.reads_toJson r).mono (by decide))
      (fun _ => by simp [LineRange.toJson]) rfl ?_
    refine .member rfl (text c.language) ?_
    refine .member rfl (text c.entrypoint) ?_
    refine .member rfl (text c.runtime) ?_
    refine .member rfl (reads_records each) ?_
    refine .member rfl (text c.returns) ?_
    refine .member rfl ((reads_boolean c.isAsync).mono (by decide)) ?_
    refine .member rfl (trust.mono (by decide)) ?_
    refine .member rfl ((reads_strings c.examples).mono (by decide)) ?_
    exact .nil _
  · have names : (["name", "id", "description", "source_file"] ++ ["source_range"] ++
        ["language", "entrypoint", "runtime", "arguments", "returns", "async", "confidence",
          "examples"]).Nodup := by decide
    refine names.sublist ?_
    simp only [List.map_append]
    repeat' apply List.Sublist.append
    all_goals first | exact keys_optionalMember _ _ _ | exact .refl _
  · have required : layout.required = ["name", "id"] := rfl
    simp [required]

theorem reads_toJson {c : Command} (integral : c.IsIntegral) :
    Reads 3 layout.read c.toJson c.plainZero :=
  reads_of (forall₂_map fun a mem => Argument.reads_toJson (integral.arguments a mem))
    (reads_confidence integral.confidence)

end Command

theorem DefaultValue.plainZero_plainZero (d : DefaultValue) :
    d.plainZero.plainZero = d.plainZero := by
  cases d with
  | float x => exact congrArg DefaultValue.float x.plainZero_plainZero
  | boolean b => rfl
  | integer i => rfl
  | string s => rfl

theorem Argument.plainZero_plainZero (a : Argument) : a.plainZero.plainZero = a.plainZero := by
  simp [plainZero, Binary64.plainZero_plainZero, Function.comp_def,
    DefaultValue.plainZero_plainZero]

theorem Command.plainZero_plainZero (c : Command) : c.plainZero.plainZero = c.plainZero := by
  simp [plainZero, Binary64.plainZero_plainZero, Function.comp_def, Argument.plainZero_plainZero]

namespace Manifest

theorem plainZero_plainZero (m : Manifest) : m.plainZero.plainZero = m.plainZero := by
  simp [plainZero, Function.comp_def, Command.plainZero_plainZero]

/-- Every confidence is a whole number and no default is a double. -/
def IsIntegral (m : Manifest) : Prop := ∀ c ∈ m.commands, c.IsIntegral

/-- A manifest is read back with what its commands are read as. -/
theorem reads_of {m : Manifest} {commands : List Command}
    (each : List.Forall₂ (fun c d => Reads 3 Command.layout.read c.toJson d) m.commands commands) :
    Reads 5 layout.read m.toJson { m with commands := commands } := by
  have text := fun s => (reads_string s).mono (Nat.zero_le 4)
  have names : ["namespace", "source", "generated_at", "language", "commands", "warnings"].Nodup := by
    decide
  have required : layout.required = ["namespace", "source", "generated_at", "language"] := rfl
  refine reads_object ?_ names (by simp [required])
  refine .member rfl (text m.namespaceName) ?_
  refine .member rfl (text m.source) ?_
  refine .member rfl (text m.generatedAt) ?_
  refine .member rfl (text m.language) ?_
  refine .member rfl (reads_records each) ?_
  refine .member rfl ((reads_strings m.warnings).mono (by decide)) ?_
  exact .nil _

theorem reads_toJson {m : Manifest} (integral : m.IsIntegral) :
    Reads 5 layout.read m.toJson m.plainZero :=
  reads_of (forall₂_map fun c mem => Command.reads_toJson (integral c mem))

/-- What the document of `m` is read as is taken or refused by its namespace alone. -/
theorem ofText_of_reads {m n : Manifest} (read : Reads 5 layout.read m.toJson n)
    {after : List Char} (blank : Blank after) (ends : Ends after) :
    ofText (m.toText ++ String.ofList after) =
      if Text.isBlankText n.namespaceName then .error .blankNamespace else .ok n := by
  have whole : readAll layout.read (m.toText ++ String.ofList after) = .ok n := by
    have value := read .indented Spacing.indented_isBlank 0 nestingLimit (by decide) [] after
      blank_nil ends
    have rest := skipSpace_blank blank []
    rw [List.append_nil] at rest
    rw [List.nil_append] at value
    rw [readAll, toText, Value.indented, ← String.ofList_append, String.toList_ofList, value]
    simp only [rest]
    rfl
  rw [ofText, whole]

theorem ofText_toText {m : Manifest} (named : Text.isBlankText m.namespaceName = false)
    (integral : m.IsIntegral) : ofText m.toText = .ok m.plainZero := by
  have text := ofText_of_reads (reads_toJson integral) blank_nil ends_nil
  rw [String.ofList_nil, String.append_empty] at text
  exact text.trans (if_neg (by rw [plainZero, named]; decide))

theorem agrees_plainZero (m : Manifest) : m.agrees m.plainZero = true :=
  decide_eq_true (plainZero_plainZero m).symm

/-- The document of a manifest under a namespace that is not blank is read as an equal manifest, as long
as its confidences are whole numbers of at most 53 bits and its defaults are no doubles. -/
theorem document_loses_nothing {m : Manifest} (named : Text.isBlankText m.namespaceName = false)
    (integral : m.IsIntegral) : ∃ n, ofText m.toText = .ok n ∧ m.agrees n = true :=
  ⟨m.plainZero, ofText_toText named integral, agrees_plainZero m⟩

/-- Characters that need an escape, the least integer and a negative zero among them. -/
theorem awkward_document_loses_nothing :
    let a : Argument := { Argument.fresh with
      name := "\"\\\n\x01é😀", default? := some (.integer Int64.minValue), env? := some "",
      confidence := Binary64.zero.withSign true }
    let c : Command := { Command.layout.blank with
      sourceRange? := some ⟨0, 4294967295⟩, arguments := [a, Argument.fresh],
      confidence := Binary64.one.withSign true, examples := ["", "\t"] }
    let m : Manifest := { Manifest.scaffold "" with commands := [c, c] }
    ∃ n, ofText m.toText = .ok n ∧ m.agrees n = true := by
  intro a c m
  have first : a.IsIntegral := by
    refine ⟨?_, Binary64.zero_isWhole true⟩
    rintro d held x rfl
    cases held
  have second : Argument.fresh.IsIntegral := by
    refine ⟨?_, Binary64.one_isWhole false⟩
    rintro d held
    cases held
  have command : c.IsIntegral := by
    refine ⟨?_, Binary64.one_isWhole true⟩
    intro b mem
    rcases List.mem_pair.mp mem with rfl | rfl
    · exact first
    · exact second
  refine document_loses_nothing (by decide) ?_
  intro d mem
  rcases List.mem_pair.mp mem with rfl | rfl
  · exact command
  · exact command

end Manifest

end CommandDeck
