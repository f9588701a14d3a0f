import CommandDeck.Proofs.Json.NumberValue
import CommandDeck.Proofs.Json.RecordPart
import CommandDeck.Proofs.Manifest.MemberOrder

/-!
# Integer defaults

A default that is written as an integer in the document of a manifest is the same integer in the document
that the manifest is written as, when it fits 64 bits with the sign. Otherwise it is a double, and what
is written is the text of that double.
-/

namespace CommandDeck

open Json RecordLayout

namespace Argument

theorem owns_default : layout.Owns "default" (optional DefaultValue.read) (·.default?) :=
  owns_at 5 rfl (by decide) members_commute fun _ _ => rfl

theorem mem_default {a : Argument} {d : DefaultValue} (present : a.default? = some d) :
    ∃ members, a.toJson = .object members ∧ ("default", d.toJson) ∈ members := by
  refine ⟨_, rfl, ?_⟩
  simp [present, optionalMember]

end Argument

namespace Command

theorem owns_arguments : layout.Owns "arguments" (list Argument.layout.read) (·.arguments) :=
  owns_at 8 rfl (by decide) members_commute fun _ _ => rfl

theorem mem_arguments (c : Command) :
    ∃ members, c.toJson = .object members ∧
      ("arguments", .array (c.arguments.map Argument.toJson)) ∈ members := by
  refine ⟨_, rfl, ?_⟩
  simp

end Command

namespace Manifest

theorem owns_commands : layout.Owns "commands" (list Command.layout.read) (·.commands) :=
  owns_at 4 rfl (by decide) members_commute fun _ _ => rfl

theorem mem_commands (m : Manifest) :
    ∃ members, m.toJson = .object members ∧
      ("commands", .array (m.commands.map Command.toJson)) ∈ members := by
  refine ⟨_, rfl, ?_⟩
  simp

/-- In the tree of a manifest argument `j` of command `i` has the default `v`. -/
def DefaultAt (i j : Nat) (v t : Tree) : Prop :=
  ∃ c a, layout.HoldsItem "commands" i c t ∧ Command.layout.HoldsItem "arguments" j a c ∧
    Argument.layout.Holds "default" v a

theorem decode_of_ofText {text : String} {m : Manifest} (accepted : ofText text = .ok m) {t : Tree}
    (spelled : t.Spelled text) : decode layout.read t = some m := by
  rw [← toOption_eq_some, toOption_ofText spelled] at accepted
  obtain ⟨m', made, named⟩ := Option.bind_eq_some_iff.mp accepted
  split at named
  · cases named
  · rw [made, named]

/-- The default that stands in a tree is what its tree is read as. -/
theorem exists_default {m : Manifest} {t v : Tree} {i j : Nat} (made : decode layout.read t = some m)
    (stands : DefaultAt i j v t) (present : v ≠ .scalar .null) :
    ∃ c a d, m.commands[i]? = some c ∧ c.arguments[j]? = some a ∧ a.default? = some d ∧
      decode DefaultValue.read v = some d := by
  obtain ⟨command, argument, inManifest, inCommand, inArgument⟩ := stands
  rw [decode_record (fun m mem => (members_follow m mem).toReadsTrees) (by decide)] at made
  obtain ⟨c, place, made⟩ :=
    owns_commands.held_item Command.follows.toReadsTrees (by decide) made inManifest
  rw [decode_record (fun m mem => (Command.members_follow m mem).toReadsTrees) (by decide)] at made
  obtain ⟨a, place', made⟩ :=
    Command.owns_arguments.held_item Argument.follows.toReadsTrees (by decide) made inCommand
  rw [decode_record (fun m mem => (Argument.members_follow m mem).toReadsTrees) (by decide)] at made
  have value := Argument.owns_default.held made inArgument
  rw [DefaultValue.readBy_read.readsTrees.decode_optional, optionalValue_of_ne present] at value
  obtain ⟨d, read, held⟩ := Option.map_eq_some_iff.mp value
  exact ⟨c, a, d, place, place', held.symm, read⟩

/-- A default stands in the tree that its manifest is written as. -/
theorem defaultAt_tree {m : Manifest} {c : Command} {a : Argument} {d : DefaultValue} {i j : Nat}
    (place : m.commands[i]? = some c) (place' : c.arguments[j]? = some a)
    (held : a.default? = some d) : DefaultAt i j d.toJson.tree m.toJson.tree := by
  obtain ⟨inManifest, whole, commands⟩ := m.mem_commands
  obtain ⟨inCommand, whole', arguments⟩ := c.mem_arguments
  obtain ⟨inArgument, whole'', value⟩ := Argument.mem_default held
  refine ⟨c.toJson.tree, a.toJson.tree, ?_, ?_, ?_⟩
  · rw [whole]
    exact holdsItem_tree commands (by rw [List.getElem?_map, place, Option.map_some])
  · rw [whole']
    exact holdsItem_tree arguments (by rw [List.getElem?_map, place', Option.map_some])
  · rw [whole'']
    exact holds_tree value

end Manifest

/-! ### The number -/

theorem Binary64.magnitude_minus_zero :
    NumberLayout.document.magnitude (zero.withSign true) = ['0', '.', '0'] := by
  decide +kernel

theorem number?_minus_zero :
    (Scalar.number true (.ofDouble (Binary64.zero.withSign true))).number? = some 0 := by
  have none : decimalValue ['0', '.', '0'] = (0 : Nat) * 10 ^ (-1 : Int) :=
    decimalValue_eq (by decide) (by decide)
  simp only [Scalar.number?, Unsigned.ofDouble, Binary64.magnitude_minus_zero, none]
  simp

theorem number?_integer (i : Int) :
    (Scalar.number (decide (i < 0)) (.ofNat i.natAbs)).number? = some (i : ℚ) := by
  rw [number?_digits fun _ => NumberLayout.isDigit_of_mem_digits, signedValue, Unsigned.ofNat,
    NumberLayout.ofDigitChars_digits]
  congr 2
  simp only [decide_eq_true_eq]
  split <;> omega

namespace DefaultValue

variable {negative : Bool} {u : Unsigned} {d : DefaultValue}

theorem decode_number : decode read (.scalar (.number negative u)) =
    (u.value? negative).bind fun m => ofValue? (.ofNumeral m) :=
  Denotes.decode_eq readBy_read.denotes (Nat.zero_le _) _

theorem decode_double : decode double (.scalar (.number negative u)) =
    (u.value? negative).bind doubleOf := by
  rw [through_double.decode_eq, Denotes.decode_eq (readBy_numeral "f64").denotes (Nat.zero_le _)]
  change ((u.value? negative).bind some).bind doubleOf = _
  rw [Option.bind_fun_some]

/-- What an integer literal is read as: the integer, minus zero, or a double for an integer that does
not fit. -/
theorem literal_cases (whole : WholeDigits u.text)
    (made : decode read (.scalar (.number negative u)) = some d) :
    (FitsSigned (signedValue negative u.text) ∧
      d = .integer (Int64.ofInt (signedValue negative u.text))) ∨
    (signedValue negative u.text = 0 ∧ d = .float (Binary64.zero.withSign true)) ∨
    (¬ FitsSigned (signedValue negative u.text) ∧
      ∃ x, d = .float x ∧ decode double (.scalar (.number negative u)) = some x) := by
  rw [decode_number] at made
  rw [decode_double]
  obtain ⟨m, value, kept⟩ := Option.bind_eq_some_iff.mp made
  rw [value]
  cases m with
  | integer i =>
    obtain rfl := integer_of_value? whole value
    simp only [Value.ofNumeral, ofValue?] at kept
    generalize signedValue negative u.text = n at kept value
    by_cases fits : FitsSigned n
    · have range : -0x8000000000000000 ≤ n ∧ n ≤ 0x7FFFFFFFFFFFFFFF := ⟨fits.1, by have := fits.2; omega⟩
      rw [if_pos range] at kept
      exact .inl ⟨fits, (Option.some.inj kept).symm⟩
    · have range : ¬ (-0x8000000000000000 ≤ n ∧ n ≤ 0x7FFFFFFFFFFFFFFF) := by
        intro range
        exact fits ⟨range.1, by omega⟩
      rw [if_neg range] at kept
      exact .inr (.inr ⟨fits, _, (Option.some.inj kept).symm, rfl⟩)
  | float x =>
    obtain rfl : DefaultValue.float x = d := Option.some.inj kept
    by_cases fits : FitsSigned (signedValue negative u.text)
    · obtain ⟨zero, rfl⟩ := double_of_value? whole value fits
      exact .inr (.inl ⟨zero, rfl⟩)
    · exact .inr (.inr ⟨fits, x, rfl, rfl⟩)

/-- What the default of an integer literal is written as: a number that denotes the integer when it fits,
and otherwise the text of the double that the literal is read as. -/
theorem written_literal (whole : WholeDigits u.text)
    (made : decode read (.scalar (.number negative u)) = some d) :
    ∃ s, d.toJson.tree = .scalar s ∧
      (FitsSigned (signedValue negative u.text) →
        s.number? = some (signedValue negative u.text : ℚ)) ∧
      (¬ FitsSigned (signedValue negative u.text) →
        ∃ x, decode double (.scalar (.number negative u)) = some x ∧
          s.text = NumberLayout.document.write x) := by
  rcases literal_cases whole made with ⟨fits, rfl⟩ | ⟨zero, rfl⟩ | ⟨far, x, rfl, read⟩
  · have same : (Int64.ofInt (signedValue negative u.text)).toInt = signedValue negative u.text :=
      Int64.toInt_ofInt_of_le fits.1 fits.2
    refine ⟨_, rfl, fun _ => ?_, fun far => absurd fits far⟩
    rw [same]
    exact number?_integer _
  · have fits : FitsSigned (signedValue negative u.text) := by
      rw [zero]
      decide
    refine ⟨_, rfl, fun _ => ?_, fun far => absurd fits far⟩
    rw [zero, Int.cast_zero]
    exact number?_minus_zero
  · exact ⟨_, rfl, fun fits => absurd fits far, fun _ => ⟨x, read, text_float x⟩⟩

end DefaultValue

namespace Manifest

/-- An integer default of any size in a document that is accepted: when it fits 64 bits with the sign, the
number that is written for it denotes the same integer, and otherwise the text of the double is written
that it is read as. -/
theorem integer_defaults_kept {text : String} {m : Manifest} (accepted : ofText text = .ok m) {t : Tree}
    (spelled : t.Spelled text) {i j : Nat} {negative : Bool} {u : Unsigned} (whole : WholeDigits u.text)
    (stands : DefaultAt i j (.scalar (.number negative u)) t) :
    ∃ (t' : Tree) (s : Scalar), t'.Spelled m.toText ∧ DefaultAt i j (.scalar s) t' ∧
      (FitsSigned (signedValue negative u.text) →
        s.number? = some (signedValue negative u.text : ℚ)) ∧
      (¬ FitsSigned (signedValue negative u.text) →
        ∃ x, decode double (.scalar (.number negative u)) = some x ∧
          s.text = NumberLayout.document.write x) := by
  obtain ⟨c, a, d, place, place', held, read⟩ :=
    exists_default (decode_of_ofText accepted spelled) stands nofun
  obtain ⟨s, scalar, written⟩ := DefaultValue.written_literal whole read
  refine ⟨m.toJson.tree, s, spelled_indented m.toJson, ?_, written⟩
  rw [← scalar]
  exact defaultAt_tree place place' held

/-- A document with one command that has these arguments. -/
def documentOf (arguments : List Tree) : Tree :=
  let word (s : String) : Tree := .scalar (.string (.of s))
  let command : Tree := .object [(.of "name", word "a"), (.of "id", word "ops:a"),
    (.of "arguments", .array arguments)]
  .object [(.of "namespace", word "ops"), (.of "source", word "s"), (.of "generated_at", word "now"),
    (.of "language", word "bash"), (.of "commands", .array [command])]

theorem exists_ofText {t : Tree} (made : ((decode layout.read t).bind fun m =>
    if Text.isBlankText m.namespaceName then none else some m).isSome) :
    ∃ m, ofText t.compact = .ok m := by
  obtain ⟨m, made⟩ := Option.isSome_iff_exists.mp made
  exact ⟨m, toOption_eq_some.mp ((toOption_ofText t.spelled).trans made)⟩

theorem defaultAt_documentOf {arguments : List Tree} {j : Nat} {a v : Tree}
    (place : arguments[j]? = some a) (held : Argument.layout.Holds "default" v a) :
    DefaultAt 0 j v (documentOf arguments) :=
  ⟨_, a, ⟨_, .member (List.mem_of_getElem? (i := 4) rfl) (Quoted.content?_of "commands"), rfl⟩,
    ⟨_, .member (List.mem_of_getElem? (i := 2) rfl) (Quoted.content?_of "arguments"), place⟩, held⟩

/-- The least integer of 64 bits and the first that is too great, the one in an object and the other in
its place in an array. -/
theorem limit_defaults_kept :
    let word (s : String) : Tree := .scalar (.string (.of s))
    let least : Scalar := .number true (.ofNat 0x8000000000000000)
    let great : Scalar := .number false (.ofNat 0x8000000000000000)
    let first : Tree := .object [(.of "default", .scalar least), (.of "name", word "a"),
      (.of "cli", word "--a")]
    let second : Tree := .array [word "b", word "--b", word "flag", word "integer",
      .scalar (.boolean false), .scalar great, .scalar .null, .scalar .null, word "",
      .scalar .null]
    ∃ m, ofText (documentOf [first, second]).compact = .ok m ∧
      (∃ (t' : Tree) (s : Scalar), t'.Spelled m.toText ∧ DefaultAt 0 0 (.scalar s) t' ∧
        s.number? = some (-0x8000000000000000)) ∧
      ∃ (t' : Tree) (s : Scalar) (x : Binary64), t'.Spelled m.toText ∧ DefaultAt 0 1 (.scalar s) t' ∧
        decode double (.scalar great) = some x ∧ s.text = NumberLayout.document.write x := by
  intro word least great first second
  obtain ⟨m, accepted⟩ : ∃ m, ofText (documentOf [first, second]).compact = .ok m :=
    exists_ofText (by decide +kernel)
  have object : DefaultAt 0 0 (.scalar least) (documentOf [first, second]) :=
    defaultAt_documentOf rfl (.member (by simp) (Quoted.content?_of "default"))
  have array : DefaultAt 0 1 (.scalar great) (documentOf [first, second]) :=
    defaultAt_documentOf rfl (.place (k := 5) rfl rfl)
  have whole := wholeDigits_digits 0x8000000000000000
  have value : signedValue true (Unsigned.ofNat 0x8000000000000000).text = -0x8000000000000000 := by
    decide +kernel
  have value' : signedValue false (Unsigned.ofNat 0x8000000000000000).text = 0x8000000000000000 := by
    decide +kernel
  obtain ⟨t', s, spelled, stands, same, -⟩ :=
    integer_defaults_kept accepted (documentOf [first, second]).spelled whole object
  obtain ⟨t'', s', spelled', stands', -, rounded⟩ :=
    integer_defaults_kept accepted (documentOf [first, second]).spelled whole array
  rw [value] at same
  rw [value'] at rounded
  obtain ⟨x, read, text⟩ := rounded (by decide)
  refine ⟨m, accepted, ⟨t', s, spelled, stands, ?_⟩, t'', s', x, spelled', stands', read, text⟩
  have number := same (by decide)
  exact_mod_cast number

/-- The first integer that is too great is accepted as a default, and the number that is written for it
denotes another integer. -/
theorem great_integer_default_is_rounded :
    let great : Scalar := .number false (.ofNat 9223372036854775808)
    let a : Tree := .object [(.of "name", .scalar (.string (.of "a"))),
      (.of "cli", .scalar (.string (.of "--a"))), (.of "default", .scalar great)]
    ∃ (m : Manifest) (s : Scalar), ofText (documentOf [a]).compact = .ok m ∧
      DefaultAt 0 0 (.scalar great) (documentOf [a]) ∧ great.number? = some 9223372036854775808 ∧
      m.toJson.tree.Spelled m.toText ∧ DefaultAt 0 0 (.scalar s) m.toJson.tree ∧
      s.number? = some 9223372036854776000 := by
  intro great a
  let x : Binary64 := ⟨false, 0x10000000000000, 1085, by decide, .inr (by decide), by decide⟩
  obtain ⟨m, accepted⟩ : ∃ m, ofText (documentOf [a]).compact = .ok m :=
    exists_ofText (by decide +kernel)
  have stands : DefaultAt 0 0 (.scalar great) (documentOf [a]) :=
    defaultAt_documentOf rfl (.member (by simp) (Quoted.content?_of "default"))
  obtain ⟨c, a', d, place, place', held, read⟩ :=
    exists_default (decode_of_ofText accepted (documentOf [a]).spelled) stands (by simp [great])
  have rounded : decode DefaultValue.read (.scalar great) = some (.float x) := by decide +kernel
  obtain rfl : .float x = d := Option.some.inj (rounded.symm.trans read)
  have text : NumberLayout.document.magnitude x = "9.223372036854776e+18".toList := by decide +kernel
  have number : decimalValue "9.223372036854776e+18".toList = (9223372036854776 : Nat) * 10 ^ (3 : Int) :=
    decimalValue_eq (by decide) (by decide)
  refine ⟨m, .number x.negative (.ofDouble x), accepted, stands, ?_, spelled_indented _,
    defaultAt_tree place place' held, ?_⟩
  · have whole := @number?_digits false (.ofNat 9223372036854775808)
      (wholeDigits_digits 9223372036854775808).digits
    have value : signedValue false (Unsigned.ofNat 9223372036854775808).text = 9223372036854775808 := by
      decide +kernel
    rw [value] at whole
    exact_mod_cast whole
  · simp only [Scalar.number?, Unsigned.ofDouble, text, number]
    norm_num [x]

end Manifest

end CommandDeck
