import CommandDeck.Manifest.Edit
import CommandDeck.Proofs.Manifest.Rules

/-!
# What an edit does to the report

The report on a manifest holds at a place what is violated there, one command after the other. An edit
maps the commands and keeps their ids, so it is enough to compare the violations of one command before
and after: the edit of a command leaves the places of its arguments alone, the edit of an argument
touches the two places of this argument, an argument that is added breaks no rule, and one that is taken
away moves the places of the later ones down by one.
-/

namespace CommandDeck

namespace Report

theorem violationsAt_append (p : Place) (fs gs : List Finding) :
    violationsAt p (fs ++ gs) = violationsAt p fs ++ violationsAt p gs := by
  simp [violationsAt]

/-- Violations found at one place stand at that place only. -/
theorem violationsAt_map (p q : Place) (vs : List Violation) :
    violationsAt p (vs.map fun v => (q, v)) = if q = p then vs else [] := by
  by_cases here : q = p <;> simp [violationsAt, here, List.filter_map, Function.comp_def]

theorem violationsAt_eq_nil {p : Place} {fs : List Finding} (absent : ∀ v, (p, v) ∉ fs) :
    violationsAt p fs = [] :=
  List.eq_nil_iff_forall_not_mem.mpr fun v mem => absent v (mem_violationsAt.mp mem)

end Report

open Report (violationsAt violationsAt_append violationsAt_map violationsAt_eq_nil)

namespace Argument

/-- What is wrong with a field of the argument. -/
def violations (a : Argument) : ArgumentField → List Violation
  | .cli => (formViolation isFlag .flagMissing .flagForm a.cli).toList
  | .name => (formViolation isArgumentName .argumentNameMissing .argumentNameForm a.name).toList

theorem violationsAt_findings (a : Argument) (id : String) (index : Nat) (i : String) (k : Nat)
    (f : ArgumentField) :
    violationsAt (.argument i k f) (a.findings id index) =
      if id = i ∧ index = k then a.violations f else [] := by
  rw [findings, violationsAt_append, violationsAt_map, violationsAt_map]
  by_cases here : id = i ∧ index = k
  · obtain ⟨rfl, rfl⟩ := here
    cases f <;> simp [violations]
  · have other : ∀ g, Place.argument id index g ≠ .argument i k f := by
      intro g same
      cases same
      exact here ⟨rfl, rfl⟩
    rw [if_neg (other .cli), if_neg (other .name), if_neg here, List.nil_append]

theorem violations_fresh (f : ArgumentField) : fresh.violations f = [] := by
  cases f <;> decide

end Argument

namespace Command

/-- What is wrong with a field of the argument at `k`, if there is one. -/
def violationsOf (c : Command) (k : Nat) (f : ArgumentField) : List Violation :=
  (c.arguments[k]?.map (·.violations f)).getD []

theorem violationsAt_argumentFindings (id : String) (index : Nat) (as : List Argument) (i : String)
    (k : Nat) (f : ArgumentField) :
    violationsAt (.argument i k f) (argumentFindings id index as) =
      if id = i ∧ index ≤ k then (as[k - index]?.map (·.violations f)).getD [] else [] := by
  induction as generalizing index with
  | nil => simp [argumentFindings, violationsAt]
  | cons a rest ih =>
    rw [argumentFindings, violationsAt_append, a.violationsAt_findings, ih]
    by_cases same : id = i
    · rcases Nat.lt_trichotomy index k with before | rfl | after
      · have next : k - index = k - (index + 1) + 1 := by omega
        simp [same, Nat.succ_le_of_lt before, next, Nat.ne_of_lt before, Nat.le_of_lt before]
      · simp [same]
      · simp [same, Nat.ne_of_gt after, Nat.not_le_of_gt after,
          Nat.not_le_of_gt (Nat.lt_succ_of_lt after)]
    · simp [same]

theorem violationsAt_argument (c : Command) (id : String) (k : Nat) (f : ArgumentField) :
    violationsAt (.argument id k f) c.findings = if c.id = id then c.violationsOf k f else [] := by
  have own : ∀ v, (Place.argument id k f, v) ∉
      ((formViolation isKebabName .nameMissing .nameForm c.name).toList.map
        fun v => (Place.command c.id .name, v)) ++
      (if Text.isBlankText c.runtime then [(Place.command c.id .runtime, .runtimeMissing)] else []) := by
    intro v
    split <;> simp
  rw [findings, violationsAt_append, violationsAt_eq_nil own, List.nil_append,
    violationsAt_argumentFindings]
  simp [violationsOf]

/-- At the places of a command nothing counts but its id, its name and its runtime. -/
theorem violationsAt_command_congr {c d : Command} (id : c.id = d.id) (name : c.name = d.name)
    (runtime : c.runtime = d.runtime) (i : String) (f : CommandField) :
    violationsAt (.command i f) c.findings = violationsAt (.command i f) d.findings := by
  have none : ∀ c : Command,
      violationsAt (.command i f) (argumentFindings c.id 0 c.arguments) = [] := by
    intro c
    refine violationsAt_eq_nil fun v mem => ?_
    obtain ⟨k, a, _, found⟩ := (mem_argumentFindings c.id _ v 0 c.arguments).mp mem
    rcases (mem_argument_findings c.id _ v _ a).mp found with ⟨same, _⟩ | ⟨same, _⟩ <;> cases same
  rw [findings, findings, violationsAt_append _ _ (argumentFindings _ _ _), none,
    violationsAt_append _ _ (argumentFindings _ _ _), none, id, name, runtime]

theorem violationsAt_of_other {c : Command} {p : Place} (other : p.commandId ≠ c.id) :
    violationsAt p c.findings = [] :=
  violationsAt_eq_nil fun _ mem => other ((c.mem_findings_iff p _).mp mem).commandId

theorem violationsAt_id (c : Command) (id : String) :
    violationsAt (.command id .id) c.findings = [] :=
  violationsAt_eq_nil fun v => id_place_not_mem_findings id v c

end Command

/-- The change leaves every command its id. -/
def Command.KeepsId (f : Command → Command) : Prop := ∀ c, (f c).id = c.id

theorem CommandPatch.apply_keepsId (p : CommandPatch) : Command.KeepsId p.apply := fun _ => rfl

theorem Command.arguments_keepsId (g : List Argument → List Argument) :
    KeepsId fun c => { c with arguments := g c.arguments } := fun _ => rfl

namespace Manifest

open Command (KeepsId arguments_keepsId)

/-- Commands that keep their ids and have at `p` the violations that they had at `q` are found to violate
at `p` what they were found to violate at `q`. -/
theorem violationsAt_findingsAfter_map {f : Command → Command} (ids : KeepsId f)
    {p q : Place} (marks : ∀ id, Place.command id .id = p ↔ Place.command id .id = q)
    {cs : List Command}
    (own : ∀ c ∈ cs, violationsAt p (f c).findings = violationsAt q c.findings)
    (seen : List String) :
    violationsAt p (findingsAfter seen (cs.map f)) = violationsAt q (findingsAfter seen cs) := by
  induction cs generalizing seen with
  | nil => rfl
  | cons c rest ih =>
    obtain ⟨first, others⟩ := List.forall_mem_cons.mp own
    have mark : violationsAt p [(.command c.id .id, .idRepeated)] =
        violationsAt q [(.command c.id .id, .idRepeated)] := by
      simp only [violationsAt, List.filter_singleton, marks c.id]
    simp only [List.map_cons, findingsAfter, violationsAt_append, ids c, first, ih others]
    split
    · rw [mark]
    · rfl

theorem get?_validate_of_commands {m n : Manifest} {f : Command → Command}
    (edited : n.commands = m.commands.map f) (ids : KeepsId f) {p q : Place}
    (marks : ∀ id, Place.command id .id = p ↔ Place.command id .id = q)
    (own : ∀ c ∈ m.commands, violationsAt p (f c).findings = violationsAt q c.findings) :
    n.validate.get? p = m.validate.get? q := by
  rw [validate, validate, Report.get?_ofFindings, Report.get?_ofFindings, edited,
    violationsAt_findingsAfter_map ids marks own]

section

variable (m : Manifest) (id : String)

theorem modifyCommand_congr {f g : Command → Command}
    (same : ∀ c ∈ m.commands, c.id = id → f c = g c) :
    m.modifyCommand id f = m.modifyCommand id g := by
  simp only [modifyCommand]
  congr 1
  refine List.map_congr_left fun c mem => ?_
  split
  · exact same c mem ‹_›
  · rfl

theorem modifyCommand_of_same {f : Command → Command}
    (same : ∀ c ∈ m.commands, c.id = id → f c = c) : m.modifyCommand id f = m := by
  rw [m.modifyCommand_congr id same, modifyCommand]
  simp

/-- A change of the commands with an id, which they keep, shows by what it does to each of them. -/
theorem get?_modifyCommand {f : Command → Command} (ids : KeepsId f) {p q : Place}
    (marks : ∀ id, Place.command id .id = p ↔ Place.command id .id = q)
    (others : ∀ c : Command, c.id ≠ id → violationsAt p c.findings = violationsAt q c.findings)
    (own : ∀ c : Command, c.id = id → violationsAt p (f c).findings = violationsAt q c.findings) :
    (m.modifyCommand id f).validate.get? p = m.validate.get? q := by
  refine get?_validate_of_commands (m := m) rfl (fun c => ?_) marks fun c _ => ?_
  · split
    · exact ids c
    · rfl
  · split
    · exact own c ‹_›
    · exact others c ‹_›

/-- Where nothing changes for a command with the id, nothing changes. -/
theorem get?_modifyCommand_of_same {f : Command → Command} (ids : KeepsId f) {p : Place}
    (own : ∀ c : Command, c.id = id → violationsAt p (f c).findings = violationsAt p c.findings) :
    (m.modifyCommand id f).validate.get? p = m.validate.get? p :=
  m.get?_modifyCommand id ids (fun _ => Iff.rfl) (fun _ _ => rfl) own

/-- No change of the commands with an id shows at the places of other ids, nor at the place of an id. -/
theorem get?_modifyCommand_elsewhere {f : Command → Command} (ids : KeepsId f)
    {p : Place} (elsewhere : p.commandId ≠ id ∨ p = .command id .id) :
    (m.modifyCommand id f).validate.get? p = m.validate.get? p := by
  refine m.get?_modifyCommand_of_same id ids fun c same => ?_
  rcases elsewhere with other | rfl
  · rw [← same] at other
    rw [Command.violationsAt_of_other other, Command.violationsAt_of_other (by rwa [ids c])]
  · rw [Command.violationsAt_id, Command.violationsAt_id]

theorem get?_modifyArguments_elsewhere (g : List Argument → List Argument) {p : Place}
    (elsewhere : p.commandId ≠ id ∨ p = .command id .id) :
    (m.modifyArguments id g).validate.get? p = m.validate.get? p :=
  m.get?_modifyCommand_elsewhere id (arguments_keepsId g) elsewhere

/-- A change of arguments shows at none of the places of a command. -/
theorem get?_modifyArguments_command (g : List Argument → List Argument) (i : String)
    (f : CommandField) :
    (m.modifyArguments id g).validate.get? (.command i f) = m.validate.get? (.command i f) :=
  m.get?_modifyCommand_of_same id (arguments_keepsId g) fun _ _ =>
    Command.violationsAt_command_congr (by rfl) (by rfl) (by rfl) i f

/-- At the place of an argument a change of arguments shows what the one that stands there now breaks. -/
theorem get?_modifyArguments_argument {g : List Argument → List Argument} {j k : Nat}
    {f : ArgumentField}
    (moved : ∀ as : List Argument, ((g as)[j]?.map (·.violations f)).getD [] =
      (as[k]?.map (·.violations f)).getD []) :
    (m.modifyArguments id g).validate.get? (.argument id j f) =
      m.validate.get? (.argument id k f) := by
  refine m.get?_modifyCommand id (arguments_keepsId g) (fun _ => by simp) (fun c other => ?_)
    fun c same => ?_
  · rw [c.violationsAt_argument, c.violationsAt_argument, if_neg other, if_neg other]
  · rw [Command.violationsAt_argument, c.violationsAt_argument, if_pos same, if_pos same]
    exact moved c.arguments

theorem get?_updateCommand_argument (patch : CommandPatch) (i : String) (k : Nat)
    (f : ArgumentField) :
    (m.updateCommand id patch).validate.get? (.argument i k f) =
      m.validate.get? (.argument i k f) := by
  refine m.get?_modifyCommand_of_same id patch.apply_keepsId fun c _ => ?_
  rw [Command.violationsAt_argument, c.violationsAt_argument]
  rfl

theorem get?_updateArgument (index : Nat) (patch : ArgumentPatch) {p : Place}
    (other : ∀ f, p ≠ .argument id index f) :
    (m.updateArgument id index patch).validate.get? p = m.validate.get? p := by
  cases p with
  | command i f => exact m.get?_modifyArguments_command id _ i f
  | argument i k f =>
    by_cases same : i = id
    · subst same
      have apart : index ≠ k := fun same => other f (by rw [same])
      refine m.get?_modifyArguments_argument i fun as => ?_
      simp [apart]
    · exact m.get?_modifyArguments_elsewhere id _ (Or.inl same)

theorem validate_addArgument : (m.addArgument id).validate = m.validate := by
  refine Report.ext_get? fun p => ?_
  cases p with
  | command i f => exact m.get?_modifyArguments_command id _ i f
  | argument i k f =>
    by_cases same : i = id
    · subst same
      refine m.get?_modifyArguments_argument i fun as => ?_
      rw [List.getElem?_append]
      split
      · rfl
      · rename_i beyond
        rw [List.getElem?_eq_none (Nat.le_of_not_lt beyond)]
        cases k - as.length <;> simp [Argument.violations_fresh]
    · exact m.get?_modifyArguments_elsewhere id _ (Or.inl same)

theorem get?_removeArgument (index k : Nat) (f : ArgumentField) :
    (m.removeArgument id index).validate.get? (.argument id k f) =
      m.validate.get? (.argument id (if k < index then k else k + 1) f) := by
  refine m.get?_modifyArguments_argument id fun as => ?_
  rw [List.getElem?_eraseIdx]
  split <;> rfl

theorem removeArgument_of_beyond {index : Nat}
    (beyond : ∀ c ∈ m.commands, c.id = id → c.arguments.length ≤ index) :
    m.removeArgument id index = m :=
  m.modifyCommand_of_same id fun c mem here => by
    simp only [List.eraseIdx_of_length_le (beyond c mem here)]

end

/-- An edit of what has a given id. -/
inductive Edit where
  | updateCommand (patch : CommandPatch)
  | updateArgument (index : Nat) (patch : ArgumentPatch)
  | addArgument
  | removeArgument (index : Nat)

def edited (m : Manifest) (id : String) : Edit → Manifest
  | .updateCommand patch => m.updateCommand id patch
  | .updateArgument index patch => m.updateArgument id index patch
  | .addArgument => m.addArgument id
  | .removeArgument index => m.removeArgument id index

theorem get?_edited_elsewhere (m : Manifest) (id : String) (e : Edit) {p : Place}
    (elsewhere : p.commandId ≠ id ∨ p = .command id .id) :
    (m.edited id e).validate.get? p = m.validate.get? p := by
  cases e with
  | updateCommand patch => exact m.get?_modifyCommand_elsewhere id patch.apply_keepsId elsewhere
  | updateArgument => exact m.get?_modifyArguments_elsewhere id _ elsewhere
  | addArgument => exact m.get?_modifyArguments_elsewhere id _ elsewhere
  | removeArgument => exact m.get?_modifyArguments_elsewhere id _ elsewhere

/-- No edit of what has an id changes what the report says about other ids, or that the id comes more than
once. The edit of a command changes nothing about arguments, the edit of an argument nothing but what is
said about this argument, and an argument that is added nothing at all. Where an argument is taken away,
what is said about each later one moves down by one, and if there was none to take away nothing changes. -/
theorem edit_changes_its_own_places (m : Manifest) (id : String) :
    (∀ e p, p.commandId ≠ id ∨ p = .command id .id →
      (m.edited id e).validate.get? p = m.validate.get? p) ∧
    (∀ patch i k f, (m.updateCommand id patch).validate.get? (.argument i k f) =
      m.validate.get? (.argument i k f)) ∧
    (∀ index patch p, p ≠ .argument id index .cli → p ≠ .argument id index .name →
      (m.updateArgument id index patch).validate.get? p = m.validate.get? p) ∧
    (m.addArgument id).validate = m.validate ∧
    ∀ index,
      (∀ f, (m.removeArgument id index).validate.get? (.command id f) =
        m.validate.get? (.command id f)) ∧
      (∀ k f, k < index → (m.removeArgument id index).validate.get? (.argument id k f) =
        m.validate.get? (.argument id k f)) ∧
      (∀ k f, index ≤ k → (m.removeArgument id index).validate.get? (.argument id k f) =
        m.validate.get? (.argument id (k + 1) f)) ∧
      ((∀ c ∈ m.commands, c.id = id → c.arguments.length ≤ index) →
        (m.removeArgument id index).validate = m.validate) := by
  refine ⟨fun e _ => m.get?_edited_elsewhere id e, m.get?_updateCommand_argument id, ?_,
    m.validate_addArgument id, fun index => ⟨?_, ?_, ?_, ?_⟩⟩
  · intro index patch p cli name
    refine m.get?_updateArgument id index patch fun f => ?_
    cases f with
    | cli => exact cli
    | name => exact name
  · exact m.get?_modifyArguments_command id _ id
  · intro k f before
    rw [get?_removeArgument, if_pos before]
  · intro k f after
    rw [get?_removeArgument, if_neg (Nat.not_lt_of_le after)]
  · intro beyond
    rw [m.removeArgument_of_beyond id beyond]

/-- Two commands with one id and different numbers of arguments: what was said about the third argument
is said about the second when that is taken away, and the id still comes twice. -/
theorem second_argument_taken_away :
    let wrong : Argument := { Argument.fresh with name := "a b", cli := "x" }
    let c (arguments : List Argument) : Command :=
      { name := "fetch", id := "ops:fetch", description := "", sourceFile := "",
        sourceRange? := none, language := "go", entrypoint := "", runtime := "go:1",
        arguments := arguments, returns := "text", isAsync := false, confidence := Binary64.one,
        examples := [] }
    let m : Manifest := { Manifest.scaffold "0" with
      commands := [c [wrong, Argument.fresh, wrong], c [wrong]] }
    let id := "ops:fetch"
    let n := m.removeArgument id 1
    m.validate.get? (.argument id 1 .cli) = none ∧
    m.validate.get? (.argument id 2 .cli) = some .flagForm ∧ 1 ≤ 1 ∧
    n.validate.get? (.argument id 1 .cli) = m.validate.get? (.argument id (1 + 1) .cli) ∧
    0 < 1 ∧ n.validate.get? (.argument id 0 .name) = m.validate.get? (.argument id 0 .name) ∧
    Place.command id .id = .command id .id ∧
    (m.edited id (.removeArgument 1)).validate.get? (.command id .id) =
      m.validate.get? (.command id .id) ∧
    Place.argument id 2 .cli ≠ .argument id 1 .cli ∧
    Place.argument id 2 .cli ≠ .argument id 1 .name ∧
    (m.updateArgument id 1 ⟨none, some "", none, none, none, none⟩).validate.get?
      (.argument id 2 .cli) = m.validate.get? (.argument id 2 .cli) ∧
    (∀ c ∈ m.commands, c.id = id → c.arguments.length ≤ 3) ∧
    (m.removeArgument id 3).validate = m.validate := by
  intro wrong c m id n
  obtain ⟨elsewhere, _, argument, _, taken⟩ := edit_changes_its_own_places m id
  have cli : Place.argument id 2 .cli ≠ .argument id 1 .cli := by decide
  have name : Place.argument id 2 .cli ≠ .argument id 1 .name := by decide
  have beyond : ∀ c ∈ m.commands, c.id = id → c.arguments.length ≤ 3 := by decide
  exact ⟨by decide, by decide, Nat.le_refl 1, (taken 1).2.2.1 1 .cli (Nat.le_refl 1),
    Nat.one_pos, (taken 1).2.1 0 .name Nat.one_pos, rfl,
    elsewhere (.removeArgument 1) (.command id .id) (Or.inr rfl), cli, name,
    argument 1 _ _ cli name, beyond, (taken 3).2.2.2 beyond⟩

end Manifest

end CommandDeck
