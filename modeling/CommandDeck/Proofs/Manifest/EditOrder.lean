import CommandDeck.Proofs.Manifest.EditedReport

/-!
# Edits in another order

An edit maps the commands with one id and keeps their ids. So edits of two ids do not meet, and the order
of two edits of one id is a question about one command: its fields and its arguments are apart, and of two
edits of its arguments the later one names an argument by the place that the earlier one has left it.
-/

namespace CommandDeck

/-- A value after a patch that may give a new one. -/
def Patched {α : Type} (new? : Option α) (old new : α) : Prop :=
  (∀ given, new? = some given → new = given) ∧ (new? = none → new = old)

theorem patched_getD {α : Type} (new? : Option α) (old : α) :
    Patched new? old (new?.getD old) := by
  cases new? <;> simp [Patched]

/-- A value that was given once is there when it is given again. -/
theorem getD_again {α : Type} (new? : Option α) (old : α) :
    new?.getD (new?.getD old) = new?.getD old := by
  cases new? <;> rfl

namespace CommandPatch

/-- The command `d` has what the patch gives, and all else as `c` has it. -/
structure Changes (p : CommandPatch) (c d : Command) : Prop where
  name : Patched p.name? c.name d.name
  description : Patched p.description? c.description d.description
  language : Patched p.language? c.language d.language
  entrypoint : Patched p.entrypoint? c.entrypoint d.entrypoint
  runtime : Patched p.runtime? c.runtime d.runtime
  returns : Patched p.returns? c.returns d.returns
  others : d = { c with
    name := d.name, description := d.description, language := d.language,
    entrypoint := d.entrypoint, runtime := d.runtime, returns := d.returns }

theorem changes_apply (p : CommandPatch) (c : Command) : p.Changes c (p.apply c) where
  name := patched_getD _ _
  description := patched_getD _ _
  language := patched_getD _ _
  entrypoint := patched_getD _ _
  runtime := patched_getD _ _
  returns := patched_getD _ _
  others := rfl

theorem apply_apply (p : CommandPatch) (c : Command) : p.apply (p.apply c) = p.apply c := by
  simp only [apply, getD_again]

end CommandPatch

namespace ArgumentPatch

/-- The argument `b` has what the patch gives, and all else as `a` has it. -/
structure Changes (p : ArgumentPatch) (a b : Argument) : Prop where
  name : Patched p.name? a.name b.name
  cli : Patched p.cli? a.cli b.cli
  placement : Patched p.placement? a.placement b.placement
  type : Patched p.type? a.type b.type
  required : Patched p.required? a.required b.required
  description : Patched p.description? a.description b.description
  others : b = { a with
    name := b.name, cli := b.cli, placement := b.placement, type := b.type,
    required := b.required, description := b.description }

theorem changes_apply (p : ArgumentPatch) (a : Argument) : p.Changes a (p.apply a) where
  name := patched_getD _ _
  cli := patched_getD _ _
  placement := patched_getD _ _
  type := patched_getD _ _
  required := patched_getD _ _
  description := patched_getD _ _
  others := rfl

theorem apply_apply (p : ArgumentPatch) (a : Argument) : p.apply (p.apply a) = p.apply a := by
  simp only [apply, getD_again]

end ArgumentPatch

/-- The item at an index is replaced by one that is related to it; no item is where none was. -/
inductive ReplacedAt {α : Type} (R : α → α → Prop) (index : Nat) : List α → List α → Prop where
  | there {before after : List α} {a b : α} (here : before.length = index) (related : R a b) :
      ReplacedAt R index (before ++ a :: after) (before ++ b :: after)
  | beyond {as : List α} (short : as.length ≤ index) : ReplacedAt R index as as

/-- The item at an index is taken away, if there is one. -/
inductive TakenAt {α : Type} (index : Nat) : List α → List α → Prop where
  | there {before after : List α} {a : α} (here : before.length = index) :
      TakenAt index (before ++ a :: after) (before ++ after)
  | beyond {as : List α} (short : as.length ≤ index) : TakenAt index as as

section

variable {α : Type}

theorem exists_split {as : List α} {index : Nat} (inside : index < as.length) :
    ∃ before a after, as = before ++ a :: after ∧ before.length = index := by
  refine ⟨as.take index, as[index], as.drop (index + 1), ?_, ?_⟩
  · rw [List.cons_getElem_drop_succ, List.take_append_drop]
  · rw [List.length_take, Nat.min_eq_left (Nat.le_of_lt inside)]

theorem replacedAt_modify {R : α → α → Prop} {f : α → α} (related : ∀ a, R a (f a)) (index : Nat)
    (as : List α) : ReplacedAt R index as (as.modify index f) := by
  rcases Nat.lt_or_ge index as.length with inside | beyond
  · obtain ⟨before, a, after, rfl, here⟩ := exists_split inside
    have changed : (before ++ a :: after).modify index f = before ++ f a :: after := by
      simp [List.modify_eq_take_cons_drop, ← here]
    rw [changed]
    exact .there here (related a)
  · rw [List.modify_eq_self beyond]
    exact .beyond beyond

theorem takenAt_eraseIdx (index : Nat) (as : List α) : TakenAt index as (as.eraseIdx index) := by
  rcases Nat.lt_or_ge index as.length with inside | beyond
  · obtain ⟨before, a, after, rfl, here⟩ := exists_split inside
    have left : (before ++ a :: after).eraseIdx index = before ++ after := by
      rw [List.eraseIdx_append_of_length_le (Nat.le_of_eq here), ← here, Nat.sub_self,
        List.eraseIdx_cons_zero]
    rw [left]
    exact .there here
  · rw [List.eraseIdx_of_length_le beyond]
    exact .beyond beyond

theorem eraseIdx_eraseIdx_of_lt {i j : Nat} (before : j < i) (as : List α) :
    (as.eraseIdx i).eraseIdx j = (as.eraseIdx j).eraseIdx (i - 1) := by
  refine List.ext_getElem? fun k => ?_
  simp only [List.getElem?_eraseIdx]
  split_ifs <;> first | rfl | (exfalso; omega)

end

namespace Manifest

open Command (KeepsId arguments_keepsId)

section

variable (m : Manifest) (id : String)

theorem modifyCommand_comm {other : String} (apart : other ≠ id) {f g : Command → Command}
    (keepsF : KeepsId f) (keepsG : KeepsId g) :
    (m.modifyCommand id f).modifyCommand other g = (m.modifyCommand other g).modifyCommand id f := by
  simp only [modifyCommand, List.map_map]
  congr 1
  refine List.map_congr_left fun c _ => ?_
  by_cases this : c.id = id
  · simp [this, keepsF c, Ne.symm apart]
  · by_cases same : c.id = other
    · simp [same, keepsG c, apart]
    · simp [this, same]

/-- Two changes of the commands with one id are one change. -/
theorem modifyCommand_modifyCommand {f : Command → Command} (keeps : KeepsId f)
    (g : Command → Command) :
    (m.modifyCommand id f).modifyCommand id g = m.modifyCommand id (g ∘ f) := by
  simp only [modifyCommand, List.map_map]
  congr 1
  refine List.map_congr_left fun c _ => ?_
  by_cases same : c.id = id <;> simp [same, keeps c]

theorem modifyArguments_modifyArguments (f g : List Argument → List Argument) :
    (m.modifyArguments id f).modifyArguments id g = m.modifyArguments id (g ∘ f) :=
  m.modifyCommand_modifyCommand id (arguments_keepsId f) _

theorem modifyArguments_congr {f g : List Argument → List Argument}
    (same : ∀ c ∈ m.commands, c.id = id → f c.arguments = g c.arguments) :
    m.modifyArguments id f = m.modifyArguments id g :=
  m.modifyCommand_congr id fun c mem here => by rw [same c mem here]

end

namespace Edit

/-- What an edit does to a command with the id that it names. -/
def change : Edit → Command → Command
  | updateCommand patch => patch.apply
  | updateArgument index patch => fun c =>
    { c with arguments := c.arguments.modify index patch.apply }
  | addArgument => fun c => { c with arguments := c.arguments ++ [Argument.fresh] }
  | removeArgument index => fun c => { c with arguments := c.arguments.eraseIdx index }

theorem change_keepsId (e : Edit) : KeepsId e.change := by
  cases e <;> exact fun _ => rfl

/-- The edit is one of arguments. -/
def OnArguments : Edit → Prop
  | updateCommand _ => False
  | _ => True

/-- What an edit may make of a command with the id that it names. -/
inductive Effect : Edit → Command → Command → Prop where
  | updateCommand {patch : CommandPatch} {c d : Command} (changes : patch.Changes c d) :
      Effect (.updateCommand patch) c d
  | updateArgument {index : Nat} {patch : ArgumentPatch} {c : Command} {as : List Argument}
      (replaced : ReplacedAt patch.Changes index c.arguments as) :
      Effect (.updateArgument index patch) c { c with arguments := as }
  | addArgument (c : Command) :
      Effect .addArgument c { c with arguments := c.arguments ++ [Argument.fresh] }
  | removeArgument {index : Nat} {c : Command} {as : List Argument}
      (taken : TakenAt index c.arguments as) :
      Effect (.removeArgument index) c { c with arguments := as }

theorem effect_change (e : Edit) (c : Command) : e.Effect c (e.change c) := by
  cases e with
  | updateCommand patch => exact .updateCommand (patch.changes_apply c)
  | updateArgument index patch =>
    exact .updateArgument (replacedAt_modify patch.changes_apply index c.arguments)
  | addArgument => exact .addArgument c
  | removeArgument index => exact .removeArgument (takenAt_eraseIdx index c.arguments)

end Edit

theorem edited_eq (m : Manifest) (id : String) (e : Edit) :
    m.edited id e = m.modifyCommand id e.change := by
  cases e <;> rfl

/-- From `m` to `n` each command with the id goes to one that is related to it. Nothing else changes. -/
def Rewrites (id : String) (R : Command → Command → Prop) (m n : Manifest) : Prop :=
  n = { m with commands := n.commands } ∧
    List.Forall₂ (fun c d => if c.id = id then R c d else d = c) m.commands n.commands

theorem rewrites_modifyCommand (m : Manifest) (id : String) {R : Command → Command → Prop}
    {f : Command → Command} (related : ∀ c, R c (f c)) :
    Rewrites id R m (m.modifyCommand id f) := by
  refine ⟨rfl, List.forall₂_map_right_iff.mpr (List.forall₂_same.mpr fun c _ => ?_)⟩
  by_cases here : c.id = id
  · simpa [here] using related c
  · simp [here]

section

variable (m : Manifest) (id : String)

theorem edited_comm {other : String} (apart : other ≠ id) (e f : Edit) :
    (m.edited id e).edited other f = (m.edited other f).edited id e := by
  simp only [edited_eq]
  exact m.modifyCommand_comm id apart e.change_keepsId f.change_keepsId

theorem updateCommand_edited (patch : CommandPatch) {e : Edit} (arguments : e.OnArguments) :
    (m.updateCommand id patch).edited id e = (m.edited id e).updateCommand id patch := by
  simp only [edited_eq, updateCommand, m.modifyCommand_modifyCommand id patch.apply_keepsId,
    m.modifyCommand_modifyCommand id e.change_keepsId]
  refine m.modifyCommand_congr id fun c _ _ => ?_
  cases e with
  | updateCommand => exact arguments.elim
  | updateArgument => rfl
  | addArgument => rfl
  | removeArgument => rfl

theorem updateArgument_updateArgument {i j : Nat} (apart : i ≠ j) (p q : ArgumentPatch) :
    (m.updateArgument id i p).updateArgument id j q =
      (m.updateArgument id j q).updateArgument id i p := by
  simp only [updateArgument, modifyArguments_modifyArguments]
  exact m.modifyArguments_congr id fun c _ _ => List.modify_modify_ne _ _ c.arguments apart

theorem removeArgument_updateArgument (i j : Nat) (p : ArgumentPatch) :
    (m.removeArgument id i).updateArgument id j p =
      (m.updateArgument id (if j < i then j else j + 1) p).removeArgument id i := by
  simp only [updateArgument, removeArgument, modifyArguments_modifyArguments]
  refine m.modifyArguments_congr id fun c _ _ => ?_
  split
  · exact List.modify_eraseIdx_of_lt _ _ _ c.arguments ‹_›
  · exact List.modify_eraseIdx_of_ge _ _ _ c.arguments (Nat.le_of_not_lt ‹_›)

theorem removeArgument_removeArgument {i j : Nat} (before : j < i) :
    (m.removeArgument id i).removeArgument id j =
      (m.removeArgument id j).removeArgument id (i - 1) := by
  simp only [removeArgument, modifyArguments_modifyArguments]
  exact m.modifyArguments_congr id fun c _ _ => eraseIdx_eraseIdx_of_lt before c.arguments

theorem updateArgument_removeArgument (i : Nat) (p : ArgumentPatch) :
    (m.updateArgument id i p).removeArgument id i = m.removeArgument id i := by
  simp only [updateArgument, removeArgument, modifyArguments_modifyArguments]
  exact m.modifyArguments_congr id fun c _ _ => List.eraseIdx_modify_of_eq _ i c.arguments

theorem updateCommand_again (patch : CommandPatch) :
    (m.updateCommand id patch).updateCommand id patch = m.updateCommand id patch := by
  simp only [updateCommand, m.modifyCommand_modifyCommand id patch.apply_keepsId]
  exact m.modifyCommand_congr id fun c _ _ => patch.apply_apply c

theorem updateArgument_again (i : Nat) (patch : ArgumentPatch) :
    (m.updateArgument id i patch).updateArgument id i patch = m.updateArgument id i patch := by
  simp only [updateArgument, modifyArguments_modifyArguments]
  refine m.modifyArguments_congr id fun c _ _ => ?_
  rw [Function.comp_apply, List.modify_modify_eq]
  exact congrArg (c.arguments.modify i) (funext patch.apply_apply)

theorem removeArgument_addArgument {i : Nat}
    (inside : ∀ c ∈ m.commands, c.id = id → i < c.arguments.length) :
    (m.removeArgument id i).addArgument id = (m.addArgument id).removeArgument id i := by
  simp only [addArgument, removeArgument, modifyArguments_modifyArguments]
  exact m.modifyArguments_congr id fun c mem here =>
    (List.eraseIdx_append_of_lt_length (inside c mem here) _).symm

theorem updateArgument_of_beyond {index : Nat}
    (beyond : ∀ c ∈ m.commands, c.id = id → c.arguments.length ≤ index) (patch : ArgumentPatch) :
    m.updateArgument id index patch = m :=
  m.modifyCommand_of_same id fun c mem here => by
    simp only [List.modify_eq_self (beyond c mem here)]

/-- Where an argument is taken away and one is added, the others stay as they were and in their order. -/
theorem rewrites_removed_added (i : Nat) :
    Rewrites id (fun c d => ∃ kept, TakenAt i c.arguments kept ∧
      d = { c with arguments := kept ++ [Argument.fresh] }) m
      ((m.removeArgument id i).addArgument id) := by
  simp only [addArgument, removeArgument, modifyArguments_modifyArguments]
  exact m.rewrites_modifyCommand id fun c => ⟨_, takenAt_eraseIdx i c.arguments, rfl⟩

theorem edited_of_unknown (unknown : ∀ c ∈ m.commands, c.id ≠ id) (e : Edit) :
    m.edited id e = m := by
  rw [edited_eq]
  exact m.modifyCommand_of_same id fun c mem here => absurd here (unknown c mem)

end

/-- Edits of two ids may change places. Of one id, the edit of a command may change places with any edit
of arguments, and two edits of different arguments with each other; an edit after a removal is an edit
before it, of the place that the argument had then. An argument that is taken away need not be edited
before, and an update that is repeated changes nothing. An argument may be added before or after another
is taken away, where there is one to take. An edit leaves alone what it does not name, all of the manifest
if no command has the id, and the arguments of a command that has none at the index. -/
theorem edits_commute_up_to_shift (m : Manifest) (id : String) :
    (∀ other, other ≠ id → ∀ e f,
      (m.edited id e).edited other f = (m.edited other f).edited id e) ∧
    (∀ patch e, e.OnArguments →
      (m.updateCommand id patch).edited id e = (m.edited id e).updateCommand id patch) ∧
    (∀ i j p q, i ≠ j → (m.updateArgument id i p).updateArgument id j q =
      (m.updateArgument id j q).updateArgument id i p) ∧
    (∀ i j p, (m.removeArgument id i).updateArgument id j p =
      (m.updateArgument id (if j < i then j else j + 1) p).removeArgument id i) ∧
    (∀ i j, j < i → (m.removeArgument id i).removeArgument id j =
      (m.removeArgument id j).removeArgument id (i - 1)) ∧
    (∀ i p, (m.updateArgument id i p).removeArgument id i = m.removeArgument id i) ∧
    (∀ p, (m.updateCommand id p).updateCommand id p = m.updateCommand id p) ∧
    (∀ i p, (m.updateArgument id i p).updateArgument id i p = m.updateArgument id i p) ∧
    (∀ i, Rewrites id (fun c d => ∃ kept, TakenAt i c.arguments kept ∧
      d = { c with arguments := kept ++ [Argument.fresh] }) m
      ((m.removeArgument id i).addArgument id)) ∧
    (∀ i, (∀ c ∈ m.commands, c.id = id → i < c.arguments.length) →
      (m.removeArgument id i).addArgument id = (m.addArgument id).removeArgument id i) ∧
    (∀ e, Rewrites id e.Effect m (m.edited id e)) ∧
    (∀ i, (∀ c ∈ m.commands, c.id = id → c.arguments.length ≤ i) →
      (∀ p, m.updateArgument id i p = m) ∧ m.removeArgument id i = m) ∧
    ((∀ c ∈ m.commands, c.id ≠ id) → ∀ e, m.edited id e = m) := by
  refine ⟨fun _ => m.edited_comm id, fun patch _ => m.updateCommand_edited id patch,
    fun _ _ p q apart => m.updateArgument_updateArgument id apart p q,
    m.removeArgument_updateArgument id, fun _ _ => m.removeArgument_removeArgument id,
    m.updateArgument_removeArgument id, m.updateCommand_again id, m.updateArgument_again id,
    m.rewrites_removed_added id, fun _ => m.removeArgument_addArgument id, ?_, ?_,
    m.edited_of_unknown id⟩
  · intro e
    rw [edited_eq]
    exact m.rewrites_modifyCommand id e.effect_change
  · intro i beyond
    exact ⟨m.updateArgument_of_beyond id beyond, m.removeArgument_of_beyond id beyond⟩

/-- Two commands have one id, and only one of them has a third argument. -/
theorem edits_of_uneven_commands :
    let a (name : String) : Argument := { Argument.fresh with name := name }
    let c (id : String) (arguments : List Argument) : Command :=
      { name := "fetch", id := id, description := "", sourceFile := "", sourceRange? := none,
        language := "go", entrypoint := "", runtime := "go:1", arguments := arguments,
        returns := "text", isAsync := false, confidence := Binary64.one, examples := [] }
    let m : Manifest := { Manifest.scaffold "0" with
      commands := [c "ops:a" [a "x", a "y", a "z"], c "ops:b" [a "x"], c "ops:a" [a "u", a "v"]] }
    let rename : ArgumentPatch := ⟨some "w", none, none, none, none, none⟩
    let call : CommandPatch := ⟨some "get", none, none, none, none, none⟩
    "ops:b" ≠ "ops:a" ∧
    (m.removeArgument "ops:a" 1).addArgument "ops:b" =
      (m.addArgument "ops:b").removeArgument "ops:a" 1 ∧
    Edit.addArgument.OnArguments ∧
    (m.updateCommand "ops:a" call).addArgument "ops:a" =
      (m.addArgument "ops:a").updateCommand "ops:a" call ∧
    1 ≠ 2 ∧ (m.updateArgument "ops:a" 1 rename).updateArgument "ops:a" 2 rename =
      (m.updateArgument "ops:a" 2 rename).updateArgument "ops:a" 1 rename ∧
    0 < 2 ∧ (m.removeArgument "ops:a" 2).removeArgument "ops:a" 0 =
      (m.removeArgument "ops:a" 0).removeArgument "ops:a" (2 - 1) ∧
    (∀ c ∈ m.commands, c.id = "ops:a" → 1 < c.arguments.length) ∧
    (m.removeArgument "ops:a" 1).addArgument "ops:a" =
      (m.addArgument "ops:a").removeArgument "ops:a" 1 ∧
    (∀ c ∈ m.commands, c.id = "ops:a" → c.arguments.length ≤ 3) ∧
    m.removeArgument "ops:a" 3 = m ∧
    (∀ c ∈ m.commands, c.id ≠ "ops:c") ∧ m.addArgument "ops:c" = m := by
  intro a c m rename call
  obtain ⟨ids, fields, updates, _, removals, _, _, _, _, added, _, short, _⟩ :=
    edits_commute_up_to_shift m "ops:a"
  obtain ⟨_, _, _, _, _, _, _, _, _, _, _, _, unknown⟩ := edits_commute_up_to_shift m "ops:c"
  have inside : ∀ c ∈ m.commands, c.id = "ops:a" → 1 < c.arguments.length := by decide
  have beyond : ∀ c ∈ m.commands, c.id = "ops:a" → c.arguments.length ≤ 3 := by decide
  have other : ∀ c ∈ m.commands, c.id ≠ "ops:c" := by decide
  exact ⟨by decide, ids "ops:b" (by decide) (.removeArgument 1) .addArgument, trivial,
    fields call .addArgument trivial, by decide, updates 1 2 rename rename (by decide), by decide,
    removals 2 0 (by decide), inside, added 1 inside, beyond, (short 3 beyond).2, other,
    unknown other .addArgument⟩

end Manifest

end CommandDeck
