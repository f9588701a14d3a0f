import CommandDeck.Proofs.Json.Rearrangement
import CommandDeck.Proofs.Json.VariantTree
import CommandDeck.Manifest.Document

/-!
# The order of members

A manifest is the same whatever the order of the members in its document and whatever other members
stand between them, and there is none in a document where some record has a member twice or lacks one
that it needs.
-/

namespace CommandDeck

open Json

namespace DefaultValue

def kinds : Kinds DefaultValue where
  null := none
  boolean b := some (.boolean b)
  string s := some (.string s)
  number m := ofValue? (.ofNumeral m)

theorem toOption_read (levels : Nat) (s : List Char) :
    (read levels s).toOption =
      (value levels s).toOption.bind fun r => (ofValue? r.1).map fun d => (d, r.2) := by
  rw [read]
  rcases value levels s with e | ⟨v, rest⟩
  · rfl
  · dsimp only [toOption_ok, Option.bind_some]
    cases ofValue? v <;> rfl

theorem valueAt_kinds (inner : Option (Reader Value)) (c : Char) (rest : List Char) :
    ((valueAt inner c rest).toOption.bind fun r => (ofValue? r.1).map fun d => (d, r.2)) =
      kinds.readAt c rest := by
  by_cases digit : Text.isDigit c = true
  · rw [kinds.readAt_digit digit, valueAt_digit inner digit]
    cases readNumeral false (c :: rest) <;> rfl
  unfold valueAt Kinds.readAt
  split
  · cases readNullTail rest <;> rfl
  · cases readTrueTail rest <;> rfl
  · cases readFalseTail rest <;> rfl
  · cases readString rest <;> rfl
  · cases readNumeral true rest <;> rfl
  · cases inner with
    | none => rfl
    | some read =>
      dsimp only
      generalize listTail read 0 rest = r
      cases r <;> rfl
  · cases inner with
    | none => rfl
    | some read =>
      dsimp only
      generalize membersTail _ _ 0 rest = r
      cases r <;> rfl
  · simp only [digit, Bool.false_eq_true, if_false]
    rfl

theorem readBy_read : kinds.ReadBy read := by
  intro levels s
  obtain ⟨inner, begun⟩ := value_eq levels
  rw [toOption_read, begun, atValue]
  cases skipSpace s with
  | nil => rfl
  | cons c rest => exact valueAt_kinds inner c rest

end DefaultValue

namespace LineRange

def schema : Schema :=
  .record ["start_line", "end_line"] ["start_line", "end_line"] fun _ => .leaf

theorem members_commute : layout.members.Pairwise Member.Commutes := by
  simp only [layout, List.pairwise_cons, List.forall_mem_cons]
  and_intros
  all_goals first
    | exact Member.commutes_of fun _ _ _ => rfl
    | simp

theorem follows : Follows 1 layout.read schema := by
  refine .record ?_ members_commute rfl rfl (by decide)
  simp only [layout, List.forall_mem_cons]
  and_intros
  · exact readsTrees_lineNumber.leaf.member
  · exact readsTrees_lineNumber.leaf.member
  · exact List.forall_mem_nil _

end LineRange

namespace Argument

def schema : Schema :=
  .record ["name", "cli", "position", "type", "required", "default", "multiple", "env", "description",
    "source_parameter", "confidence"] ["name", "cli"] fun _ => .leaf

theorem members_commute : layout.members.Pairwise Member.Commutes := by
  simp only [layout, List.pairwise_cons, List.forall_mem_cons]
  and_intros
  all_goals first
    | exact Member.commutes_of fun _ _ _ => rfl
    | simp

theorem members_follow : ∀ m ∈ layout.members, Follows 1 m.put (schema.inner m.name) := by
  have text : Follows 1 string .leaf := readBy_string.readsTrees.leaf.mono (by decide) (by decide)
  have truth : Follows 1 boolean .leaf := readBy_boolean.readsTrees.leaf.mono (by decide) (by decide)
  have value : Follows 1 DefaultValue.read .leaf :=
    DefaultValue.readBy_read.readsTrees.leaf.mono (by decide) (by decide)
  have trust : Follows 1 double .leaf := readsTrees_double.leaf.mono (by decide) (by decide)
  simp only [layout, List.forall_mem_cons]
  and_intros
  · exact text.member
  · exact text.member
  · exact (readsTrees_variant _).leaf.member
  · exact (readsTrees_variant _).leaf.member
  · exact truth.member
  · exact value.optional.member
  · exact truth.optional.member
  · exact text.optional.member
  · exact text.member
  · exact text.optional.member
  · exact trust.member
  · exact List.forall_mem_nil _

theorem follows : Follows 2 layout.read schema :=
  .record members_follow members_commute rfl rfl (by decide)

end Argument

namespace Command

def schema : Schema :=
  .record ["name", "id", "description", "source_file", "source_range", "language", "entrypoint",
    "runtime", "arguments", "returns", "async", "confidence", "examples"] ["name", "id"] fun
    | "source_range" => LineRange.schema
    | "arguments" => .list Argument.schema
    | _ => .leaf

theorem members_commute : layout.members.Pairwise Member.Commutes := by
  simp only [layout, List.pairwise_cons, List.forall_mem_cons]
  and_intros
  all_goals first
    | exact Member.commutes_of fun _ _ _ => rfl
    | simp

theorem members_follow : ∀ m ∈ layout.members, Follows 3 m.put (schema.inner m.name) := by
  have text : Follows 3 string .leaf := readBy_string.readsTrees.leaf.mono (by decide) (by decide)
  have texts : Follows 3 (list string) .leaf :=
    (readBy_string.readsTrees.list (by decide)).leaf.mono (by decide) (by decide)
  have truth : Follows 3 boolean .leaf := readBy_boolean.readsTrees.leaf.mono (by decide) (by decide)
  have trust : Follows 3 double .leaf := readsTrees_double.leaf.mono (by decide) (by decide)
  simp only [layout, List.forall_mem_cons]
  and_intros
  · exact text.member
  · exact text.member
  · exact text.member
  · exact text.member
  · exact (LineRange.follows.optional.mono (by decide) (by decide)).member
  · exact text.member
  · exact text.member
  · exact text.member
  · exact (Argument.follows.list (by decide)).member
  · exact text.member
  · exact truth.member
  · exact trust.member
  · exact texts.member
  · exact List.forall_mem_nil _

theorem follows : Follows 4 layout.read schema :=
  .record members_follow members_commute rfl rfl (by decide)

end Command

namespace Manifest

def schema : Schema :=
  .record ["namespace", "source", "generated_at", "language", "commands", "warnings"]
    ["namespace", "source", "generated_at", "language"] fun
    | "commands" => .list Command.schema
    | _ => .leaf

theorem members_commute : layout.members.Pairwise Member.Commutes := by
  simp only [layout, List.pairwise_cons, List.forall_mem_cons]
  and_intros
  all_goals first
    | exact Member.commutes_of fun _ _ _ => rfl
    | simp

theorem members_follow : ∀ m ∈ layout.members, Follows 5 m.put (schema.inner m.name) := by
  have text : Follows 5 string .leaf := readBy_string.readsTrees.leaf.mono (by decide) (by decide)
  have texts : Follows 5 (list string) .leaf :=
    (readBy_string.readsTrees.list (by decide)).leaf.mono (by decide) (by decide)
  simp only [layout, List.forall_mem_cons]
  and_intros
  · exact text.member
  · exact text.member
  · exact text.member
  · exact text.member
  · exact (Command.follows.list (by decide)).member
  · exact texts.member
  · exact List.forall_mem_nil _

theorem follows : Follows 6 layout.read schema :=
  .record members_follow members_commute rfl rfl (by decide)

theorem toOption_ofText {t : Tree} {text : String} (spelled : t.Spelled text) :
    (ofText text).toOption = (decode layout.read t).bind fun m =>
      if Text.isBlankText m.namespaceName then none else some m := by
  rw [← follows.readAll spelled, ofText]
  rcases readAll layout.read text with e | m
  · rfl
  · dsimp only [toOption_ok, Option.bind_some]
    split <;> rfl

/-- Every document of a manifest is the text of some tree, and every text of that tree rearranged is a
document of the same manifest. A text of a tree with a faulty record is none. -/
theorem ofText_of_rearranged :
    (∀ {text : String} {m : Manifest}, ofText text = .ok m →
      (∃ t : Tree, t.Spelled text) ∧
      ∀ {t t' : Tree} {text' : String}, t.Spelled text →
        Relation.ReflTransGen (Rearranges schema) t t' → t'.Spelled text' → ofText text' = .ok m) ∧
    ∀ {t : Tree} {text : String}, Faulty schema t → t.Spelled text → ∃ e, ofText text = .error e := by
  refine ⟨fun {text m} accepted => ⟨?_, ?_⟩, ?_⟩
  · unfold ofText at accepted
    split at accepted
    · cases accepted
    · rename_i m' read
      exact follows.exists_tree read
  · intro t t' text' spelled steps spelled'
    rw [← toOption_eq_some, toOption_ofText spelled] at accepted
    rw [← toOption_eq_some, toOption_ofText spelled', follows.rearranged steps, accepted]
  · intro t text faulty spelled
    rw [← toOption_eq_none, toOption_ofText spelled, follows.refuses faulty, Option.bind_none]

/-- The members of every record in another order, with a number among them that is too large for any
double; and a command with two identifiers. -/
theorem reversed_document_is_same :
    let word (s : String) : Tree := .scalar (.string (.of s))
    let one : Unsigned := ⟨['1'], .whole ⟨⟨List.all_eq_true.mp rfl, List.cons_ne_nil _ _⟩, by simp⟩⟩
    let two : Unsigned := ⟨['2'], .whole ⟨⟨List.all_eq_true.mp rfl, List.cons_ne_nil _ _⟩, by simp⟩⟩
    let huge : Unsigned := ⟨['1', 'e', '9', '9', '9'],
      .exponent (⟨⟨List.all_eq_true.mp rfl, List.cons_ne_nil _ _⟩, by simp⟩ : WholeDigits ['1']) rfl
        (.unsigned ⟨List.all_eq_true.mp rfl, List.cons_ne_nil _ _⟩)⟩
    let number (u : Unsigned) : Tree := .scalar (.number false u)
    let start : Quoted × Tree := (.of "start_line", number one)
    let stop : Quoted × Tree := (.of "end_line", number two)
    let weight : Quoted × Tree := (.of "weight", number huge)
    let range (members : List (Quoted × Tree)) : Quoted × Tree := (.of "source_range", .object members)
    let name : Quoted × Tree := (.of "name", word "a")
    let id (s : String) : Quoted × Tree := (.of "id", word s)
    let document (command : List (Quoted × Tree)) : List (Quoted × Tree) :=
      [(.of "namespace", word "ops"), (.of "source", word "s"), (.of "generated_at", word "now"),
        (.of "language", word "bash"), (.of "commands", .array [.object command])]
    let t : Tree := .object (document [name, id "ops:a", range [start, stop]])
    let t' : Tree := .object (document
      [weight, range [stop, start], id "ops:a", name]).reverse
    let t'' : Tree := .object (document [id "b", name, id "ops:a"])
    let m : Manifest := { layout.blank with
      namespaceName := "ops", source := "s", generatedAt := "now", language := "bash",
      commands := [{ Command.layout.blank with
        name := "a", id := "ops:a", sourceRange? := some ⟨1, 2⟩ }] }
    Relation.ReflTransGen (Rearranges schema) t t' ∧ ofText t.compact = .ok m ∧
      ofText t'.compact = .ok m ∧ Faulty schema t'' ∧ ∃ e, ofText t''.compact = .error e := by
  intro word one two huge number start stop weight range name id document t t' t'' m
  have accepted : ofText t.compact = .ok m :=
    toOption_eq_some.mp ((toOption_ofText t.spelled).trans (by decide +kernel))
  have inCommand : ∀ {c c'}, Rearranges Command.schema (.object c) (.object c') →
      Rearranges schema (.object (document c)) (.object (document c')) := fun one =>
    @Rearranges.member _ _ _ [_, _, _, _] [] _ _ _ _ (Quoted.content?_of "commands") (by simp)
      (@Rearranges.item _ [] [] _ _ one)
  have swapped : Rearranges Command.schema (.object [name, id "ops:a", range [start, stop]])
      (.object [name, id "ops:a", range [stop, start]]) :=
    @Rearranges.member _ _ _ [_, _] [] _ _ _ _ (Quoted.content?_of "source_range") (by simp)
      (.permute (.swap _ _ _))
  have inserted : Rearranges Command.schema (.object [name, id "ops:a", range [stop, start]])
      (.object [weight, name, id "ops:a", range [stop, start]]) :=
    @Rearranges.insert _ _ _ [] _ _ _ _ (Quoted.content?_of "weight") (by simp)
  have reversed : Rearranges Command.schema
      (.object [weight, name, id "ops:a", range [stop, start]])
      (.object [weight, range [stop, start], id "ops:a", name]) :=
    .permute (.cons _ (List.reverse_perm _).symm)
  have steps : Relation.ReflTransGen (Rearranges schema) t t' :=
    .head (inCommand swapped) (.head (inCommand inserted) (.head (inCommand reversed)
      (.single (.permute (List.reverse_perm _).symm))))
  have faulty : Faulty schema t'' :=
    @Faulty.member _ _ _ [_, _, _, _] [] _ _ _ (Quoted.content?_of "commands") (by simp)
      (@Faulty.item _ [] [] _ (@Faulty.twice _ _ _ [] [_] [] _ _ _ _ _ (by simp)
        (Quoted.content?_of "id") (Quoted.content?_of "id")))
  exact ⟨steps, accepted, (ofText_of_rearranged.1 accepted).2 t.spelled steps t'.spelled,
    faulty, ofText_of_rearranged.2 faulty t''.spelled⟩

end Manifest

end CommandDeck
