import CommandDeck.Manifest.Summary
import CommandDeck.Proofs.Json.Document
import CommandDeck.Proofs.Json.WholeNumber
import CommandDeck.Proofs.Manifest.Rules

/-!
# Labels of places

The label of a place joins an id, for an argument its index, and a field with dashes. An id may hold
dashes and digits itself, but neither a field nor the digits of an index hold a dash, so that a label is
read in one way from its end. Hence nothing is lost where findings are kept by their labels: each has a
member of its own in the summary of a report.
-/

namespace CommandDeck

/-- The last mark in a text is where it is divided. -/
theorem Text.eq_of_marked {mark : Char} {s t u v : List Char} (cleanU : mark ∉ u) (cleanV : mark ∉ v)
    (same : s ++ mark :: u = t ++ mark :: v) : s = t ∧ u = v := by
  rcases List.append_eq_append_iff.mp same with ⟨between, first, last⟩ | ⟨between, first, last⟩
  · cases between with
    | nil =>
      cases last
      exact ⟨by rw [first, List.append_nil], rfl⟩
    | cons c between =>
      cases last
      exact absurd (List.mem_append_right _ List.mem_cons_self) cleanU
  · cases between with
    | nil =>
      cases last
      exact ⟨by rw [first, List.append_nil], rfl⟩
    | cons c between =>
      cases last
      exact absurd (List.mem_append_right _ List.mem_cons_self) cleanV

namespace NumberLayout

theorem dash_not_mem_digits (n : Nat) : '-' ∉ digits n :=
  fun mem => absurd (isDigit_of_mem_digits mem) (by decide)

theorem digits_injective {m n : Nat} (same : digits m = digits n) : m = n := by
  rw [← ofDigitChars_digits m, same, ofDigitChars_digits]

end NumberLayout

namespace CommandField

theorem dash_not_mem_label (f : CommandField) : '-' ∉ f.label.toList := by
  cases f <;> decide

theorem label_injective {f g : CommandField} (same : f.label = g.label) : f = g := by
  revert same
  cases f <;> cases g <;> decide

end CommandField

namespace ArgumentField

theorem dash_not_mem_label (f : ArgumentField) : '-' ∉ f.label.toList := by
  cases f <;> decide

theorem label_injective {f g : ArgumentField} (same : f.label = g.label) : f = g := by
  revert same
  cases f <;> cases g <;> decide

end ArgumentField

namespace Place

theorem label_command (id : String) (f : CommandField) :
    (command id f).label.toList =
      ['c', 'm', 'd', '-'] ++ (id.toList ++ '-' :: f.label.toList) := by
  simp [label]

theorem label_argument (id : String) (index : Nat) (f : ArgumentField) :
    (argument id index f).label.toList = ['a', 'r', 'g', '-'] ++
      ((id.toList ++ '-' :: NumberLayout.digits index) ++ '-' :: f.label.toList) := by
  simp [label]

theorem label_injective {p q : Place} (same : p.label = q.label) : p = q := by
  replace same := congrArg String.toList same
  cases p with
  | command id f =>
    cases q with
    | command other g =>
      rw [label_command, label_command] at same
      obtain ⟨ids, fields⟩ := Text.eq_of_marked f.dash_not_mem_label g.dash_not_mem_label
        (List.append_cancel_left same)
      rw [String.toList_injective ids, CommandField.label_injective (String.toList_injective fields)]
    | argument other k g =>
      rw [label_command, label_argument] at same
      cases same
  | argument id index f =>
    cases q with
    | command other g =>
      rw [label_command, label_argument] at same
      cases same
    | argument other k g =>
      rw [label_argument, label_argument] at same
      obtain ⟨numbered, fields⟩ := Text.eq_of_marked f.dash_not_mem_label g.dash_not_mem_label
        (List.append_cancel_left same)
      obtain ⟨ids, indexes⟩ := Text.eq_of_marked (NumberLayout.dash_not_mem_digits index)
        (NumberLayout.dash_not_mem_digits k) numbered
      rw [String.toList_injective ids, NumberLayout.digits_injective indexes,
        ArgumentField.label_injective (String.toList_injective fields)]

theorem label_inj {p q : Place} : p.label = q.label ↔ p = q :=
  ⟨label_injective, congrArg label⟩

end Place

namespace Report

theorem labelled?_label (r : Report) (p : Place) : r.labelled? p.label = r.get? p := by
  have same : (fun f : Finding => f.1.label == p.label) = fun f => f.1 == p := by
    funext f
    rw [Bool.eq_iff_iff, beq_iff_eq, beq_iff_eq, Place.label_inj]
  rw [labelled?, get?, same]

/-- The labels of findings and their messages. -/
def labelled (fs : List Finding) : List (String × String) :=
  fs.map fun f => (f.1.label, f.2.message)

theorem labels_nodup (r : Report) : ((labelled r.findings).map (·.1)).Nodup := by
  rw [labelled, List.map_map, List.Nodup, List.pairwise_map]
  refine r.ordered.imp fun {f g} before same => ?_
  rw [Function.comp_apply, Function.comp_apply, Place.label_inj] at same
  exact Place.Before.irrefl g.1 (same ▸ before)

theorem putMember_perm {key value : String} {members : List (String × String)}
    (fresh : key ∉ members.map (·.1)) :
    (putMember key value members).Perm ((key, value) :: members) := by
  fun_induction putMember key value members with
  | case1 => exact .refl _
  | case2 => exact .refl _
  | case3 => exact absurd List.mem_cons_self fresh
  | case4 k v rest _ _ ih =>
    have absent := (List.ne_and_not_mem_of_not_mem_cons fresh).2
    exact ((ih absent).cons (k, v)).trans (.swap _ _ _)

theorem foldl_putMember_perm {fs : List Finding} {members : List (String × String)}
    (distinct : ((labelled fs ++ members).map (·.1)).Nodup) :
    (fs.foldl (fun members f => putMember f.1.label f.2.message members) members).Perm
      (labelled fs ++ members) := by
  induction fs generalizing members with
  | nil => exact .refl _
  | cons f rest ih =>
    have absent : f.1.label ∉ (labelled rest ++ members).map (·.1) := (List.nodup_cons.mp distinct).1
    rw [List.map_append, List.mem_append, not_or] at absent
    have moved : (labelled rest ++ putMember f.1.label f.2.message members).Perm
        (labelled (f :: rest) ++ members) :=
      ((putMember_perm absent.2).append_left _).trans List.perm_middle
    exact (ih ((moved.map _).nodup_iff.mpr distinct)).trans moved

/-- The summary holds each finding once. -/
theorem byLabel_perm (r : Report) : r.byLabel.Perm (labelled r.findings) := by
  rw [← List.append_nil (labelled r.findings)]
  refine foldl_putMember_perm ?_
  rw [List.append_nil]
  exact r.labels_nodup

theorem summary_read_back (r : Report) (m : Manifest) :
    Json.Value.ofText (r.summary m).indented = .ok (r.summary m) := by
  have errors : Json.Plain 1 (.object (r.byLabel.map fun p => (p.1, .string p.2))) := by
    refine .object fun member mem => ?_
    obtain ⟨_, _, rfl⟩ := List.mem_map.mp mem
    exact .string 0 _
  have plain : Json.Plain 2 (r.summary m) := by
    refine .object ?_
    simp only [List.forall_mem_cons]
    exact ⟨.string 1 _, .boolean 1 _, errors, fun _ none => nomatch none⟩
  exact Json.ofText_indented plain (by decide)

/-- Two places have one label only if they are one place. So a finding is looked up by its label as by its
place, and the summary of a report, read back from its text, has one error for each finding, under a label
of its own. -/
theorem labels_tell_places_apart :
    (∀ p q : Place, p.label = q.label ↔ p = q) ∧
    ∀ r : Report, (∀ p, r.labelled? p.label = r.get? p) ∧
      ∀ m : Manifest, ∃ errors : List (String × Json.Value),
        Json.Value.ofText (r.summary m).indented = .ok (.object [
          ("namespace", .string m.namespaceName),
          ("deployable", .boolean r.isEmpty),
          ("errors", .object errors)]) ∧
        errors.length = r.size ∧ (errors.map (·.1)).Nodup ∧
        errors.Perm (r.findings.map fun f => (f.1.label, .string f.2.message)) := by
  refine ⟨fun _ _ => Place.label_inj, fun r => ⟨r.labelled?_label, fun m => ?_⟩⟩
  have listed : (r.byLabel.map fun p => (p.1, Json.Value.string p.2)).Perm
      (r.findings.map fun f => (f.1.label, .string f.2.message)) := by
    have members := r.byLabel_perm.map fun p => (p.1, Json.Value.string p.2)
    rwa [labelled, List.map_map] at members
  have labels := r.labels_nodup
  rw [labelled, List.map_map] at labels
  refine ⟨_, r.summary_read_back m, ?_, ?_, listed⟩
  · rw [listed.length_eq, List.length_map, size]
  · rw [(listed.map _).nodup_iff, List.map_map]
    exact labels

/-- An id that holds what looks like an index and a field. -/
example : (Place.argument "a-0" 1 .cli).label = "arg-a-0-1-cli" ∧
    (Place.argument "a" 0 .cli).label = "arg-a-0-cli" ∧
    (Place.argument "a-0-cli" 0 .name).label = "arg-a-0-cli-0-name" := by decide

end Report

end CommandDeck
