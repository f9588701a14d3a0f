import Mathlib.Computability.Language
import Mathlib.Data.List.NodupEquivFin
import Mathlib.Data.List.Sort
import Mathlib.Data.List.TakeWhile
import Mathlib.Data.Set.Function
import Mathlib.Data.String.Basic
import Mathlib.Order.Bounds.Basic
import CommandDeck.Proofs.Manifest.Findings

/-!
# The rules for publishing as relations

What a manifest breaks is said here without checking it: the forms of texts are languages, and a rule
is broken by a command of the manifest, at a place. The report on a manifest holds at each place the
first of the messages of what is broken there. Where all ids are distinct no two broken rules share a
place, and the entries of the report are the broken rules one by one.
-/

namespace CommandDeck

/-- The texts of one or more letters of a kind. -/
def lettersOf (letter : Char → Prop) : Language Char := {s | s ≠ [] ∧ ∀ c ∈ s, letter c}

def kebabNames : Language Char :=
  lettersOf fun c => ('a' ≤ c ∧ c ≤ 'z') ∨ ('0' ≤ c ∧ c ≤ '9') ∨ c = '-'

def argumentNames : Language Char :=
  lettersOf fun c =>
    ('a' ≤ c ∧ c ≤ 'z') ∨ ('A' ≤ c ∧ c ≤ 'Z') ∨ ('0' ≤ c ∧ c ≤ '9') ∨ c = '_'

/-- One or two dashes, and then what could be the name of a command. -/
def flags : Language Char := {['-'], ['-', '-']} * kebabNames

theorem mem_lettersOf {letter : Char → Prop} {s : List Char} :
    s ∈ lettersOf letter ↔ s ≠ [] ∧ ∀ c ∈ s, letter c := Iff.rfl

theorem isKebabChar_iff (c : Char) :
    isKebabChar c = true ↔ ('a' ≤ c ∧ c ≤ 'z') ∨ ('0' ≤ c ∧ c ≤ '9') ∨ c = '-' := by
  simp [isKebabChar, or_assoc]

theorem isNameChar_iff (c : Char) :
    isNameChar c = true ↔
      ('a' ≤ c ∧ c ≤ 'z') ∨ ('A' ≤ c ∧ c ≤ 'Z') ∨ ('0' ≤ c ∧ c ≤ '9') ∨ c = '_' := by
  simp [isNameChar, or_assoc]

theorem isKebabName_iff (s : String) : isKebabName s = true ↔ s.toList ∈ kebabNames := by
  simp only [isKebabName, kebabNames, mem_lettersOf, Bool.and_eq_true, List.all_eq_true,
    isKebabChar_iff, Bool.not_eq_true', List.isEmpty_eq_false_iff]

theorem isArgumentName_iff (s : String) : isArgumentName s = true ↔ s.toList ∈ argumentNames := by
  simp only [isArgumentName, argumentNames, mem_lettersOf, Bool.and_eq_true, List.all_eq_true,
    isNameChar_iff, Bool.not_eq_true', List.isEmpty_eq_false_iff]

theorem mem_flags {s : List Char} :
    s ∈ flags ↔ ∃ body ∈ kebabNames, s = '-' :: body ∨ s = '-' :: '-' :: body := by
  rw [flags, Language.mem_mul]
  constructor
  · rintro ⟨dashes, rfl | rfl, body, hbody, rfl⟩
    · exact ⟨body, hbody, Or.inl rfl⟩
    · exact ⟨body, hbody, Or.inr rfl⟩
  · rintro ⟨body, hbody, rfl | rfl⟩
    · exact ⟨['-'], Or.inl rfl, body, hbody, rfl⟩
    · exact ⟨['-', '-'], Or.inr rfl, body, hbody, rfl⟩

/-- A second dash may be read as the first letter of the name. -/
theorem dash_cons_mem_flags_iff (rest : List Char) :
    '-' :: rest ∈ flags ↔ rest ∈ kebabNames := by
  rw [mem_flags]
  constructor
  · rintro ⟨body, hbody, same | same⟩
    · cases same
      exact hbody
    · cases same
      obtain ⟨_, letters⟩ := hbody
      exact ⟨List.cons_ne_nil _ _, List.forall_mem_cons.mpr ⟨Or.inr (Or.inr rfl), letters⟩⟩
  · exact fun h => ⟨rest, h, Or.inl rfl⟩

theorem isFlag_iff (s : String) : isFlag s = true ↔ s.toList ∈ flags := by
  rw [isFlag]
  split
  · rename_i rest chars
    rw [chars, dash_cons_mem_flags_iff, kebabNames, mem_lettersOf]
    simp only [Bool.and_eq_true, List.all_eq_true, isKebabChar_iff, Bool.not_eq_true',
      List.isEmpty_eq_false_iff]
  · rename_i undashed
    refine iff_of_false (by simp) fun h => ?_
    obtain ⟨body, _, chars | chars⟩ := mem_flags.mp h
    · exact undashed body chars
    · exact undashed ('-' :: body) chars

namespace Text

theorem trim_eq_nil_iff (s : List Char) : trim s = [] ↔ s.all isBlank = true := by
  simp only [trim, trimEnd, trimStart, List.reverse_eq_nil_iff, List.dropWhile_eq_nil_iff,
    List.mem_reverse, List.all_eq_true]
  constructor
  · intro blank c hc
    rw [← List.takeWhile_append_dropWhile (p := isBlank) (l := s)] at hc
    rcases List.mem_append.mp hc with hc | hc
    · exact List.mem_takeWhile_imp hc
    · exact blank c hc
  · intro blank c hc
    exact blank c ((List.dropWhile_sublist isBlank).subset hc)

theorem trimmed_eq_empty_iff (s : String) : trimmed s = "" ↔ isBlankText s = true := by
  rw [isBlankText, ← trim_eq_nil_iff, trimmed, String.ofList_eq_empty_iff]

end Text

/-- What a text breaks that has to be there and to be of a language. -/
inductive FormBreaks (language : Language Char) (missing wrong : Violation) (s : String) :
    Violation → Prop where
  | missing (blank : Text.trimmed s = "") : FormBreaks language missing wrong s missing
  | wrong (filled : Text.trimmed s ≠ "") (other : s.toList ∉ language) :
      FormBreaks language missing wrong s wrong

theorem formViolation_eq_some_iff {language : Language Char} {form : String → Bool}
    (decides : ∀ s, form s = true ↔ s.toList ∈ language) (missing wrong : Violation) (s : String)
    (v : Violation) :
    formViolation form missing wrong s = some v ↔ FormBreaks language missing wrong s v := by
  rw [formViolation]
  by_cases blank : Text.isBlankText s = true
  · rw [if_pos blank, Option.some.injEq]
    have none := (Text.trimmed_eq_empty_iff s).mpr blank
    constructor
    · rintro rfl
      exact .missing none
    · rintro (_ | filled)
      · rfl
      · exact absurd none filled
  · rw [if_neg blank]
    have filled : Text.trimmed s ≠ "" := fun none => blank ((Text.trimmed_eq_empty_iff s).mp none)
    by_cases formed : form s = true
    · rw [if_pos formed]
      refine iff_of_false (by simp) ?_
      rintro (none | ⟨_, other⟩)
      · exact filled none
      · exact other ((decides s).mp formed)
    · rw [if_neg formed, Option.some.injEq]
      constructor
      · rintro rfl
        exact .wrong filled fun h => formed ((decides s).mpr h)
      · rintro (none | _)
        · exact absurd none filled
        · rfl

theorem FormBreaks.unique {language : Language Char} {missing wrong v w : Violation} {s : String}
    (hv : FormBreaks language missing wrong s v) (hw : FormBreaks language missing wrong s w) :
    v = w := by
  cases hv with
  | missing blank =>
    cases hw with
    | missing => rfl
    | wrong filled => exact absurd blank filled
  | wrong filled =>
    cases hw with
    | missing blank => exact absurd blank filled
    | wrong => rfl

/-- A text that breaks nothing is of the language. -/
theorem FormBreaks.mem_of_forall_not {language : Language Char} {missing wrong : Violation}
    {s : String} (sound : ∀ v, ¬ FormBreaks language missing wrong s v) : s.toList ∈ language := by
  by_contra other
  by_cases blank : Text.trimmed s = ""
  · exact sound missing (.missing blank)
  · exact sound wrong (.wrong blank other)

namespace Command

/-- The command breaks a rule at a place, whatever other commands there are. -/
inductive Breaks (c : Command) : Place → Violation → Prop where
  | name {v : Violation} (broken : FormBreaks kebabNames .nameMissing .nameForm c.name v) :
      Breaks c (.command c.id .name) v
  | runtime (blank : Text.trimmed c.runtime = "") :
      Breaks c (.command c.id .runtime) .runtimeMissing
  | flag {i : Nat} {a : Argument} {v : Violation} (here : c.arguments[i]? = some a)
      (broken : FormBreaks flags .flagMissing .flagForm a.cli v) :
      Breaks c (.argument c.id i .cli) v
  | argumentName {i : Nat} {a : Argument} {v : Violation} (here : c.arguments[i]? = some a)
      (broken : FormBreaks argumentNames .argumentNameMissing .argumentNameForm a.name v) :
      Breaks c (.argument c.id i .name) v

theorem mem_argumentFindings (id : String) (p : Place) (v : Violation) (index : Nat)
    (as : List Argument) :
    (p, v) ∈ argumentFindings id index as ↔
      ∃ (i : Nat) (a : Argument), as[i]? = some a ∧ (p, v) ∈ a.findings id (index + i) := by
  induction as generalizing index with
  | nil => simp [argumentFindings]
  | cons b rest ih =>
    simp only [argumentFindings, List.mem_append, ih]
    constructor
    · rintro (h | ⟨i, a, here, h⟩)
      · exact ⟨0, b, rfl, h⟩
      · exact ⟨i + 1, a, here, by rwa [Nat.add_right_comm] at h⟩
    · rintro ⟨_ | i, a, here, h⟩
      · cases here
        exact Or.inl h
      · exact Or.inr ⟨i, a, here, by rwa [Nat.add_right_comm]⟩

theorem mem_argument_findings (id : String) (p : Place) (v : Violation) (index : Nat)
    (a : Argument) :
    (p, v) ∈ a.findings id index ↔
      (p = .argument id index .cli ∧ FormBreaks flags .flagMissing .flagForm a.cli v) ∨
      (p = .argument id index .name ∧
        FormBreaks argumentNames .argumentNameMissing .argumentNameForm a.name v) := by
  simp only [Argument.findings, List.mem_append, List.mem_map, Option.mem_toList,
    formViolation_eq_some_iff isFlag_iff, formViolation_eq_some_iff isArgumentName_iff,
    Prod.mk.injEq]
  constructor
  · rintro (⟨_, broken, rfl, rfl⟩ | ⟨_, broken, rfl, rfl⟩)
    · exact Or.inl ⟨rfl, broken⟩
    · exact Or.inr ⟨rfl, broken⟩
  · rintro (⟨rfl, broken⟩ | ⟨rfl, broken⟩)
    · exact Or.inl ⟨v, broken, rfl, rfl⟩
    · exact Or.inr ⟨v, broken, rfl, rfl⟩

theorem mem_findings_iff (c : Command) (p : Place) (v : Violation) :
    (p, v) ∈ c.findings ↔ c.Breaks p v := by
  simp only [findings, List.mem_append, List.mem_map, Option.mem_toList,
    formViolation_eq_some_iff isKebabName_iff, mem_argumentFindings, mem_argument_findings,
    Prod.mk.injEq, Nat.zero_add, List.mem_ite_nil_right, List.mem_singleton,
    ← Text.trimmed_eq_empty_iff]
  constructor
  · rintro ((⟨_, broken, rfl, rfl⟩ | ⟨blank, rfl, rfl⟩) | ⟨i, a, here, ⟨rfl, broken⟩ | ⟨rfl, broken⟩⟩)
    · exact .name broken
    · exact .runtime blank
    · exact .flag here broken
    · exact .argumentName here broken
  · intro h
    cases h with
    | name broken => exact Or.inl (Or.inl ⟨v, broken, rfl, rfl⟩)
    | runtime blank => exact Or.inl (Or.inr ⟨blank, rfl, rfl⟩)
    | flag here broken => exact Or.inr ⟨_, _, here, Or.inl ⟨rfl, broken⟩⟩
    | argumentName here broken => exact Or.inr ⟨_, _, here, Or.inr ⟨rfl, broken⟩⟩

theorem Breaks.commandId {c : Command} {p : Place} {v : Violation} (h : c.Breaks p v) :
    p.commandId = c.id := by
  cases h <;> rfl

theorem Breaks.ne_id {c : Command} {p : Place} {v : Violation} (h : c.Breaks p v) (id : String) :
    p ≠ .command id .id := by
  cases h <;> simp

/-- A command breaks no more than one rule at a place. -/
theorem Breaks.unique {c : Command} {p : Place} {v w : Violation} (hv : c.Breaks p v)
    (hw : c.Breaks p w) : v = w := by
  cases hv with
  | name broken =>
    cases hw with
    | name other => exact broken.unique other
  | runtime =>
    cases hw with
    | runtime => rfl
  | flag here broken =>
    cases hw with
    | flag there other =>
      cases here.symm.trans there
      exact broken.unique other
  | argumentName here broken =>
    cases hw with
    | argumentName there other =>
      cases here.symm.trans there
      exact broken.unique other

end Command

namespace Manifest

/-- The command number `k` breaks a rule at a place. It breaks the rule about ids when another command
has its id. -/
inductive Breaks (m : Manifest) (k : Nat) : Place → Violation → Prop where
  | repeated {j : Nat} {c d : Command} (here : m.commands[k]? = some c) (other : m.commands[j]? = some d)
      (apart : j ≠ k) (same : d.id = c.id) : Breaks m k (.command c.id .id) .idRepeated
  | command {c : Command} {p : Place} {v : Violation} (here : m.commands[k]? = some c)
      (broken : c.Breaks p v) : Breaks m k p v

theorem Breaks.exists_command {m : Manifest} {k : Nat} {p : Place} {v : Violation}
    (h : m.Breaks k p v) : ∃ c, m.commands[k]? = some c ∧ c.id = p.commandId := by
  cases h with
  | repeated here => exact ⟨_, here, rfl⟩
  | command here broken => exact ⟨_, here, broken.commandId.symm⟩

theorem ids_getElem?_eq_some_iff (m : Manifest) (k : Nat) (id : String) :
    m.ids[k]? = some id ↔ ∃ c : Command, m.commands[k]? = some c ∧ c.id = id := by
  rw [ids, List.getElem?_map, Option.map_eq_some_iff]

theorem two_le_count_iff (texts : List String) (s : String) :
    2 ≤ texts.count s ↔ ∃ j k : Nat, j ≠ k ∧ texts[j]? = some s ∧ texts[k]? = some s := by
  rw [← List.duplicate_iff_two_le_count, List.duplicate_iff_exists_distinct_get]
  constructor
  · rintro ⟨j, k, before, atJ, atK⟩
    exact ⟨j, k, Nat.ne_of_lt before, by simp [atJ], by simp [atK]⟩
  · rintro ⟨j, k, apart, atJ, atK⟩
    obtain ⟨hj, atJ⟩ := List.getElem?_eq_some_iff.mp atJ
    obtain ⟨hk, atK⟩ := List.getElem?_eq_some_iff.mp atK
    rcases Nat.lt_or_gt_of_ne apart with before | after
    · exact ⟨⟨j, hj⟩, ⟨k, hk⟩, before, atJ.symm, atK.symm⟩
    · exact ⟨⟨k, hk⟩, ⟨j, hj⟩, after, atK.symm, atJ.symm⟩

/-- Away from the places of ids the findings are those of the commands. -/
theorem mem_findingsAfter_of_ne {p : Place} (other : ∀ id, p ≠ .command id .id) (v : Violation)
    (seen : List String) (cs : List Command) :
    (p, v) ∈ findingsAfter seen cs ↔ ∃ c ∈ cs, c.Breaks p v := by
  induction cs generalizing seen with
  | nil => simp [findingsAfter]
  | cons c rest ih =>
    have own : (p, v) ∉ if seen.contains c.id then [(Place.command c.id .id, Violation.idRepeated)]
        else [] := by
      split
      · simp [other c.id]
      · exact List.not_mem_nil
    simp only [findingsAfter, List.mem_append, own, false_or, ih, Command.mem_findings_iff,
      List.exists_mem_cons_iff]

theorem mem_findings_iff (m : Manifest) (p : Place) (v : Violation) :
    (p, v) ∈ findingsAfter [] m.commands ↔ ∃ k, m.Breaks k p v := by
  by_cases atId : ∃ id, p = .command id .id
  · obtain ⟨id, rfl⟩ := atId
    have count := two_le_count_iff m.ids id
    simp only [ids_getElem?_eq_some_iff] at count
    rw [id_place_mem_findingsAfter]
    constructor
    · rintro ⟨rfl, _, twice⟩
      obtain ⟨j, k, apart, ⟨d, there, same⟩, c, here, rfl⟩ := count.mp (by simpa [ids] using twice)
      exact ⟨k, .repeated here there apart same⟩
    · rintro ⟨k, h⟩
      cases h with
      | repeated here there apart same =>
        have twice := count.mpr ⟨_, k, apart, ⟨_, there, same⟩, _, here, rfl⟩
        unfold ids at twice
        exact ⟨rfl, by omega, by simpa using twice⟩
      | command here broken => exact absurd rfl (broken.ne_id id)
  · have other : ∀ id, p ≠ .command id .id := fun id same => atId ⟨id, same⟩
    rw [mem_findingsAfter_of_ne other]
    constructor
    · rintro ⟨c, hc, broken⟩
      obtain ⟨k, here⟩ := List.mem_iff_getElem?.mp hc
      exact ⟨k, .command here broken⟩
    · rintro ⟨k, h⟩
      cases h with
      | repeated => exact absurd rfl (other _)
      | command here broken => exact ⟨_, List.mem_of_getElem? here, broken⟩

end Manifest

namespace Violation

theorem first_le (v w : Violation) :
    (v.first w).message ≤ v.message ∧ (v.first w).message ≤ w.message := by
  by_cases h : w.message < v.message
  · rw [first_of_lt h]
    exact ⟨h.le, le_rfl⟩
  · rw [first_of_not_lt h]
    exact ⟨le_rfl, String.not_lt.mp h⟩

theorem first_eq_or (v w : Violation) : v.first w = v ∨ v.first w = w := by
  by_cases h : w.message < v.message
  · exact Or.inr (first_of_lt h)
  · exact Or.inl (first_of_not_lt h)

/-- Of the violations recorded at a place one stays, and no other has a message before its own. -/
theorem foldl_joined_least (vs : List Violation) (held : Violation) :
    ∃ v ∈ held :: vs, vs.foldl joined (some held) = some v ∧
      ∀ w ∈ held :: vs, v.message ≤ w.message := by
  induction vs generalizing held with
  | nil => exact ⟨held, by simp, rfl, by simp⟩
  | cons w rest ih =>
    obtain ⟨v, hv, left, least⟩ := ih (held.first w)
    obtain ⟨before, least⟩ := List.forall_mem_cons.mp least
    obtain ⟨beforeHeld, beforeNext⟩ := first_le held w
    refine ⟨v, ?_, left, ?_⟩
    · rcases List.mem_cons.mp hv with rfl | hv
      · rcases first_eq_or held w with same | same <;> simp [same]
      · exact List.mem_cons_of_mem _ (List.mem_cons_of_mem _ hv)
    · simp only [List.forall_mem_cons]
      exact ⟨before.trans beforeHeld, before.trans beforeNext, least⟩

end Violation

namespace Report

theorem mem_findings_iff_get? (r : Report) (p : Place) (v : Violation) :
    (p, v) ∈ r.findings ↔ r.get? p = some v := by
  obtain ⟨findings, ordered⟩ := r
  change _ ↔ (findings.find? fun f => f.1 == p).map (·.2) = some v
  induction findings with
  | nil => simp
  | cons f rest ih =>
    obtain ⟨before, ordered⟩ := List.pairwise_cons.mp ordered
    rw [List.mem_cons, List.find?_cons]
    by_cases here : f.1 = p
    · subst here
      have absent : (f.1, v) ∉ rest := fun h => Place.Before.irrefl f.1 (before (f.1, v) h)
      simp [absent, Prod.ext_iff, eq_comm]
    · have other : (p, v) ≠ f := fun same => here (by rw [← same])
      simp only [beq_eq_false_iff_ne.mpr here, other, false_or, ih ordered]

/-- A report is known by what it holds at each place. -/
theorem ext_get? {r s : Report} (same : ∀ p, r.get? p = s.get? p) : r = s := by
  have irreflexive : Std.Irrefl fun a b : Finding => a.1.Before b.1 :=
    ⟨fun a => Place.Before.irrefl a.1⟩
  have antisymmetric : Std.Antisymm fun a b : Finding => a.1.Before b.1 :=
    ⟨fun a _ before after => absurd (before.trans after) (Place.Before.irrefl a.1)⟩
  refine ext (List.Pairwise.eq_of_mem_iff r.ordered s.ordered ?_)
  rintro ⟨p, v⟩
  rw [mem_findings_iff_get?, mem_findings_iff_get?, same p]

theorem get?_ofFindings (fs : List Finding) (p : Place) :
    (ofFindings fs).get? p = (violationsAt p fs).foldl Violation.joined none :=
  get?_insertAll empty fs p

theorem get?_ofFindings_eq_none_iff (fs : List Finding) (p : Place) :
    (ofFindings fs).get? p = none ↔ ∀ v, (p, v) ∉ fs := by
  simp only [get?_ofFindings, ← mem_violationsAt, ← List.eq_nil_iff_forall_not_mem]
  constructor
  · intro none
    by_contra found
    exact Violation.foldl_joined_ne_none (Or.inr found) none
  · intro none
    rw [none]
    rfl

/-- A report of findings holds one that was found at the place, with the least message of these. -/
theorem get?_ofFindings_least {fs : List Finding} {p : Place} {v : Violation}
    (held : (ofFindings fs).get? p = some v) :
    (p, v) ∈ fs ∧ ∀ w, (p, w) ∈ fs → v.message ≤ w.message := by
  rw [get?_ofFindings] at held
  simp only [← mem_violationsAt]
  cases found : violationsAt p fs with
  | nil =>
    rw [found] at held
    cases held
  | cons first rest =>
    obtain ⟨w, hw, left, least⟩ := Violation.foldl_joined_least rest first
    rw [found] at held
    cases left.symm.trans held
    exact ⟨hw, least⟩

theorem findings_nodup (r : Report) : r.findings.Nodup := by
  refine r.ordered.imp ?_
  rintro f g before rfl
  exact Place.Before.irrefl f.1 before

end Report

namespace Manifest

/-- Where ids are distinct, no place has two broken rules. -/
theorem breaks_unique {m : Manifest} (distinct : m.ids.Nodup) {j k : Nat} {p : Place}
    {v w : Violation} (hv : m.Breaks j p v) (hw : m.Breaks k p w) : j = k ∧ v = w := by
  have atJ := (m.ids_getElem?_eq_some_iff j p.commandId).mpr hv.exists_command
  have atK := (m.ids_getElem?_eq_some_iff k p.commandId).mpr hw.exists_command
  obtain ⟨inside, _⟩ := List.getElem?_eq_some_iff.mp atJ
  obtain rfl := (List.getElem?_inj inside distinct).mp (atJ.trans atK.symm)
  refine ⟨rfl, ?_⟩
  cases hv with
  | @repeated _ c =>
    generalize c.id = id at hw
    cases hw with
    | repeated => rfl
    | command _ broken => exact absurd rfl (broken.ne_id id)
  | command here broken =>
    cases hw with
    | repeated => exact absurd rfl (broken.ne_id _)
    | command there other =>
      cases here.symm.trans there
      exact broken.unique other

theorem validate_get?_eq_none_iff (m : Manifest) (p : Place) :
    m.validate.get? p = none ↔ ∀ k v, ¬ m.Breaks k p v := by
  simp only [validate, Report.get?_ofFindings_eq_none_iff, mem_findings_iff, not_exists]
  exact forall_comm

theorem validate_get?_least {m : Manifest} {p : Place} {v : Violation}
    (held : m.validate.get? p = some v) :
    (∃ k, m.Breaks k p v) ∧ ∀ k w, m.Breaks k p w → v.message ≤ w.message := by
  obtain ⟨found, least⟩ := Report.get?_ofFindings_least held
  exact ⟨(m.mem_findings_iff p v).mp found,
    fun k w broken => least w ((m.mem_findings_iff p w).mpr ⟨k, broken⟩)⟩

theorem validate_get?_isLeast (m : Manifest) (p : Place) (t : String) :
    (m.validate.get? p).map Violation.message = some t ↔
      IsLeast {t | ∃ k v, m.Breaks k p v ∧ v.message = t} t := by
  cases held : m.validate.get? p with
  | none =>
    refine iff_of_false (by simp) ?_
    rintro ⟨⟨k, v, broken, _⟩, _⟩
    exact (m.validate_get?_eq_none_iff p).mp held k v broken
  | some v =>
    obtain ⟨⟨k, broken⟩, least⟩ := validate_get?_least held
    have isLeast : IsLeast {t | ∃ k v, m.Breaks k p v ∧ v.message = t} v.message := by
      refine ⟨⟨k, v, broken, rfl⟩, ?_⟩
      rintro _ ⟨j, w, other, rfl⟩
      exact least j w other
    rw [Option.map_some, Option.some.injEq]
    constructor
    · rintro rfl
      exact isLeast
    · exact isLeast.unique

theorem validate_isEmpty_iff (m : Manifest) :
    m.validate.isEmpty = true ↔ m.ids.Nodup ∧ ∀ c ∈ m.commands, ∀ p v, ¬ c.Breaks p v := by
  simp only [Report.isEmpty_iff_get?, validate_get?_eq_none_iff]
  constructor
  · intro sound
    refine ⟨ids_nodup_of_validate ?_, ?_⟩
    · simpa only [Report.isEmpty_iff_get?, validate_get?_eq_none_iff] using sound
    · intro c hc p v broken
      obtain ⟨k, here⟩ := List.mem_iff_getElem?.mp hc
      exact sound p k v (.command here broken)
  · rintro ⟨distinct, sound⟩ p k v broken
    cases broken with
    | repeated here other apart same =>
      have twice := (two_le_count_iff m.ids _).mpr ⟨_, k, apart,
        (m.ids_getElem?_eq_some_iff _ _).mpr ⟨_, other, same⟩,
        (m.ids_getElem?_eq_some_iff _ _).mpr ⟨_, here, rfl⟩⟩
      exact absurd (twice.trans (List.nodup_iff_count_le_one.mp distinct _)) (by decide)
    | command here broken => exact sound _ (List.mem_of_getElem? here) p v broken

/-- The commands of a manifest that may be published have names, and their arguments flags. -/
theorem forms_of_validate {m : Manifest} (valid : m.validate.isEmpty = true) {c : Command}
    (hc : c ∈ m.commands) :
    c.name.toList ∈ kebabNames ∧ ∀ a ∈ c.arguments, a.cli.toList ∈ flags := by
  have sound := ((validate_isEmpty_iff m).mp valid).2 c hc
  constructor
  · exact FormBreaks.mem_of_forall_not fun v broken => sound _ v (.name broken)
  · intro a ha
    obtain ⟨i, here⟩ := List.mem_iff_getElem?.mp ha
    exact FormBreaks.mem_of_forall_not fun v broken => sound _ v (.flag here broken)

/-- Where ids are distinct, the entries of a report are the broken rules. -/
theorem findings_bijOn {m : Manifest} (distinct : m.ids.Nodup) :
    Set.BijOn (fun x : Nat × Finding => x.2) {x | m.Breaks x.1 x.2.1 x.2.2}
      {f | f ∈ m.validate.findings} := by
  refine ⟨?_, ?_, ?_⟩
  · rintro ⟨k, p, v⟩ broken
    cases held : m.validate.get? p with
    | none => exact absurd broken ((m.validate_get?_eq_none_iff p).mp held k v)
    | some w =>
      obtain ⟨⟨j, other⟩, _⟩ := validate_get?_least held
      obtain ⟨rfl, rfl⟩ := breaks_unique distinct broken other
      exact (m.validate.mem_findings_iff_get? p v).mpr held
  · rintro ⟨j, p, v⟩ hv ⟨k, q, w⟩ hw same
    cases same
    obtain ⟨rfl, _⟩ := breaks_unique distinct hv hw
    rfl
  · rintro ⟨p, v⟩ entry
    obtain ⟨⟨k, broken⟩, _⟩ :=
      validate_get?_least ((m.validate.mem_findings_iff_get? p v).mp entry)
    exact ⟨(k, p, v), broken, rfl⟩

/-- The report on a manifest says at each place the first message of the rules that are broken there,
and nothing where none is. So a manifest may be published exactly when its ids are distinct and no
command breaks a rule, and if its ids are distinct the entries of the report are the broken rules, one
each. -/
theorem report_of_broken_rules (m : Manifest) :
    (∀ p t, (m.validate.get? p).map Violation.message = some t ↔
      IsLeast {t | ∃ k v, m.Breaks k p v ∧ v.message = t} t) ∧
    (∀ p, m.validate.get? p = none ↔ ∀ k v, ¬ m.Breaks k p v) ∧
    (m.validate.isEmpty = true ↔ m.ids.Nodup ∧ ∀ c ∈ m.commands, ∀ p v, ¬ c.Breaks p v) ∧
    (m.ids.Nodup →
      m.validate.findings.Nodup ∧
      Set.BijOn (fun x : Nat × Finding => x.2) {x | m.Breaks x.1 x.2.1 x.2.2}
        {f | f ∈ m.validate.findings}) := by
  exact ⟨m.validate_get?_isLeast, m.validate_get?_eq_none_iff, m.validate_isEmpty_iff,
    fun distinct => ⟨m.validate.findings_nodup, findings_bijOn distinct⟩⟩

end Manifest

end CommandDeck
