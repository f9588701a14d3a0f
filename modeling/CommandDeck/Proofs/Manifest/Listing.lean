import Mathlib.Data.List.Destutter
import CommandDeck.Manifest.Summary
import CommandDeck.Proofs.Manifest.Rules

/-!
# Listings under ids

A listing shows the findings of a report in the order of their places, and a line with an id before each
finding of another command than the one before. The places of commands come before those of arguments. So
a command whose findings are of both kinds is listed in two sections, unless nothing stands between
them. The id of which all lines are taken to be before the first is the empty one, and a command that has
it goes without its line where its findings come first.
-/

namespace CommandDeck

namespace Report

/-- The findings of `current` that come first, and the sections after them: each has the findings of one
command, up to the first of another. -/
def sectionsAfter (current : String) :
    List Finding → List Finding × List (String × List Finding)
  | [] => ([], [])
  | f :: rest =>
    if f.1.commandId = current then
      (f :: (sectionsAfter current rest).1, (sectionsAfter current rest).2)
    else
      ([], (f.1.commandId, f :: (sectionsAfter f.1.commandId rest).1) ::
        (sectionsAfter f.1.commandId rest).2)

def titleLine (colours : Bool) : String := (Style.strong .red).paint colours "Validation errors:"

def headLine (colours : Bool) (id : String) : String :=
  " " ++ (Style.strong .blue).paint colours id ++ ":"

/-- An id and the findings below it. -/
def sectionLines (colours : Bool) (s : String × List Finding) : List String :=
  headLine colours s.1 :: s.2.map (findingLine colours)

theorem linesAfter_eq (colours : Bool) (current : String) (fs : List Finding) :
    linesAfter colours current fs = (sectionsAfter current fs).1.map (findingLine colours) ++
      (sectionsAfter current fs).2.flatMap (sectionLines colours) := by
  fun_induction sectionsAfter current fs with
  | case1 => rfl
  | case2 f rest ih => simp [linesAfter, ih]
  | case3 current f rest other ih => simp [linesAfter, other, ih, sectionLines, headLine]

theorem sectionsAfter_flatten (current : String) (fs : List Finding) :
    (sectionsAfter current fs).1 ++ (sectionsAfter current fs).2.flatMap (·.2) = fs := by
  fun_induction sectionsAfter current fs with
  | case1 => rfl
  | case2 f rest ih => rw [List.cons_append, ih]
  | case3 current f rest other ih => rw [List.nil_append, List.flatMap_cons, List.cons_append, ih]

theorem commandId_of_mem_first {current : String} {fs : List Finding} {f : Finding}
    (mem : f ∈ (sectionsAfter current fs).1) : f.1.commandId = current := by
  fun_induction sectionsAfter current fs with
  | case1 => exact absurd mem List.not_mem_nil
  | case2 g rest ih =>
    rcases List.mem_cons.mp mem with rfl | mem
    · rfl
    · exact ih mem
  | case3 => exact absurd mem List.not_mem_nil

theorem commandId_of_mem_section {current : String} {fs : List Finding} {s : String × List Finding}
    (mem : s ∈ (sectionsAfter current fs).2) : s.2 ≠ [] ∧ ∀ f ∈ s.2, f.1.commandId = s.1 := by
  fun_induction sectionsAfter current fs with
  | case1 => exact absurd mem List.not_mem_nil
  | case2 g rest ih => exact ih mem
  | case3 current g rest other ih =>
    rcases List.mem_cons.mp mem with rfl | mem
    · exact ⟨List.cons_ne_nil _ _, List.forall_mem_cons.mpr ⟨rfl, fun f => commandId_of_mem_first⟩⟩
    · exact ih mem

/-- The ids of the commands of the findings, in their order. -/
def concernedIds (r : Report) : List String := r.findings.map (·.1.commandId)

/-- The ids over the sections are those of the findings, without one that repeats the last. -/
theorem heads_sectionsAfter (current : String) (fs : List Finding) :
    current :: (sectionsAfter current fs).2.map (·.1) =
      (fs.map (·.1.commandId)).destutter' (· ≠ ·) current := by
  fun_induction sectionsAfter current fs with
  | case1 => rfl
  | case2 f rest ih =>
    rw [List.map_cons, List.destutter'_cons_neg _ (by simp)]
    exact ih
  | case3 current f rest other ih =>
    rw [List.map_cons, List.map_cons, List.destutter'_cons_pos _ (Ne.symm other), ih]

end Report

/-- Between two equal items of the list there are no others. -/
def Together {α : Type} (l : List α) : Prop := ∀ x y, [x, y, x].Sublist l → x = y

theorem together_cons_self {α : Type} {a : α} {l : List α} : Together (a :: a :: l) ↔ Together (a :: l) := by
  constructor
  · exact fun together x y between => together x y (between.cons a)
  · intro together x y between
    rcases List.sublist_cons_iff.mp between with between | ⟨_, eq, between⟩
    · exact together x y between
    · cases eq
      rcases List.sublist_cons_iff.mp between with between | ⟨_, eq, _⟩
      · exact together a y (between.cons_cons a)
      · cases eq
        rfl

theorem together_cons_of_ne {α : Type} {a b : α} {l : List α} (apart : a ≠ b) :
    Together (a :: b :: l) ↔ a ∉ b :: l ∧ Together (b :: l) := by
  constructor
  · intro together
    refine ⟨fun mem => ?_, fun x y between => together x y (between.cons a)⟩
    have later : a ∈ l := List.mem_of_ne_of_mem apart mem
    exact apart (together a b (((List.singleton_sublist.mpr later).cons_cons b).cons_cons a))
  · rintro ⟨absent, together⟩ x y between
    rcases List.sublist_cons_iff.mp between with between | ⟨_, eq, between⟩
    · exact together x y between
    · cases eq
      exact absurd (between.subset (by simp)) absent

section

variable {α : Type} [DecidableEq α]

theorem mem_destutter'_ne {a b : α} {l : List α} :
    b ∈ l.destutter' (· ≠ ·) a ↔ b ∈ a :: l := by
  induction l generalizing a with
  | nil => rfl
  | cons c l ih =>
    by_cases same : a = c
    · subst same
      rw [List.destutter'_cons_neg _ (by simp), ih]
      simp
    · rw [List.destutter'_cons_pos _ same, List.mem_cons, ih, ← List.mem_cons]

theorem nodup_destutter'_ne_iff {a : α} {l : List α} :
    (l.destutter' (· ≠ ·) a).Nodup ↔ Together (a :: l) := by
  induction l generalizing a with
  | nil =>
    refine iff_of_true (by simp) fun x y between => ?_
    simpa using between.length_le
  | cons b l ih =>
    by_cases same : a = b
    · subst same
      rw [List.destutter'_cons_neg _ (by simp), ih, together_cons_self]
    · rw [List.destutter'_cons_pos _ same, List.nodup_cons, ih, mem_destutter'_ne,
        together_cons_of_ne same]

end

section

variable {α : Type} [LinearOrder α]

theorem head_ne_iff {least : α} {l : List α} (first : ∀ x, least ≤ x)
    (sorted : l.Pairwise (· ≤ ·)) : l.head? ≠ some least ↔ least ∉ l := by
  cases l with
  | nil => simp
  | cons a rest =>
    obtain ⟨before, _⟩ := List.pairwise_cons.mp sorted
    rw [List.head?_cons, Ne, Option.some_inj, not_iff_not]
    constructor
    · rintro rfl
      exact List.mem_cons_self
    · intro mem
      rcases List.mem_cons.mp mem with same | mem
      · exact same.symm
      · exact le_antisymm (before least mem) (first a)

theorem pair_sublist {l : List α} (sorted : l.Pairwise (· ≤ ·)) {x y : α} (before : x < y)
    (memX : x ∈ l) (memY : y ∈ l) : [x, y].Sublist l := by
  have distinct : [x, y].Nodup := by simp [before.ne]
  have mem : [x, y] ⊆ l := by simp [memX, memY]
  exact List.sublist_of_subperm_of_pairwise (distinct.subperm mem) (by simp [before.le]) sorted

theorem together_of_sorted {l : List α} (sorted : l.Pairwise (· ≤ ·)) : Together l := by
  intro x y between
  have ordered := sorted.sublist between
  simp only [List.pairwise_cons, List.forall_mem_cons] at ordered
  exact le_antisymm ordered.1.1 ordered.2.1.1

/-- Nothing stands between equal items of two sorted lists when one that is in both ends the first and
begins the second. -/
theorem together_append_iff {l k : List α} (sortedL : l.Pairwise (· ≤ ·))
    (sortedK : k.Pairwise (· ≤ ·)) :
    Together (l ++ k) ↔ ∀ x ∈ l, x ∈ k → (∀ y ∈ l, y ≤ x) ∧ ∀ y ∈ k, x ≤ y := by
  constructor
  · intro together x memL memK
    constructor
    · intro y mem
      by_contra later
      have after := pair_sublist sortedL (not_le.mp later) memL mem
      exact later (together x y (after.append (List.singleton_sublist.mpr memK))).ge
    · intro y mem
      by_contra earlier
      have before := pair_sublist sortedK (not_le.mp earlier) mem memK
      exact earlier (together x y ((List.singleton_sublist.mpr memL).append before)).le
  · intro joined x y between
    obtain ⟨first, second, split, subL, subK⟩ := List.sublist_append_iff.mp between
    -- of the three items, none, one, two or all are in the first list
    rcases first with _ | ⟨a, _ | ⟨b, _ | ⟨c, rest⟩⟩⟩
    · exact together_of_sorted sortedK x y (split ▸ subK)
    · cases split
      obtain ⟨before, _⟩ := List.pairwise_cons.mp (sortedK.sublist subK)
      exact le_antisymm
        ((joined x (subL.subset (by simp)) (subK.subset (by simp))).2 y (subK.subset (by simp)))
        (before x (by simp))
    · cases split
      obtain ⟨before, _⟩ := List.pairwise_cons.mp (sortedL.sublist subL)
      exact le_antisymm (before y (by simp))
        ((joined x (subL.subset (by simp)) (subK.subset (by simp))).1 y (subL.subset (by simp)))
    · simp only [List.cons_append, List.cons.injEq] at split
      obtain ⟨rfl, rfl, rfl, _⟩ := split
      exact together_of_sorted sortedL x y ((List.sublist_append_left [x, y, x] rest).trans subL)

theorem nodup_of_sorted_chain {l : List α} (sorted : l.Pairwise (· ≤ ·))
    (chain : l.IsChain (· ≠ ·)) : l.Nodup := by
  cases l with
  | nil => exact .nil
  | cons a rest =>
    rw [← List.destutter'_of_isChain_cons _ _ chain, nodup_destutter'_ne_iff]
    exact together_of_sorted sorted

end

theorem Text.empty_le (s : String) : "" ≤ s := by
  refine String.not_lt.mp ?_
  rw [String.lt_iff]
  exact List.not_lt_nil _

theorem Text.getLast?_append {s t : String} {c : Char} (last : t.toList.getLast? = some c) :
    (s ++ t).toList.getLast? = some c := by
  rw [String.toList_append, List.getLast?_append, last, Option.some_or]

namespace Violation

theorem message_ends (v : Violation) : ∃ c, v.message.toList.getLast? = some c ∧ c ≠ ':' := by
  cases v with
  | idTaken owner => exact ⟨'\'', Text.getLast?_append rfl, by decide⟩
  | nameForm => exact ⟨')', rfl, by decide⟩
  | argumentNameForm => exact ⟨'y', rfl, by decide⟩
  | flagForm => exact ⟨'-', rfl, by decide⟩
  | idRepeated => exact ⟨'t', rfl, by decide⟩
  | _ => exact ⟨'d', rfl, by decide⟩

end Violation

namespace Place

/-- The place is one of a command, not of an argument. -/
def isOfCommand : Place → Bool
  | command _ _ => true
  | argument _ _ _ => false

theorem Before.commandId_le {p q : Place} (before : p.Before q)
    (alike : p.isOfCommand = q.isOfCommand) : p.commandId ≤ q.commandId := by
  cases p with
  | command i f =>
    cases q with
    | command j g =>
      rcases before with before | ⟨rfl, _⟩
      · exact before.le
      · exact le_rfl
    | argument => cases alike
  | argument i m f =>
    cases q with
    | command => cases alike
    | argument j n g =>
      rcases before with before | ⟨rfl, _⟩
      · exact before.le
      · exact le_rfl

theorem Before.isOfCommand_le {p q : Place} (before : p.Before q) (later : q.isOfCommand = true) :
    p.isOfCommand = true := by
  cases p with
  | command => rfl
  | argument =>
    cases q with
    | command => exact before.elim
    | argument => cases later

end Place

namespace Report

/-- The line is one of those that have findings below them: it ends in a colon. -/
def isHead (line : String) : Bool := line.toList.getLast? == some ':'

theorem isHead_headLine (colours : Bool) (id : String) : isHead (headLine colours id) = true := by
  rw [isHead, headLine, Text.getLast?_append rfl]
  rfl

theorem isHead_findingLine (colours : Bool) (f : Finding) :
    isHead (findingLine colours f) = false := by
  obtain ⟨c, last, other⟩ := f.2.message_ends
  rw [isHead, findingLine, Text.getLast?_append last]
  simpa using other

theorem countP_isHead (colours : Bool) (first : List Finding)
    (sections : List (String × List Finding)) :
    (first.map (findingLine colours) ++ sections.flatMap (sectionLines colours)).countP isHead =
      sections.length := by
  have none (fs : List Finding) : (fs.map (findingLine colours)).countP isHead = 0 := by
    rw [List.countP_eq_zero]
    intro line mem
    obtain ⟨f, _, rfl⟩ := List.mem_map.mp mem
    simp [isHead_findingLine]
  have one (s : String × List Finding) : (sectionLines colours s).countP isHead = 1 := by
    rw [sectionLines, List.countP_cons_of_pos (isHead_headLine colours s.1), none]
  rw [List.countP_append, none, Nat.zero_add, List.countP_flatMap]
  simp [Function.comp_def, one]

variable (r : Report)

/-- A command with the id breaks a rule itself. -/
def HasCommandFinding (id : String) : Prop := ∃ field v, (Place.command id field, v) ∈ r.findings

/-- A command with the id has an argument that breaks a rule. -/
def HasArgumentFinding (id : String) : Prop :=
  ∃ index field v, (Place.argument id index field, v) ∈ r.findings

/-- The ids of the commands that break a rule themselves, in the order of the findings. -/
def commandIds : List String :=
  (r.findings.filter fun f => f.1.isOfCommand).map (·.1.commandId)

/-- The ids of the commands with an argument that breaks a rule, in the order of the findings. -/
def argumentIds : List String :=
  (r.findings.filter fun f => !f.1.isOfCommand).map (·.1.commandId)

theorem mem_commandIds {id : String} : id ∈ r.commandIds ↔ r.HasCommandFinding id := by
  constructor
  · intro mem
    obtain ⟨⟨p, v⟩, found, rfl⟩ := List.mem_map.mp mem
    cases p with
    | command i field => exact ⟨field, v, (List.mem_filter.mp found).1⟩
    | argument => cases (List.mem_filter.mp found).2
  · rintro ⟨field, v, found⟩
    exact List.mem_map.mpr ⟨_, List.mem_filter.mpr ⟨found, rfl⟩, rfl⟩

theorem mem_argumentIds {id : String} : id ∈ r.argumentIds ↔ r.HasArgumentFinding id := by
  constructor
  · intro mem
    obtain ⟨⟨p, v⟩, found, rfl⟩ := List.mem_map.mp mem
    cases p with
    | command => cases (List.mem_filter.mp found).2
    | argument i index field => exact ⟨index, field, v, (List.mem_filter.mp found).1⟩
  · rintro ⟨index, field, v, found⟩
    exact List.mem_map.mpr ⟨_, List.mem_filter.mpr ⟨found, rfl⟩, rfl⟩

/-- The findings of commands come first, then those of arguments. -/
theorem parted_of_ordered {fs : List Finding} (ordered : fs.Pairwise fun a b => a.1.Before b.1) :
    fs = (fs.filter fun f => f.1.isOfCommand) ++ fs.filter fun f => !f.1.isOfCommand := by
  induction fs with
  | nil => rfl
  | cons f rest ih =>
    obtain ⟨first, ordered⟩ := List.pairwise_cons.mp ordered
    by_cases own : f.1.isOfCommand = true
    · simp only [List.filter_cons, own, if_true, Bool.not_true, Bool.false_eq_true, if_false,
        List.cons_append]
      rw [← ih ordered]
    · have later : ∀ g ∈ f :: rest, ¬ g.1.isOfCommand = true :=
        List.forall_mem_cons.mpr ⟨own, fun g mem h => own ((first g mem).isOfCommand_le h)⟩
      rw [List.filter_eq_nil_iff.mpr later, List.filter_eq_self.mpr (by simpa using later),
        List.nil_append]

theorem concernedIds_eq : r.concernedIds = r.commandIds ++ r.argumentIds := by
  rw [commandIds, argumentIds, ← List.map_append, ← parted_of_ordered r.ordered, concernedIds]

theorem sorted_ids_of_alike (kind : Bool) {fs : List Finding}
    (ordered : fs.Pairwise fun a b => a.1.Before b.1)
    (alike : ∀ f ∈ fs, f.1.isOfCommand = kind) : (fs.map (·.1.commandId)).Pairwise (· ≤ ·) := by
  refine List.pairwise_map.mpr (ordered.imp_of_mem fun {f g} memF memG before => ?_)
  exact before.commandId_le ((alike f memF).trans (alike g memG).symm)

theorem commandIds_sorted : r.commandIds.Pairwise (· ≤ ·) :=
  sorted_ids_of_alike true (r.ordered.filter _) fun _ mem => (List.mem_filter.mp mem).2

theorem argumentIds_sorted : r.argumentIds.Pairwise (· ≤ ·) :=
  sorted_ids_of_alike false (r.ordered.filter _) fun _ mem => by
    simpa using (List.mem_filter.mp mem).2

/-- The empty id comes first when it has findings of its own, or none come before those of its
arguments. -/
theorem first_named_iff : r.concernedIds.head? ≠ some "" ↔
    ¬ r.HasCommandFinding "" ∧ (r.HasArgumentFinding "" → ∃ id, r.HasCommandFinding id) := by
  simp only [concernedIds_eq, ← mem_commandIds, ← mem_argumentIds]
  have own := head_ne_iff Text.empty_le r.commandIds_sorted
  have inner := head_ne_iff Text.empty_le r.argumentIds_sorted
  cases found : r.commandIds with
  | nil => simpa using inner
  | cons id rest =>
    rw [found] at own
    rw [List.cons_append, List.head?_cons, ← List.head?_cons, own]
    exact (and_iff_left fun _ => ⟨id, List.mem_cons_self⟩).symm

/-- No finding of another command comes between two of one command when, of a command with findings of
both kinds, the first kind ends with it and the second begins with it. -/
theorem together_iff : Together r.concernedIds ↔
    ∀ id, r.HasCommandFinding id → r.HasArgumentFinding id →
      (∀ j, r.HasCommandFinding j → j ≤ id) ∧ ∀ j, r.HasArgumentFinding j → id ≤ j := by
  simp only [concernedIds_eq, ← mem_commandIds, ← mem_argumentIds]
  exact together_append_iff r.commandIds_sorted r.argumentIds_sorted

/-- The lines are a title and sections, one for each command with a finding. Its section is the line with
its id and, below it, all of its findings and no others. -/
def Grouped (colours : Bool) (lines : List String) : Prop :=
  ∃ sections : List (String × List Finding),
    lines = titleLine colours :: sections.flatMap (sectionLines colours) ∧
    (sections.map (·.1)).Nodup ∧
    (∀ id, id ∈ sections.map (·.1) ↔ r.concerns id = true) ∧
    ∀ s ∈ sections, s.2.Perm (r.findings.filter fun f => f.1.commandId = s.1)

theorem mem_concernedIds {id : String} : id ∈ r.concernedIds ↔ r.concerns id = true := by
  simp [concernedIds, concerns]

theorem listing_eq (colours : Bool) :
    r.listing colours = titleLine colours ::
      ((sectionsAfter "" r.findings).1.map (findingLine colours) ++
        (sectionsAfter "" r.findings).2.flatMap (sectionLines colours)) := by
  rw [← linesAfter_eq]
  rfl

/-- Sections whose ids are distinct have each all that was found of its command. -/
theorem perm_filter_of_section {sections : List (String × List Finding)}
    (distinct : (sections.map (·.1)).Nodup) (whole : sections.flatMap (·.2) = r.findings)
    (own : ∀ s ∈ sections, ∀ f ∈ s.2, f.1.commandId = s.1) {s : String × List Finding}
    (mem : s ∈ sections) : s.2.Perm (r.findings.filter fun f => f.1.commandId = s.1) := by
  have part : s.2.Sublist r.findings := by
    rw [← whole]
    exact List.sublist_flatten_of_mem (List.mem_map_of_mem mem)
  refine (List.perm_ext_iff_of_nodup (part.nodup r.findings_nodup)
    (r.findings_nodup.filter _)).mpr fun f => ?_
  rw [List.mem_filter, decide_eq_true_eq]
  constructor
  · exact fun inside => ⟨part.subset inside, own s mem f inside⟩
  · rintro ⟨found, same⟩
    rw [← whole] at found
    obtain ⟨t, memT, inside⟩ := List.mem_flatMap.mp found
    obtain rfl := List.inj_on_of_nodup_map distinct memT mem ((own t memT f inside).symm.trans same)
    exact inside

/-- The ids over the sections of findings that do not begin with those of `current`. -/
theorem sectionsAfter_of_other {current : String} {fs : List Finding}
    (other : (fs.map (·.1.commandId)).head? ≠ some current) :
    (sectionsAfter current fs).1 = [] ∧
      (∀ id, id ∈ (sectionsAfter current fs).2.map (·.1) ↔ id ∈ fs.map (·.1.commandId)) ∧
      (((sectionsAfter current fs).2.map (·.1)).Nodup ↔ Together (fs.map (·.1.commandId))) := by
  cases fs with
  | nil => exact ⟨rfl, fun _ => Iff.rfl, iff_of_true .nil fun x y between => nomatch between⟩
  | cons f rest =>
    have apart : f.1.commandId ≠ current := fun same => other (congrArg some same)
    have heads := heads_sectionsAfter current (f :: rest)
    rw [List.map_cons, List.destutter'_cons_pos _ (Ne.symm apart)] at heads
    rw [(List.cons.inj heads).2]
    exact ⟨by rw [sectionsAfter, if_neg apart], fun id => mem_destutter'_ne, nodup_destutter'_ne_iff⟩

theorem Grouped.named {r : Report} {colours : Bool} (h : r.Grouped colours (r.listing colours)) :
    r.concernedIds.head? ≠ some "" := by
  intro start
  obtain ⟨sections, lines, _, ids, _⟩ := h
  obtain ⟨f, first, empty⟩ : ∃ f, r.findings.head? = some f ∧ f.1.commandId = "" := by
    simpa [concernedIds] using start
  obtain ⟨rest, found⟩ := List.head?_eq_some_iff.mp first
  rw [listing_eq, found, sectionsAfter, if_pos empty] at lines
  cases sections with
  | nil =>
    have concerned : f.1.commandId ∈ r.concernedIds := by simp [concernedIds, found]
    exact absurd ((ids _).mpr (r.mem_concernedIds.mp concerned)) List.not_mem_nil
  | cons s more =>
    have same : findingLine colours f = headLine colours s.1 :=
      (List.cons.inj (List.cons.inj lines).2).1
    have head := isHead_headLine colours s.1
    rw [← same, isHead_findingLine] at head
    cases head

theorem Grouped.nodup_heads {r : Report} {colours : Bool}
    (h : r.Grouped colours (r.listing colours)) :
    ((sectionsAfter "" r.findings).2.map (·.1)).Nodup := by
  obtain ⟨_, mem, _⟩ := sectionsAfter_of_other h.named
  obtain ⟨sections, lines, distinct, ids, _⟩ := h
  rw [listing_eq] at lines
  have count := congrArg (List.countP isHead) (List.cons.inj lines).2
  rw [countP_isHead, ← List.nil_append (sections.flatMap _)] at count
  have all : sections.map (·.1) ⊆ (sectionsAfter "" r.findings).2.map (·.1) := fun id inside =>
    (mem id).mpr (r.mem_concernedIds.mpr ((ids id).mp inside))
  have perm := (distinct.subperm all).perm_of_length_le (by
    rw [List.length_map, List.length_map, count]
    exact (countP_isHead colours [] sections).le)
  exact perm.nodup_iff.mp distinct

/-- A report is listed as it should be when the empty id does not come first, and nothing comes between
the findings of one command. -/
theorem grouped_listing_iff (colours : Bool) :
    r.Grouped colours (r.listing colours) ↔
      r.concernedIds.head? ≠ some "" ∧ Together r.concernedIds := by
  constructor
  · intro h
    exact ⟨h.named, (sectionsAfter_of_other h.named).2.2.mp h.nodup_heads⟩
  · rintro ⟨named, together⟩
    obtain ⟨none, mem, nodup⟩ := sectionsAfter_of_other named
    have distinct := nodup.mpr together
    have whole := sectionsAfter_flatten "" r.findings
    rw [none, List.nil_append] at whole
    refine ⟨(sectionsAfter "" r.findings).2, ?_, distinct, ?_, ?_⟩
    · rw [listing_eq, none, List.map_nil, List.nil_append]
    · exact fun id => (mem id).trans r.mem_concernedIds
    · exact fun s => r.perm_filter_of_section distinct whole
        fun t memT => (commandId_of_mem_section memT).2

/-- No id comes over more than two sections: one of the findings of commands, one of those of
arguments. -/
theorem count_heads_le (id : String) :
    ((sectionsAfter "" r.findings).2.map (·.1)).count id ≤ 2 := by
  have chain := List.isChain_destutter' (· ≠ ·) r.concernedIds ""
  have sub := List.destutter'_sublist r.concernedIds (· ≠ ·) ""
  rw [concernedIds, ← heads_sectionsAfter] at chain sub
  rw [← concernedIds, concernedIds_eq] at sub
  obtain ⟨own, inner, split, subOwn, subInner⟩ :=
    List.sublist_append_iff.mp (List.cons_sublist_cons.mp sub)
  replace chain := chain.tail
  rw [List.tail_cons, split] at chain
  have distinctOwn := nodup_of_sorted_chain (r.commandIds_sorted.sublist subOwn) chain.left_of_append
  have distinctInner :=
    nodup_of_sorted_chain (r.argumentIds_sorted.sublist subInner) chain.right_of_append
  rw [split, List.count_append]
  exact Nat.add_le_add (List.nodup_iff_count_le_one.mp distinctOwn id)
    (List.nodup_iff_count_le_one.mp distinctInner id)

/-- A listing shows all findings, each below the last line with an id, and no id on more than two lines.
Only findings of the empty id may come before all such lines. It shows each id with a finding once, with
all of its findings below, if and only if this does not happen and no command with findings of both kinds
is parted: no other command has findings of its own after it or of its arguments before it. -/
theorem listing_groups_unless_parted (r : Report) (colours : Bool) :
    (r.Grouped colours (r.listing colours) ↔
      (¬ r.HasCommandFinding "" ∧ (r.HasArgumentFinding "" → ∃ id, r.HasCommandFinding id)) ∧
      ∀ id, r.HasCommandFinding id → r.HasArgumentFinding id →
        (∀ j, r.HasCommandFinding j → j ≤ id) ∧ ∀ j, r.HasArgumentFinding j → id ≤ j) ∧
    ∃ (first : List Finding) (sections : List (String × List Finding)),
      r.listing colours = titleLine colours ::
        (first.map (findingLine colours) ++ sections.flatMap (sectionLines colours)) ∧
      first ++ sections.flatMap (·.2) = r.findings ∧
      (∀ f ∈ first, f.1.commandId = "") ∧
      (∀ s ∈ sections, s.2 ≠ [] ∧ ∀ f ∈ s.2, f.1.commandId = s.1) ∧
      ∀ id, (sections.map (·.1)).count id ≤ 2 := by
  constructor
  · rw [grouped_listing_iff, first_named_iff, together_iff]
  · exact ⟨_, _, r.listing_eq colours, sectionsAfter_flatten "" r.findings,
      fun f => commandId_of_mem_first, fun s => commandId_of_mem_section, r.count_heads_le⟩

/-- A command with findings of both kinds and another with one of its own. -/
theorem errors_of_one_command_parted :
    let c (id : String) (arguments : List Argument) : Command :=
      { name := "Fetch", id := id, description := "", sourceFile := "", sourceRange? := none,
        language := "go", entrypoint := "", runtime := "go:1", arguments := arguments,
        returns := "text", isAsync := false, confidence := Binary64.one, examples := [] }
    let m : Manifest := { Manifest.scaffold "0" with
      commands := [c "ops:a" [{ Argument.fresh with cli := "out" }], c "ops:b" []] }
    ¬ m.validate.Grouped false (m.validate.listing false) := by
  intro c m grouped
  have together := (m.validate.together_iff.mp
    ((m.validate.grouped_listing_iff false).mp grouped).2) "ops:a"
  have last := (together ⟨.name, .nameForm, by decide⟩ ⟨0, .cli, .flagForm, by decide⟩).1 "ops:b"
    ⟨.name, .nameForm, by decide⟩
  exact absurd last (by decide)

end Report

end CommandDeck
