import Mathlib.Data.List.Nodup
import CommandDeck.Manifest.Validation

/-!
# What a report holds at a place

Findings are recorded one after the other, and of the violations recorded at one place the one whose
wording comes first stays. So what a report holds at a place depends on the violations found there
and on nothing else. At the place of a command's id the rules of a manifest find one thing only: that
the id comes more than once.
-/

namespace CommandDeck

namespace Violation

/-- What a place holds after one more violation is recorded there. -/
def joined (held : Option Violation) (v : Violation) : Option Violation :=
  some (held.elim v fun w => w.first v)

theorem first_of_lt {v w : Violation} (h : w.message < v.message) : v.first w = w := if_pos h

theorem first_of_not_lt {v w : Violation} (h : ¬ w.message < v.message) : v.first w = v := if_neg h

theorem first_self (v : Violation) : v.first v = v := ite_id _

theorem joined_joined (held : Option Violation) (v : Violation) :
    joined (joined held v) v = joined held v := by
  cases held with
  | none => exact congrArg some (first_self v)
  | some w =>
    change some ((w.first v).first v) = some (w.first v)
    by_cases h : v.message < w.message
    · rw [first_of_lt h, first_self]
    · rw [first_of_not_lt h, first_of_not_lt h]

theorem foldl_joined_of_forall_eq {vs : List Violation} {v : Violation} (found : vs ≠ [])
    (same : ∀ w ∈ vs, w = v) (held : Option Violation) : vs.foldl joined held = joined held v := by
  induction vs generalizing held with
  | nil => exact absurd rfl found
  | cons w rest ih =>
    obtain rfl : w = v := same w List.mem_cons_self
    by_cases h : rest = []
    · subst h
      rfl
    · rw [List.foldl_cons, ih h (fun x hx => same x (List.mem_cons_of_mem _ hx)), joined_joined]

/-- A message never goes away by recording more. -/
theorem foldl_joined_ne_none {vs : List Violation} {held : Option Violation}
    (h : held ≠ none ∨ vs ≠ []) : vs.foldl joined held ≠ none := by
  induction vs generalizing held with
  | nil => exact h.resolve_right (fun k => k rfl)
  | cons w rest ih => exact ih (Or.inl (by simp [joined]))

end Violation

namespace Report

/-- The violations that findings have at a place. -/
def violationsAt (p : Place) (fs : List Finding) : List Violation :=
  (fs.filter fun f => f.1 = p).map (·.2)

theorem mem_violationsAt {p : Place} {v : Violation} {fs : List Finding} :
    v ∈ violationsAt p fs ↔ (p, v) ∈ fs := by
  simp only [violationsAt, List.mem_map, List.mem_filter, decide_eq_true_eq]
  constructor
  · rintro ⟨⟨q, w⟩, ⟨hf, rfl⟩, rfl⟩
    exact hf
  · intro h
    exact ⟨(p, v), ⟨h, rfl⟩, rfl⟩

theorem find?_eq_none_of_before {p : Place} {fs : List Finding}
    (h : ∀ f ∈ fs, p.Before f.1) : fs.find? (fun f => f.1 == p) = none := by
  rw [List.find?_eq_none]
  intro f hf same
  have before := h f hf
  rw [beq_iff_eq.mp same] at before
  exact Place.Before.irrefl p before

theorem find?_insertInto_self (p : Place) (v : Violation) {fs : List Finding}
    (ordered : fs.Pairwise fun a b => a.1.Before b.1) :
    ((insertInto p v fs).find? fun f => f.1 == p).map (·.2) =
      Violation.joined ((fs.find? fun f => f.1 == p).map (·.2)) v := by
  induction fs with
  | nil => simp [insertInto, Violation.joined]
  | cons g rest ih =>
    obtain ⟨q, w⟩ := g
    obtain ⟨hq, hrest⟩ := List.pairwise_cons.mp ordered
    simp only [insertInto]
    split
    · rename_i same
      subst same
      simp [Violation.joined]
    · rename_i different
      split
      · rename_i before
        have absent : ((q, w) :: rest).find? (fun f => f.1 == p) = none := by
          refine find?_eq_none_of_before fun f hf => ?_
          rcases List.mem_cons.mp hf with rfl | hf
          · exact before
          · exact before.trans (hq f hf)
        rw [absent]
        simp [Violation.joined]
      · have hne : (q == p) = false := by simpa using Ne.symm different
        simpa [List.find?_cons, hne] using ih hrest

theorem find?_insertInto_of_ne {p q : Place} (v : Violation) (fs : List Finding) (h : q ≠ p) :
    (insertInto p v fs).find? (fun f => f.1 == q) = fs.find? fun f => f.1 == q := by
  have hp : (p == q) = false := by simpa using Ne.symm h
  induction fs with
  | nil => simp [insertInto, hp]
  | cons g rest ih =>
    obtain ⟨r, w⟩ := g
    simp only [insertInto]
    split
    · rename_i same
      subst same
      simp [hp]
    · split
      · simp [List.find?_cons, hp]
      · simp only [List.find?_cons, ih]

@[simp] theorem get?_insert_self (r : Report) (p : Place) (v : Violation) :
    (r.insert p v).get? p = Violation.joined (r.get? p) v :=
  find?_insertInto_self p v r.ordered

theorem get?_insert_of_ne (r : Report) {p q : Place} (v : Violation) (h : q ≠ p) :
    (r.insert p v).get? q = r.get? q := by
  simp only [get?, insert, find?_insertInto_of_ne v r.findings h]

@[simp] theorem get?_empty (p : Place) : empty.get? p = none := rfl

/-- A place holds what it held, joined with the violations recorded there. -/
theorem get?_insertAll (r : Report) (fs : List Finding) (p : Place) :
    (r.insertAll fs).get? p = (violationsAt p fs).foldl Violation.joined (r.get? p) := by
  induction fs generalizing r with
  | nil => rfl
  | cons f rest ih =>
    change ((r.insert f.1 f.2).insertAll rest).get? p = _
    rw [ih]
    by_cases h : f.1 = p
    · subst h
      simp [violationsAt]
    · rw [get?_insert_of_ne r f.2 (Ne.symm h)]
      simp [violationsAt, h]

theorem get?_insertAll_of_absent (r : Report) {fs : List Finding} {p : Place}
    (absent : ∀ v, (p, v) ∉ fs) : (r.insertAll fs).get? p = r.get? p := by
  have none : violationsAt p fs = [] :=
    List.eq_nil_iff_forall_not_mem.mpr fun v hv => absent v (mem_violationsAt.mp hv)
  rw [get?_insertAll, none]
  rfl

theorem get?_insertAll_of_unique (r : Report) {fs : List Finding} {p : Place} {v : Violation}
    (found : (p, v) ∈ fs) (unique : ∀ w, (p, w) ∈ fs → w = v) :
    (r.insertAll fs).get? p = Violation.joined (r.get? p) v := by
  rw [get?_insertAll]
  have some : v ∈ violationsAt p fs := mem_violationsAt.mpr found
  exact Violation.foldl_joined_of_forall_eq (List.ne_nil_of_mem some)
    (fun w hw => unique w (mem_violationsAt.mp hw)) _

theorem isEmpty_iff_get? (r : Report) : r.isEmpty = true ↔ ∀ p, r.get? p = none := by
  constructor
  · intro h p
    simp only [isEmpty, List.isEmpty_iff] at h
    simp [get?, h]
  · intro h
    simp only [isEmpty, List.isEmpty_iff]
    refine List.eq_nil_iff_forall_not_mem.mpr fun f hf => ?_
    have absent := h f.1
    simp only [get?, Option.map_eq_none_iff, List.find?_eq_none] at absent
    exact absent f hf (by simp)

theorem isEmpty_iff_eq_empty {r : Report} : r.isEmpty = true ↔ r = empty := by
  constructor
  · intro h
    exact ext (List.isEmpty_iff.mp h)
  · rintro rfl
    rfl

theorem isEmpty_insertAll (r : Report) (fs : List Finding) :
    (r.insertAll fs).isEmpty = true ↔ r.isEmpty = true ∧ fs = [] := by
  simp only [isEmpty_iff_get?, get?_insertAll]
  constructor
  · intro h
    refine ⟨fun p => ?_, List.eq_nil_iff_forall_not_mem.mpr fun f hf => ?_⟩
    · by_contra held
      exact Violation.foldl_joined_ne_none (Or.inl held) (h p)
    · have found : violationsAt f.1 fs ≠ [] :=
        List.ne_nil_of_mem (mem_violationsAt.mpr (show (f.1, f.2) ∈ fs from hf))
      exact Violation.foldl_joined_ne_none (Or.inr found) (h f.1)
  · rintro ⟨h, rfl⟩ p
    exact h p

end Report

namespace Manifest

/-- The ids of the commands, in order. -/
def ids (m : Manifest) : List String := m.commands.map (·.id)

end Manifest

namespace Command

theorem id_place_not_mem_argumentFindings (id i : String) (v : Violation) (index : Nat)
    (as : List Argument) : (Place.command id .id, v) ∉ argumentFindings i index as := by
  induction as generalizing index with
  | nil => exact List.not_mem_nil
  | cons a rest ih =>
    simp only [argumentFindings, List.mem_append, not_or]
    refine ⟨?_, ih (index + 1)⟩
    simp [Argument.findings]

/-- A command taken by itself breaks no rule about ids. -/
theorem id_place_not_mem_findings (id : String) (v : Violation) (c : Command) :
    (Place.command id .id, v) ∉ c.findings := by
  simp only [findings, List.mem_append, not_or]
  refine ⟨⟨?_, ?_⟩, id_place_not_mem_argumentFindings id c.id v 0 c.arguments⟩
  · simp
  · split
    · simp
    · exact List.not_mem_nil

end Command

namespace Manifest

/-- An id is found to come again when it is among those of `cs` and, with those seen before, at least
twice. -/
theorem id_place_mem_findingsAfter (id : String) (v : Violation) (seen : List String)
    (cs : List Command) :
    (Place.command id .id, v) ∈ findingsAfter seen cs ↔
      v = .idRepeated ∧ 0 < (cs.map (·.id)).count id ∧
        2 ≤ (cs.map (·.id)).count id + if id ∈ seen then 1 else 0 := by
  induction cs generalizing seen with
  | nil => simp [findingsAfter]
  | cons c rest ih =>
    have own := Command.id_place_not_mem_findings id v c
    simp only [findingsAfter, List.mem_append, own, or_false, ih, List.map_cons, List.mem_cons]
    by_cases same : c.id = id
    · subst same
      by_cases again : c.id ∈ seen
      · simp only [List.contains_iff_mem, again, if_true, List.mem_singleton, Prod.mk.injEq,
          true_and, List.count_cons_self, true_or]
        constructor
        · rintro (h | ⟨h, _⟩) <;> exact ⟨h, by omega, by omega⟩
        · exact fun h => Or.inl h.1
      · simp [again]
    · have other : ¬ id = c.id := Ne.symm same
      simp [same, other]

/-- The place of an id holds a violation exactly when the id comes more than once. -/
theorem validate_get?_id (m : Manifest) (id : String) :
    m.validate.get? (.command id .id) =
      if 2 ≤ m.ids.count id then some .idRepeated else none := by
  change (Report.empty.insertAll (findingsAfter [] m.commands)).get? _ = _
  have found := fun v => id_place_mem_findingsAfter id v [] m.commands
  split
  · rename_i twice
    rw [Report.get?_insertAll_of_unique (v := .idRepeated)]
    · rfl
    · exact (found _).mpr ⟨rfl, by unfold ids at twice; omega, by simpa [ids] using twice⟩
    · exact fun w hw => ((found w).mp hw).1
  · rename_i once
    rw [Report.get?_insertAll_of_absent]
    · rfl
    · intro v hv
      exact once (by simpa [ids] using ((found v).mp hv).2.2)

/-- No id comes twice in a manifest that may be published. -/
theorem ids_nodup_of_validate {m : Manifest} (h : m.validate.isEmpty = true) : m.ids.Nodup := by
  rw [List.nodup_iff_count_le_one]
  intro id
  by_contra twice
  have held := (Report.isEmpty_iff_get? _).mp h (.command id .id)
  rw [validate_get?_id, if_pos (by omega)] at held
  cases held

end Manifest

end CommandDeck
