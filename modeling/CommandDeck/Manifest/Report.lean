import CommandDeck.Number.Layout

/-!
# Reports

A report says which rules a manifest breaks and where. Its places are in order: those of commands
come before those of arguments, each by command id, then by argument, then by field. At each place
stands one violation. When two rules are broken at one place the one whose wording comes first in
the order of texts stands there, so that a report does not depend on the order of its making.
-/

namespace CommandDeck

inductive CommandField where
  | id
  | name
  | runtime
  deriving DecidableEq

inductive ArgumentField where
  | cli
  | name
  deriving DecidableEq

/-- A place in a manifest where a rule can be broken. Commands with the same id share their places. -/
inductive Place where
  | command (id : String) (field : CommandField)
  | argument (id : String) (index : Nat) (field : ArgumentField)
  deriving DecidableEq

/-- A broken rule. -/
inductive Violation where
  | nameMissing
  | nameForm
  | runtimeMissing
  | idRepeated
  | idTaken (owner : String)
  | flagMissing
  | flagForm
  | argumentNameMissing
  | argumentNameForm
  deriving DecidableEq

namespace CommandField

def label : CommandField → String
  | id => "id"
  | name => "name"
  | runtime => "runtime"

def number : CommandField → Nat
  | id => 0
  | name => 1
  | runtime => 2

theorem number_injective {f g : CommandField} (h : f.number = g.number) : f = g := by
  cases f <;> cases g <;> simp_all [number]

end CommandField

namespace ArgumentField

def label : ArgumentField → String
  | cli => "cli"
  | name => "name"

def number : ArgumentField → Nat
  | cli => 0
  | name => 1

theorem number_injective {f g : ArgumentField} (h : f.number = g.number) : f = g := by
  cases f <;> cases g <;> simp_all [number]

end ArgumentField

namespace Violation

def message : Violation → String
  | nameMissing => "Command name is required"
  | nameForm => "Must be kebab-case (e.g. process-refund)"
  | runtimeMissing => "Runtime image is required"
  | idRepeated => "Command id must be unique within the manifest"
  | idTaken owner => "Command id already published by namespace '" ++ owner ++ "'"
  | flagMissing => "Flag is required"
  | flagForm => "Must start with - or --"
  | argumentNameMissing => "Name is required"
  | argumentNameForm => "Alphanumeric only"

/-- Of two violations, the one whose wording comes first. -/
def first (v w : Violation) : Violation := if w.message < v.message then w else v

end Violation

namespace Place

def commandId : Place → String
  | command id _ => id
  | argument id _ _ => id

/-- The place in one word, as a form shows it. -/
def label : Place → String
  | command id field => "cmd-" ++ id ++ "-" ++ field.label
  | argument id index field =>
    "arg-" ++ id ++ "-" ++ String.ofList (NumberLayout.digits index) ++ "-" ++ field.label

def Before : Place → Place → Prop
  | command i f, command j g => i < j ∨ (i = j ∧ f.number < g.number)
  | command _ _, argument _ _ _ => True
  | argument _ _ _, command _ _ => False
  | argument i m f, argument j n g =>
    i < j ∨ (i = j ∧ (m < n ∨ (m = n ∧ f.number < g.number)))

instance : DecidableRel Before := fun p q => by
  cases p <;> cases q <;> unfold Before <;> infer_instance

theorem Before.trans {p q r : Place} (h : p.Before q) (k : q.Before r) : p.Before r := by
  cases p <;> cases q <;> cases r <;> simp only [Before] at h k ⊢
  · rcases h with h | ⟨rfl, h⟩ <;> rcases k with k | ⟨rfl, k⟩
    · exact Or.inl (String.lt_trans h k)
    · exact Or.inl h
    · exact Or.inl k
    · exact Or.inr ⟨rfl, by omega⟩
  · rcases h with h | ⟨rfl, h⟩ <;> rcases k with k | ⟨rfl, k⟩
    · exact Or.inl (String.lt_trans h k)
    · exact Or.inl h
    · exact Or.inl k
    · exact Or.inr ⟨rfl, by omega⟩

theorem Before.irrefl (p : Place) : ¬ p.Before p := by
  cases p with
  | command i f => exact fun h => h.elim (String.lt_irrefl i) fun h => Nat.lt_irrefl _ h.2
  | argument i n f =>
    exact fun h => h.elim (String.lt_irrefl i) fun h =>
      h.2.elim (Nat.lt_irrefl n) fun h => Nat.lt_irrefl _ h.2

/-- Two places neither of which comes before the other are one. -/
theorem eq_of_not_before {p q : Place} (h : ¬ p.Before q) (k : ¬ q.Before p) : p = q := by
  have eqText {i j : String} (h : ¬ i < j) (k : ¬ j < i) : i = j :=
    String.le_antisymm (String.not_lt.mp k) (String.not_lt.mp h)
  cases p <;> cases q <;> simp only [Before, not_or, not_and] at h k <;> try (exact absurd trivial h)
  · have e := eqText h.1 k.1
    subst e
    have := CommandField.number_injective (Nat.le_antisymm (Nat.not_lt.mp (k.2 rfl))
      (Nat.not_lt.mp (h.2 rfl)))
    rw [this]
  · exact absurd trivial k
  · have e := eqText h.1 k.1
    subst e
    have hi := h.2 rfl
    have ki := k.2 rfl
    have e : _ = _ := Nat.le_antisymm (Nat.not_lt.mp ki.1) (Nat.not_lt.mp hi.1)
    subst e
    have := ArgumentField.number_injective (Nat.le_antisymm (Nat.not_lt.mp (ki.2 rfl))
      (Nat.not_lt.mp (hi.2 rfl)))
    rw [this]

end Place

/-- A rule broken at a place. -/
abbrev Finding := Place × Violation

/-- Findings in the order of their places, one for a place. -/
structure Report where
  findings : List Finding
  ordered : findings.Pairwise fun a b => a.1.Before b.1

namespace Report

theorem ext {r s : Report} (h : r.findings = s.findings) : r = s := by
  cases r; cases s; cases h; rfl

instance : DecidableEq Report := fun r s =>
  if h : r.findings = s.findings then .isTrue (ext h) else .isFalse fun e => h (e ▸ rfl)

def empty : Report := ⟨[], List.Pairwise.nil⟩

/-- Puts a finding in its place among findings in order. -/
def insertInto (p : Place) (v : Violation) : List Finding → List Finding
  | [] => [(p, v)]
  | (q, w) :: rest =>
    if p = q then (q, w.first v) :: rest
    else if p.Before q then (p, v) :: (q, w) :: rest
    else (q, w) :: insertInto p v rest

theorem place_of_mem_insertInto {p : Place} {v : Violation} {fs : List Finding} {f : Finding}
    (h : f ∈ insertInto p v fs) : f.1 = p ∨ ∃ g ∈ fs, g.1 = f.1 := by
  induction fs with
  | nil =>
    simp only [insertInto, List.mem_singleton] at h
    exact Or.inl (h ▸ rfl)
  | cons g rest ih =>
    obtain ⟨q, w⟩ := g
    simp only [insertInto] at h
    split at h
    · rename_i e
      rcases List.mem_cons.mp h with h | h
      · exact Or.inl (by rw [h, e])
      · exact Or.inr ⟨f, List.mem_cons_of_mem _ h, rfl⟩
    · split at h
      · rcases List.mem_cons.mp h with h | h
        · exact Or.inl (h ▸ rfl)
        · exact Or.inr ⟨f, h, rfl⟩
      · rcases List.mem_cons.mp h with h | h
        · exact Or.inr ⟨(q, w), List.mem_cons_self .., h ▸ rfl⟩
        · rcases ih h with h | ⟨g, hg, e⟩
          · exact Or.inl h
          · exact Or.inr ⟨g, List.mem_cons_of_mem _ hg, e⟩

theorem insertInto_ordered (p : Place) (v : Violation) {fs : List Finding}
    (h : fs.Pairwise fun a b => a.1.Before b.1) :
    (insertInto p v fs).Pairwise fun a b => a.1.Before b.1 := by
  induction fs with
  | nil => exact List.pairwise_singleton _ _
  | cons g rest ih =>
    obtain ⟨q, w⟩ := g
    have hq := (List.pairwise_cons.mp h).1
    have hrest := (List.pairwise_cons.mp h).2
    simp only [insertInto]
    split
    · exact List.pairwise_cons.mpr ⟨hq, hrest⟩
    · split
      · rename_i before
        refine List.pairwise_cons.mpr ⟨?_, h⟩
        intro g hg
        rcases List.mem_cons.mp hg with rfl | hg
        · exact before
        · exact before.trans (hq g hg)
      · rename_i different notBefore
        refine List.pairwise_cons.mpr ⟨?_, ih hrest⟩
        intro f hf
        rcases place_of_mem_insertInto hf with e | ⟨g, hg, e⟩
        · rw [e]
          exact Decidable.byContradiction fun k =>
            different (Place.eq_of_not_before notBefore k)
        · rw [← e]
          exact hq g hg

def insert (r : Report) (p : Place) (v : Violation) : Report :=
  ⟨insertInto p v r.findings, insertInto_ordered p v r.ordered⟩

def ofFindings (fs : List Finding) : Report := fs.foldl (fun r f => r.insert f.1 f.2) empty

def insertAll (r : Report) (fs : List Finding) : Report := fs.foldl (fun r f => r.insert f.1 f.2) r

def isEmpty (r : Report) : Bool := r.findings.isEmpty

def size (r : Report) : Nat := r.findings.length

def get? (r : Report) (p : Place) : Option Violation :=
  (r.findings.find? fun f => f.1 == p).map (·.2)

def labelled? (r : Report) (label : String) : Option Violation :=
  (r.findings.find? fun f => f.1.label == label).map (·.2)

/-- Some rule is broken by a command with this id or by its arguments. -/
def concerns (r : Report) (id : String) : Bool := r.findings.any fun f => f.1.commandId == id

def line (f : Finding) : String := f.1.label ++ ": " ++ f.2.message

/-- The findings, one a line. -/
def toText (r : Report) : String := "\n".intercalate (r.findings.map line)

end Report

end CommandDeck
