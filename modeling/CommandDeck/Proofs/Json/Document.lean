import CommandDeck.Proofs.Json.Record

/-!
# Whole documents read back

A value in which every number is an integer that a reader does not round is read back from its text, as
deep as it is nested. The nesting is counted along: `Plain n` says that no more than `n` arrays and objects
are opened inside each other.
-/

namespace CommandDeck.Json

/-- No number of the value is rounded by a reader, and at most `n` levels are opened. -/
inductive Plain : Nat → Value → Prop where
  | null (n : Nat) : Plain n .null
  | boolean (n : Nat) (b : Bool) : Plain n (.boolean b)
  | integer (n : Nat) {i : Int} (fits : FitsNumeral i) : Plain n (.integer i)
  | string (n : Nat) (s : String) : Plain n (.string s)
  | array {n : Nat} {vs : List Value} (each : ∀ v ∈ vs, Plain n v) : Plain (n + 1) (.array vs)
  | object {n : Nat} {ms : List (String × Value)} (each : ∀ m ∈ ms, Plain n m.2) :
      Plain (n + 1) (.object ms)

theorem reads_value_null : Reads 0 value .null .null := by
  intro sp _ depth levels _ before rest blank _
  obtain ⟨inner, read⟩ := value_eq levels
  rw [read]
  exact atValue_to _ blank rfl _

/-- The levels left for what is inside a value are the same for each of its parts. -/
theorem Reads.fixed {α : Type} {n levels : Nat} {read : Reader α} {v : Value} {a : α}
    (h : Reads n read v a) (enough : n ≤ levels) : Reads 0 (fun _ => read levels) v a :=
  fun sp blank depth _ _ => h sp blank depth levels enough

theorem reads_value_array {n : Nat} {vs : List Value} (each : ∀ v ∈ vs, Reads n value v v) :
    Reads (n + 1) value (.array vs) (.array vs) := by
  intro sp spacing depth levels enough before rest blank _
  obtain ⟨levels, rfl⟩ : ∃ k, levels = k + 1 := ⟨levels - 1, by omega⟩
  have inside : List.Forall₂ (Reads 0 fun _ => value levels) vs vs :=
    List.forall₂_same.mpr fun v mem => (each v mem).fixed (Nat.le_of_succ_le_succ enough)
  obtain ⟨s, text, tail⟩ := listTail_write inside spacing depth (Nat.zero_le 0) rest
  rw [text, value, atValue_to _ blank rfl]
  simp only [valueAt, tail]
  rfl

/-- What reading one more member makes of those read before, the last first. -/
def gatherMember (levels : Nat) (members : List (String × Value)) (key : String) :
    Reader (List (String × Value)) :=
  fun inner s => (afterColon (fun _ => value levels) inner s).map fun r =>
    ((key, r.1) :: members, r.2)

theorem steps_gatherMember {n levels : Nat} {ms : List (String × Value)}
    (each : ∀ m ∈ ms, Reads n value m.2 m.2) (enough : n ≤ levels)
    (before : List (String × Value)) :
    Steps 0 (gatherMember levels) before ms (ms.reverse ++ before) := by
  induction ms generalizing before with
  | nil => exact .nil before
  | cons m ms ih =>
    obtain ⟨one, others⟩ := List.forall_mem_cons.mp each
    have later := ih others (m :: before)
    rw [List.reverse_cons, List.append_assoc, List.singleton_append]
    refine .cons ?_ later
    intro sp spacing depth inner _ rest ends
    have read := one sp spacing depth levels enough sp.afterColon rest spacing.afterColon ends
    simp only [gatherMember, afterColon_to, read]
    rfl

theorem reads_value_object {n : Nat} {ms : List (String × Value)}
    (each : ∀ m ∈ ms, Reads n value m.2 m.2) :
    Reads (n + 1) value (.object ms) (.object ms) := by
  intro sp spacing depth levels enough before rest blank _
  obtain ⟨levels, rfl⟩ : ∃ k, levels = k + 1 := ⟨levels - 1, by omega⟩
  have steps := steps_gatherMember each (Nat.le_of_succ_le_succ enough) []
  obtain ⟨s, text, tail⟩ := membersTail_write steps spacing depth (Nat.zero_le 0) rest
  rw [text, value, atValue_to _ blank rfl]
  change (membersTail (gatherMember levels) [] 0 s).map _ = _
  rw [tail, List.append_nil]
  change Except.ok (Value.object ms.reverse.reverse, rest) = _
  rw [List.reverse_reverse]

theorem Plain.reads {n : Nat} {v : Value} (h : Plain n v) : Reads n value v v := by
  induction h with
  | null n => exact reads_value_null.mono (Nat.zero_le n)
  | boolean n b => exact (reads_value_boolean b).mono (Nat.zero_le n)
  | integer n fits => exact (reads_value_integer fits).mono (Nat.zero_le n)
  | string n s => exact (reads_value_string s).mono (Nat.zero_le n)
  | array _ ih => exact reads_value_array ih
  | object _ ih => exact reads_value_object ih

/-- The document of a plain value that is not nested too deep has this value. -/
theorem ofText_indented {n : Nat} {v : Value} (h : Plain n v) (deep : n ≤ nestingLimit) :
    Value.ofText v.indented = .ok v := by
  have read := h.reads .indented Spacing.indented_isBlank 0 nestingLimit deep [] [] blank_nil ends_nil
  rw [List.nil_append, List.append_nil] at read
  simp only [Value.ofText, readAll, Value.indented, String.toList_ofList, read]
  rfl

end CommandDeck.Json
