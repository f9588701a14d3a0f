import CommandDeck.Proofs.Json.Fraction
import CommandDeck.Proofs.Manifest.Document
import CommandDeck.Proofs.Number.Value

/-!
# Every document of a manifest is read

Whatever doubles a manifest holds, its document is read as a manifest under the same namespace. A
confidence that was written as an integer is read as that integer, and the integer is the number that
the confidence denotes, unless that is tiny: then it is zero, which stands for all tiny confidences.
-/

namespace CommandDeck

open Json RecordLayout

/-- Which confidences are written as integers, and as which ones. -/
theorem confidenceToJson_eq_integer_iff {x : Binary64} {i : Int} :
    confidenceToJson x = .integer i ↔
      (x.toRat = i ∧ i.natAbs ≤ 0x20000000000000) ∨ (x.IsTiny ∧ i = 0) := by
  have written : confidenceToJson x = .integer i ↔ x.whole? = some i := by
    unfold confidenceToJson
    cases x.whole? <;> simp
  rw [written]
  constructor
  · intro whole
    exact (Binary64.toRat_of_whole? whole).imp_left fun value =>
      ⟨value, Binary64.natAbs_le_of_whole? whole⟩
  · rintro (⟨value, small⟩ | ⟨tiny, rfl⟩)
    · exact Binary64.whole?_of_toRat value small
    · exact tiny.whole?_eq

theorem written_exactly_iff {x : Binary64} :
    (∀ i : Int, confidenceToJson x = .integer i → x.toRat = i) ↔ ¬ x.IsTiny := by
  constructor
  · intro same tiny
    have zero := same 0 (confidenceToJson_eq_integer_iff.mpr (.inr ⟨tiny, rfl⟩))
    exact tiny.1 (zero.trans Int.cast_zero)
  · intro large i written
    rcases confidenceToJson_eq_integer_iff.mp written with ⟨value, -⟩ | ⟨tiny, -⟩
    · exact value
    · exact absurd tiny large

theorem doubleOfInt_of_toRat {x : Binary64} {i : Int} (value : x.toRat = i) :
    doubleOfInt i = x.plainZero := by
  have units := Binary64.units_of_toRat value
  have same := (Binary64.toRat_of_units units).symm.trans value
  rw [← doubleOfInt_whole units, Int.cast_injective same]

/-- An integer that stands for a double is read as a double that denotes it. -/
theorem toRat_doubleOfInt {x : Binary64} {i : Int} (whole : x.whole? = some i) :
    (doubleOfInt i).toRat = i := by
  rcases Binary64.toRat_of_whole? whole with value | ⟨-, rfl⟩
  · rw [doubleOfInt_of_toRat value, Binary64.toRat_plainZero, value]
  · have zero : Binary64.zero.toRat = (0 : Int) := Binary64.toRat_eq_zero_iff.mpr rfl
    rw [doubleOfInt_of_toRat zero, Binary64.toRat_plainZero, zero]

/-- What a confidence is read as after it has been written as an integer: that integer, which is the
confidence itself unless that is tiny. -/
def Binary64.KeepsWhole (x y : Binary64) : Prop :=
  ∀ i : Int, confidenceToJson x = .integer i → y.toRat = i ∧ (y.toRat = x.toRat ∨ x.IsTiny)

theorem exists_reads_confidence (x : Binary64) :
    ∃ y, Reads 0 double (confidenceToJson x) y ∧ x.KeepsWhole y := by
  cases whole : x.whole? with
  | none =>
    have written : confidenceToJson x = .float x := by
      unfold confidenceToJson
      rw [whole]
    obtain ⟨y, read⟩ := exists_reads_double x
    refine ⟨y, written ▸ read, fun i integer => ?_⟩
    rw [written] at integer
    cases integer
  | some i =>
    have written : confidenceToJson x = .integer i := by
      unfold confidenceToJson
      rw [whole]
    have small := Binary64.natAbs_le_of_whole? whole
    have value := toRat_doubleOfInt whole
    refine ⟨doubleOfInt i, written ▸ reads_double ⟨by omega, by omega⟩, fun j integer => ?_⟩
    rw [written] at integer
    obtain rfl : i = j := by simpa using integer
    refine ⟨value, (Binary64.toRat_of_whole? whole).imp (fun same => ?_) (·.1)⟩
    rw [value, same]

namespace DefaultValue

theorem exists_reads (d : DefaultValue) : ∃ e, Reads 0 read d.toJson e := by
  by_cases integral : d.IsIntegral
  · exact ⟨d, reads_toJson integral⟩
  · obtain ⟨x, rfl⟩ : ∃ x, d = .float x := by simpa [IsIntegral] using integral
    obtain ⟨y, written⟩ := exists_reads_value x
    refine ⟨.float y, fun sp spacing depth levels enough before rest blank ends => ?_⟩
    simp only [read, toJson, written sp spacing depth levels enough before rest blank ends, ofValue?]

end DefaultValue

/-- When each of some records is read, so is their list. -/
theorem exists_forall₂ {α β : Type} {r : α → β → Prop} {items : List α}
    (each : ∀ a ∈ items, ∃ b, r a b) : ∃ kept, List.Forall₂ r items kept := by
  induction items with
  | nil => exact ⟨[], .nil⟩
  | cons a items ih =>
    obtain ⟨b, one⟩ := each a List.mem_cons_self
    obtain ⟨kept, others⟩ := ih fun other mem => each other (List.mem_cons_of_mem _ mem)
    exact ⟨b :: kept, .cons one others⟩

/-- The relation carried along when each of some records is read. -/
theorem exists_forall₂_and {α β : Type} {r q : α → β → Prop} {items : List α}
    (each : ∀ a ∈ items, ∃ b, r a b ∧ q a b) :
    ∃ kept, List.Forall₂ r items kept ∧ List.Forall₂ q items kept := by
  obtain ⟨kept, both⟩ := exists_forall₂ each
  exact ⟨kept, both.imp fun _ _ h => h.1, both.imp fun _ _ h => h.2⟩

/-- The whole confidence of an argument is kept. -/
def Argument.KeepsWhole (a b : Argument) : Prop := a.confidence.KeepsWhole b.confidence

theorem Argument.exists_reads (a : Argument) :
    ∃ b, Reads 1 layout.read a.toJson b ∧ a.KeepsWhole b := by
  obtain ⟨confidence, trust, keeps⟩ := exists_reads_confidence a.confidence
  obtain ⟨default?, value⟩ : ∃ default?,
      Option.Rel (fun d e => Reads 0 DefaultValue.read d.toJson e) a.default? default? := by
    cases a.default? with
    | none => exact ⟨none, .none⟩
    | some d =>
      obtain ⟨e, value⟩ := d.exists_reads
      exact ⟨some e, .some value⟩
  exact ⟨_, reads_of value trust, keeps⟩

/-- The whole confidences of a command and of its arguments are kept. -/
structure Command.KeepsWhole (c d : Command) : Prop where
  confidence : c.confidence.KeepsWhole d.confidence
  arguments : List.Forall₂ Argument.KeepsWhole c.arguments d.arguments

theorem Command.exists_reads (c : Command) :
    ∃ d, Reads 3 layout.read c.toJson d ∧ c.KeepsWhole d := by
  obtain ⟨confidence, trust, keeps⟩ := exists_reads_confidence c.confidence
  obtain ⟨arguments, each, kept⟩ := exists_forall₂_and fun a (_ : a ∈ c.arguments) => a.exists_reads
  exact ⟨_, reads_of each trust, keeps, kept⟩

namespace Manifest

/-- What a manifest is read as has its namespace and its whole confidences. -/
theorem exists_reads (m : Manifest) :
    ∃ n, Reads 5 layout.read m.toJson n ∧ n.namespaceName = m.namespaceName ∧
      List.Forall₂ Command.KeepsWhole m.commands n.commands := by
  obtain ⟨commands, each, kept⟩ := exists_forall₂_and fun c (_ : c ∈ m.commands) => c.exists_reads
  exact ⟨_, reads_of each, rfl, kept⟩

/-- The confidences that are written as integers are the whole numbers of at most 53 bits, each as the
integer that it is, and the tiny numbers, as zero. So the integer that is written is always the confidence
exactly when that is not tiny. What the document of a manifest is read as has these integers for
confidences. -/
theorem whole_confidences_kept (x : Binary64) (m : Manifest) :
    (∀ i : Int, confidenceToJson x = .integer i ↔
      (x.toRat = i ∧ i.natAbs ≤ 0x20000000000000) ∨ (x.IsTiny ∧ i = 0)) ∧
    ((∀ i : Int, confidenceToJson x = .integer i → x.toRat = i) ↔ ¬ x.IsTiny) ∧
    (Text.isBlankText m.namespaceName = false →
      ∃ n, ofText m.toText = .ok n ∧ List.Forall₂ Command.KeepsWhole m.commands n.commands) := by
  refine ⟨fun _ => confidenceToJson_eq_integer_iff, written_exactly_iff, fun named => ?_⟩
  obtain ⟨n, read, same, kept⟩ := m.exists_reads
  have text := ofText_of_reads read blank_nil ends_nil
  rw [String.ofList_nil, String.append_empty, same, named] at text
  exact ⟨n, text, kept⟩

/-- The greatest integer of 53 bits with its sign, a half and the least double as confidences. -/
theorem mixed_confidences_kept :
    let least : Binary64 := ⟨false, 1, 0, by decide, .inl rfl, by decide⟩
    let half : Binary64 := ⟨false, 0x10000000000000, 1021, by decide, .inr (by decide), by decide⟩
    let limit : Binary64 := ⟨true, 0x10000000000000, 1075, by decide, .inr (by decide), by decide⟩
    let c : Command := { Command.layout.blank with
      arguments := [{ Argument.fresh with confidence := least }], confidence := limit }
    let m : Manifest := { scaffold "" with
      commands := [c, { c with confidence := half }] }
    Text.isBlankText m.namespaceName = false ∧
      confidenceToJson limit = .integer (-0x20000000000000) ∧
      confidenceToJson least = .integer 0 ∧ least.toRat ≠ (0 : Int) ∧
      ∃ n, ofText m.toText = .ok n ∧ List.Forall₂ Command.KeepsWhole m.commands n.commands := by
  intro least half limit c m
  have named : Text.isBlankText m.namespaceName = false := by decide
  have value : limit.toRat = (-0x20000000000000 : Int) := by
    have units : limit.units = 0x20000000000000 * Binary64.unitsPerOne := by decide +kernel
    rw [Binary64.toRat_of_units units]
    exact congrArg _ (if_pos rfl)
  have tiny : least.IsTiny := by
    have units : least.units ≠ 0 ∧ least.units < Nat.pow 2 1022 := by decide +kernel
    exact ⟨fun zero => units.1 (Binary64.toRat_eq_zero_iff.mp zero),
      Binary64.abs_toRat_lt_iff.mpr units.2⟩
  obtain ⟨great, -, read⟩ := whole_confidences_kept limit m
  obtain ⟨small, -, -⟩ := whole_confidences_kept least m
  refine ⟨named, (great _).mpr (.inl ⟨value, by decide⟩), (small 0).mpr (.inr ⟨tiny, rfl⟩), ?_, read named⟩
  rw [Int.cast_zero]
  exact tiny.1

/-- The confidence `1e-17` is not zero, and it is written as zero. -/
theorem tiny_confidence_written_as_zero :
    ∃ x, Binary64.ofDecimal? false 1 (-17) = some x ∧ confidenceToJson x = .integer 0 ∧
      x.toRat ≠ (0 : Int) := by
  have read : ∃ x, Binary64.ofDecimal? false 1 (-17) = some x ∧ x.units ≠ 0 ∧
      x.whole? = some 0 := by
    decide +kernel
  obtain ⟨x, value, nonzero, whole⟩ := read
  refine ⟨x, value, ?_, fun zero => nonzero (Binary64.toRat_eq_zero_iff.mp zero)⟩
  unfold confidenceToJson
  rw [whole]

end Manifest

end CommandDeck
