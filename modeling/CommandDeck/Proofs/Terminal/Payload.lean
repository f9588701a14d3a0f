import CommandDeck.Proofs.Json.Document
import CommandDeck.Proofs.Terminal.Addressing

/-!
# The document that a run answers with

A command with the tag `json` answers with a document. Whatever the words hold that it was given, the
document is read back as an object that names the command and lists the words as they were.
-/

namespace CommandDeck

open Json (Plain Value)

namespace Invocation

theorem plain_payload (inv : Invocation) (stamp : String) : Plain 3 (inv.payload stamp) := by
  have words : Plain 1 (.array (inv.words.map .string)) := by
    refine .array fun v mem => ?_
    obtain ⟨word, _, rfl⟩ := List.mem_map.mp mem
    exact .string 0 word
  have data : Plain 2 (.object [
      ("message", .string ("Executed " ++ inv.command.name ++ " successfully")),
      ("input_args", .array (inv.words.map .string))]) := by
    refine .object ?_
    simp only [List.forall_mem_cons]
    exact ⟨.string 1 _, words, fun _ none => nomatch none⟩
  refine .object ?_
  simp only [List.forall_mem_cons]
  exact ⟨.string 2 _, .string 2 _, data, fun _ none => nomatch none⟩

theorem payload_read_back (inv : Invocation) (stamp : String) :
    Value.ofText (inv.payload stamp).indented = .ok (inv.payload stamp) :=
  Json.ofText_indented (inv.plain_payload stamp) (by decide)

end Invocation

/-- Two outputs are shown, the marker and right after it a document. It is read as an object that
reports a run of the command with the words at the stamp. -/
def Reports (c : Command) (words : List String) (stamp : String) (emissions : List Emission) :
    Prop :=
  ∃ front text last, emissions.map (·.action) = front ++ [
      .display ⟨.output, "--- CONTAINER STDOUT ---"⟩, .display ⟨.output, text⟩, last] ∧
    (∀ event, .display event ∈ last :: front → event.kind ≠ .output) ∧
    Value.ofText text = .ok (.object [
      ("status", .string "success"),
      ("timestamp", .string stamp),
      ("data", .object [
        ("message", .string ("Executed " ++ c.name ++ " successfully")),
        ("input_args", .array (words.map .string))])])

theorem Invocation.emissionsFrom_reports {inv : Invocation} (tag : inv.command.returns = "json")
    (delays : StageDelays) (clock : Watch) (now : Duration) :
    Reports inv.command inv.words (clock.stamp (inv.doneAt delays clock now))
      (inv.emissionsFrom delays clock now) := by
  have shape : inv.command.returnShape = .json := if_pos tag
  have result (stamp : String) : inv.result stamp = (inv.payload stamp).indented := by
    rw [Invocation.result, shape]
  refine ⟨((inv.emissionsFrom delays clock now).map (·.action)).take 5, _,
    .display ⟨.success, "[nexus] Command finished with exit code 0"⟩, rfl, ?_, ?_⟩
  · simp only [Invocation.emissionsFrom, Emission.event, List.map_cons, List.take_succ_cons,
      List.take_zero, List.mem_cons, Action.display.injEq, List.not_mem_nil, or_false]
    rintro event (rfl | rfl | rfl | rfl | rfl | rfl) <;> simp
  · rw [result]
    exact inv.payload_read_back _

/-- A run from the beginning of a turn reports its words under the stamp of its end. -/
theorem Invocation.run_reports {inv : Invocation} (tag : inv.command.returns = "json")
    (delays : StageDelays) (clock : Watch) :
    Reports inv.command inv.words (clock.stamp (inv.run delays clock .start).duration)
      (inv.run delays clock .start).emissions := by
  rw [inv.run_eq]
  exact Invocation.emissionsFrom_reports tag delays clock 0

theorem Reports.echoed {c : Command} {words : List String} {stamp : String}
    {emissions : List Emission} (h : Reports c words stamp emissions) (line : String) :
    Reports c words stamp (.event .input line 0 :: emissions) := by
  obtain ⟨front, text, last, shown, alone, read⟩ := h
  refine ⟨.display ⟨.input, line⟩ :: front, text, last, ?_, ?_, read⟩
  · rw [List.map_cons, shown]
    rfl
  · intro event mem
    rcases List.mem_cons.mp mem with rfl | mem
    · exact alone event List.mem_cons_self
    · rcases List.mem_cons.mp mem with same | mem
      · cases same
        exact fun same => nomatch same
      · exact alone event (List.mem_cons_of_mem _ mem)

namespace Terminal

/-- A command with the tag `json` answers to any words that give its required flags with a document that
reports them. On a line these are the words after the target. -/
theorem document_reports_words :
    (∀ (c : Command) (namespaceName : String) (words : List String) (inv : Invocation),
      c.returns = "json" → c.invoke namespaceName words = .ok inv →
      ∀ delays clock, let run := inv.run delays clock .start
        Reports c words (clock.stamp run.duration) run.emissions) ∧
    (∀ (s : Session) (line target : String) (given : List String) (m : Manifest) (c : Command),
      s.state.isLoggedIn = true → Text.wordsOf line = "nexus" :: "run" :: target :: given →
      resolve? s.cache target = some ⟨m, c⟩ → c.returns = "json" → c.missingFlags given = [] →
      ∀ o r clock, let turn := interpret o r clock s line
        Reports c given (clock.stamp turn.duration) turn.emissions) := by
  constructor
  · intro c namespaceName words inv tag invoked delays clock
    have bound : inv = ⟨namespaceName, c, words⟩ := by
      unfold Command.invoke at invoked
      split at invoked <;> cases invoked
      rfl
    subst bound
    exact Invocation.run_reports tag delays clock
  · intro s line target given m c entered words resolved tag complete o r clock turn
    have starts := starts_of_words entered words resolved complete
    have shown : turn = _ := interpret_of_starts o r clock starts
    rw [shown]
    exact (Invocation.emissionsFrom_reports tag o.stages clock 0).echoed (echo line)

/-- Quotes, a backslash, a control character and what would close the document are reported as they
are. -/
theorem awkward_words_are_reported :
    let c : Command := { fetch "ops:fetch" with returns := "json" }
    let m : Manifest := { fetchers "ops:fetch" with commands := [c] }
    let s : Session := ⟨.loggedIn true, [m]⟩
    let line := "nexus run fetch --out\\\"]\x7d\x7d\t\x01é😀 \"\""
    let given := ["--out\\\"]\x7d\x7d", "\x01é😀", "\"\""]
    let turn := interpret ⟨"me", 800, ⟨400, 400, 600⟩⟩ .empty (.showing "noon") s line
    c.returns = "json" ∧ c.invoke "ops" given = .ok ⟨"ops", c, given⟩ ∧
    Reports c given "noon" (Invocation.run ⟨"ops", c, given⟩ .none (.showing "noon") .start).emissions ∧
    s.state.isLoggedIn = true ∧ Text.wordsOf line = "nexus" :: "run" :: "fetch" :: given ∧
    resolve? s.cache "fetch" = some ⟨m, c⟩ ∧ c.missingFlags given = [] ∧
    Reports c given "noon" turn.emissions := by
  intro c m s line given turn
  have complete : c.missingFlags given = [] := by decide
  have words : Text.wordsOf line = "nexus" :: "run" :: "fetch" :: given := by decide
  exact ⟨rfl, rfl, document_reports_words.1 c "ops" given _ rfl rfl .none (.showing "noon"),
    rfl, words, rfl, complete,
    document_reports_words.2 s line "fetch" given m c rfl words rfl rfl complete _ _ _⟩

end Terminal

end CommandDeck
