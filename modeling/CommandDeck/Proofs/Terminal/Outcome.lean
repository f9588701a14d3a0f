import CommandDeck.Proofs.Terminal.Addressing

/-!
# What the words after `nexus run` come to

A session that is logged in answers `nexus run` in one of five ways: there is no target, there is no
cache, the target is unknown, a required flag is missing, or a command runs. `Outcome` says for each of
them when it comes, without following the checks one by one. Exactly one of them comes, and the turn shows
it and leaves the session alone.
-/

namespace CommandDeck

namespace Argument

/-- Some word begins with the flag of the argument. -/
def IsGiven (a : Argument) (words : List String) : Prop := ∃ w ∈ words, a.cli.toList <+: w.toList

theorem isGiven_iff (a : Argument) (words : List String) :
    CommandDeck.isGiven a.cli words = true ↔ a.IsGiven words := by
  simp only [CommandDeck.isGiven, IsGiven, List.any_eq_true, List.isPrefixOf_iff_prefix]

instance (a : Argument) (words : List String) : Decidable (a.IsGiven words) :=
  decidable_of_iff _ (a.isGiven_iff words)

end Argument

namespace Command

/-- The flags of the required arguments that no word gives, in the order of the arguments. -/
def flagsNotGiven (c : Command) (words : List String) : List String :=
  (c.arguments.filter fun a => a.required = true ∧ ¬ a.IsGiven words).map (·.cli)

theorem missingFlags_eq (c : Command) (words : List String) :
    c.missingFlags words = c.flagsNotGiven words := by
  rw [missingFlags, requiredArguments, List.filter_filter, flagsNotGiven]
  congr 1
  refine List.filter_congr fun a _ => ?_
  rw [Bool.eq_iff_iff]
  simp [← a.isGiven_iff words, and_comm]

theorem flagsNotGiven_eq_nil_iff (c : Command) (words : List String) :
    c.flagsNotGiven words = [] ↔
      ∀ a ∈ c.arguments, a.required = true → a.IsGiven words := by
  simp [flagsNotGiven]

end Command

namespace Terminal

/-- What `nexus run` with the words after it comes to, over the cache of a session that is logged in. -/
inductive Outcome (cache : List Manifest) :
    List String → Except TurnError Invocation → Prop where
  | untargeted : Outcome cache [] (.error .missingTarget)
  | unsynced {target : String} {given : List String} (empty : cache = []) :
      Outcome cache (target :: given) (.error .cacheEmpty)
  | unknown {target : String} {given : List String} (filled : cache ≠ [])
      (others : ∀ m ∈ cache, ∀ c ∈ m.commands, c.id ≠ target ∧ c.name ≠ target) :
      Outcome cache (target :: given) (.error (.notFound target))
  | incomplete {target : String} {given : List String} {m : Manifest} {c : Command}
      (resolved : resolve? cache target = some ⟨m, c⟩)
      (lacks : ∃ a ∈ c.arguments, a.required = true ∧ ¬ a.IsGiven given) :
      Outcome cache (target :: given) (.error (.missingFlags (c.flagsNotGiven given)))
  | runs {target : String} {given : List String} {m : Manifest} {c : Command}
      (resolved : resolve? cache target = some ⟨m, c⟩)
      (complete : ∀ a ∈ c.arguments, a.required = true → a.IsGiven given) :
      Outcome cache (target :: given) (.ok ⟨m.namespaceName, c, given⟩)

theorem filled_of_resolve? {cache : List Manifest} {target : String} {r : Resolved}
    (resolved : resolve? cache target = some r) : cache.isEmpty = false := by
  obtain ⟨held, _, _⟩ := mem_of_resolve? resolved
  exact List.isEmpty_eq_false_iff.mpr (List.ne_nil_of_mem held)

theorem invoke_eq (c : Command) (namespaceName : String) (words : List String) :
    c.invoke namespaceName words =
      if c.flagsNotGiven words = [] then .ok ⟨namespaceName, c, words⟩
      else .error (c.flagsNotGiven words) := by
  rw [Command.invoke, c.missingFlags_eq]
  cases c.flagsNotGiven words <;> rfl

theorem outcome_iff {cache : List Manifest} {words : List String}
    {outcome : Except TurnError Invocation} :
    Outcome cache words outcome ↔ asked cache words = outcome := by
  constructor
  · intro h
    cases h with
    | untargeted => rfl
    | unsynced empty => rw [empty]; rfl
    | unknown filled others =>
      have none := (resolve?_eq_none_iff cache _).mpr others
      simp [asked, filled, none]
    | @incomplete _ given _ c resolved lacks =>
      have missing : c.flagsNotGiven given ≠ [] := fun nil => by
        obtain ⟨a, mem, required, absent⟩ := lacks
        exact absent ((c.flagsNotGiven_eq_nil_iff given).mp nil a mem required)
      simp only [asked, filled_of_resolve? resolved, resolved, invoke_eq, if_neg missing]
      rfl
    | @runs _ given _ c resolved complete =>
      have none := (c.flagsNotGiven_eq_nil_iff given).mpr complete
      simp only [asked, filled_of_resolve? resolved, resolved, invoke_eq, if_pos none]
      rfl
  · rintro rfl
    cases words with
    | nil => exact .untargeted
    | cons target given =>
      by_cases empty : cache = []
      · subst empty
        exact .unsynced rfl
      · cases resolved : resolve? cache target with
        | none =>
          have others := (resolve?_eq_none_iff cache target).mp resolved
          have none : Outcome cache (target :: given) (.error (.notFound target)) :=
            .unknown empty others
          simpa [asked, empty, resolved] using none
        | some r =>
          obtain ⟨m, c⟩ := r
          by_cases nil : c.flagsNotGiven given = []
          · have complete := (c.flagsNotGiven_eq_nil_iff given).mp nil
            simpa [asked, empty, resolved, invoke_eq, nil] using
              Outcome.runs resolved complete
          · have lacks : ∃ a ∈ c.arguments, a.required = true ∧ ¬ a.IsGiven given := by
              simpa [c.flagsNotGiven_eq_nil_iff] using nil
            simpa [asked, empty, resolved, invoke_eq, nil] using
              Outcome.incomplete resolved lacks

/-- The events that a turn shows after its echo when it comes to `outcome`. -/
def outcomeEvents (stamp : String) : Except TurnError Invocation → List Event
  | .error e => [⟨.error, e.message⟩]
  | .ok inv => [
      ⟨.info, "[nexus] Resolving runtime for " ++ inv.command.language ++ "..."⟩,
      ⟨.info, "[nexus] Using runtime: " ++ inv.command.runtime⟩,
      ⟨.info, "[bridge] Generating " ++ inv.command.language ++ " bridge script..."⟩,
      ⟨.info, "[docker] Pulling image " ++ inv.command.runtime ++ "..."⟩,
      ⟨.info, "[docker] Container started (id: 8f2a1c)"⟩,
      ⟨.output, "--- CONTAINER STDOUT ---"⟩,
      ⟨.output, if inv.command.returns = "json" then (inv.payload stamp).indented
        else "Command " ++ inv.command.name ++ " executed successfully."⟩,
      ⟨.success, "[nexus] Command finished with exit code 0"⟩]

theorem result_eq (inv : Invocation) (stamp : String) :
    inv.result stamp = if inv.command.returns = "json" then (inv.payload stamp).indented
      else "Command " ++ inv.command.name ++ " executed successfully." := by
  unfold Invocation.result Command.returnShape ReturnShape.ofTag
  split_ifs <;> rfl

theorem interpret_run (o : TerminalOptions) (r : Registry) (clock : Watch) {s : Session}
    {line : String} {words : List String} (entered : s.state.isLoggedIn = true)
    (split : Text.wordsOf line = "nexus" :: "run" :: words) :
    let turn := interpret o r clock s line
    turn.session = s ∧ turn.emissions.map (·.action) =
      .display ⟨.input, echo line⟩ ::
        (outcomeEvents (clock.stamp turn.duration) (asked s.cache words)).map .display := by
  intro turn
  simp only [turn, interpret_asked o r clock entered split]
  cases asked s.cache words with
  | error e => exact ⟨rfl, rfl⟩
  | ok inv =>
    have result := result_eq inv (clock.stamp (inv.doneAt o.stages clock 0))
    simp only [Turn.goOn, inv.run_eq]
    refine ⟨rfl, ?_⟩
    simp [begun, echoed, outcomeEvents, Invocation.emissionsFrom, Emission.event, result]

/-- In a session that is logged in, the words after `nexus run` come to exactly one outcome, whichever
the cache and the words. The turn shows the echo and then one error, if that is the outcome, or else the
eight events of the run, and the session is as before. -/
theorem run_comes_to_one_outcome {s : Session} {line : String} {words : List String}
    (entered : s.state.isLoggedIn = true) (split : Text.wordsOf line = "nexus" :: "run" :: words)
    (o : TerminalOptions) (r : Registry) (clock : Watch) :
    let turn := interpret o r clock s line
    ∃ outcome, Outcome s.cache words outcome ∧
      (∀ other, Outcome s.cache words other → other = outcome) ∧
      turn.emissions.map (·.action) =
        .display ⟨.input, echo line⟩ :: (outcomeEvents (clock.stamp turn.duration) outcome).map .display ∧
      turn.session = s := by
  intro turn
  obtain ⟨session, shown⟩ := interpret_run o r clock entered split
  refine ⟨asked s.cache words, outcome_iff.mpr rfl, ?_, shown, session⟩
  intro other h
  exact (outcome_iff.mp h).symm

/-- A word that only begins with a required flag gives it, so that the command runs. -/
theorem longer_word_gives_flag :
    let c := fetch "ops:fetch"
    let s : Session := ⟨.loggedIn true, [fetchers "ops:fetch"]⟩
    let line := "nexus run fetch --output x"
    let turn := interpret ⟨"me", 800, ⟨400, 400, 600⟩⟩ .empty (.showing "noon") s line
    s.state.isLoggedIn = true ∧
    Text.wordsOf line = "nexus" :: "run" :: ["fetch", "--output", "x"] ∧
    Outcome s.cache ["fetch", "--output", "x"] (.ok ⟨"ops", c, ["--output", "x"]⟩) ∧
    ∃ outcome, Outcome s.cache ["fetch", "--output", "x"] outcome ∧
      (∀ other, Outcome s.cache ["fetch", "--output", "x"] other → other = outcome) ∧
      turn.emissions.map (·.action) =
        .display ⟨.input, echo line⟩ :: (outcomeEvents "noon" outcome).map .display ∧
      turn.session = s := by
  intro c s line turn
  have entered : s.state.isLoggedIn = true := rfl
  have words : Text.wordsOf line = "nexus" :: "run" :: ["fetch", "--output", "x"] := by decide
  have given : ∀ a ∈ c.arguments, a.required = true → a.IsGiven ["--output", "x"] := by decide
  exact ⟨entered, words, .runs (m := fetchers "ops:fetch") rfl given,
    run_comes_to_one_outcome entered words _ _ _⟩

end Terminal

end CommandDeck
