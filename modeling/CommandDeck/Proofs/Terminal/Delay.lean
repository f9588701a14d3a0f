import CommandDeck.Proofs.Terminal.Agreement

/-!
# Delays

Delays move the times of what a terminal shows and nothing else. Two kinds of line take time: one that
synchronises pauses once, and one that starts an invocation pauses before its stages, and once more before
a document. A pause takes the time for which the timer waits, and none where there is no delay. So where
the timer is exact, the times are sums of delays.
-/

namespace CommandDeck

namespace Duration

theorem add_zero (d : Duration) : d + 0 = d := rfl

theorem zero_add (d : Duration) : 0 + d = d :=
  congrArg Duration.mk (Nat.zero_add d.nanos)

end Duration

namespace Watch

/-- The timer waits for this delay just as long as it is, whenever the wait begins. -/
def Exact (w : Watch) (delay : Duration) : Prop := ∀ now, w.wait now delay = delay

theorem Exact.after_eq {w : Watch} {delay : Duration} (h : w.Exact delay) (now : Duration) :
    w.after now delay = now + delay := by
  unfold after
  split
  · rename_i none
    rw [none, Duration.add_zero]
  · rw [h now]

end Watch

/-- The same move, whatever the clock shows during a line, and however long its timer waits. -/
inductive Terminal.Move.Alike : Terminal.Move → Terminal.Move → Prop where
  | line (clock watch : Watch) (text : String) : Alike (.line clock text) (.line watch text)
  | offer (o : Offer) : Alike (.offer o) (.offer o)

namespace Turn

/-- The turn takes no time, and all of it comes at once. -/
structure Instant (t : Turn) : Prop where
  duration : t.duration = 0
  times : ∀ e ∈ t.emissions, e.time = 0

namespace Instant

variable {t : Turn}

theorem emit (h : t.Instant) (action : Action) : (t.goOn fun l => l.emit action).Instant := by
  refine ⟨h.duration, ?_⟩
  intro e he
  rcases List.mem_append.mp he with he | he
  · exact h.times e he
  · rw [List.mem_singleton.mp he]
    exact h.duration

theorem outputs (h : t.Instant) (lines : List String) :
    (t.goOn fun l => l.outputs lines).Instant := by
  refine ⟨h.duration, ?_⟩
  intro e he
  rcases List.mem_append.mp he with he | he
  · exact h.times e he
  · obtain ⟨line, _, rfl⟩ := List.mem_map.mp he
    exact h.duration

end Instant

end Turn

namespace Terminal

/-- The words name a command of the cache and give all its required flags. -/
structure Invokes (cache : List Manifest) (words : List String) (inv : Invocation) : Prop where
  found : ∃ target m, words = target :: inv.words ∧
    resolve? cache target = some ⟨m, inv.command⟩ ∧ m.namespaceName = inv.namespaceName
  complete : inv.command.missingFlags inv.words = []

/-- The line starts the invocation. -/
structure Starts (s : Session) (line : String) (inv : Invocation) : Prop where
  entered : s.state.isLoggedIn = true
  invokes : ∃ words, Text.wordsOf line = "nexus" :: "run" :: words ∧ Invokes s.cache words inv

/-- What is run was found in the cache and has its flags, and all that is so is run. -/
theorem asked_eq_ok_iff {cache : List Manifest} {words : List String} {inv : Invocation} :
    asked cache words = .ok inv ↔ Invokes cache words inv := by
  constructor
  · intro h
    cases words with
    | nil => cases h
    | cons target given =>
      rw [asked] at h
      split at h
      · cases h
      · cases resolved : resolve? cache target with
        | none => rw [resolved] at h; cases h
        | some found =>
          rw [resolved] at h
          dsimp only [Command.invoke] at h
          cases missing : found.command.missingFlags given with
          | cons flag more => rw [missing] at h; cases h
          | nil =>
            rw [missing] at h
            cases h
            exact ⟨⟨target, found.manifest, rfl, resolved, rfl⟩, missing⟩
  · rintro ⟨⟨target, m, rfl, resolved, named⟩, complete⟩
    have filled : cache.isEmpty = false := by
      cases cache with
      | nil => cases resolved
      | cons => rfl
    simp only [asked, filled, resolved, Command.invoke, complete, named]
    rfl

section

variable (o : TerminalOptions) (r : Registry) (clock : Watch) {s : Session} {line : String}

theorem begun_instant (s : Session) (line : String) : (begun s line).Instant :=
  ⟨rfl, fun _ he => by rw [List.mem_singleton.mp he]; rfl⟩

/-- A line that neither synchronises nor starts anything takes no time. -/
theorem interpret_instant
    (unsynced : ¬ (s.state.isLoggedIn = true ∧
      ∃ more, Text.wordsOf line = "nexus" :: "sync" :: more))
    (unstarted : ∀ inv, ¬ Starts s line inv) : (interpret o r clock s line).Instant := by
  have echoed := begun_instant s line
  cases words : Text.wordsOf line with
  | nil =>
    rw [interpret_of_blank o r clock words]
    exact ⟨rfl, fun e he => absurd he List.not_mem_nil⟩
  | cons word more =>
    rw [interpret_of_words o r clock words]
    have obeyed := obeys_obey o r clock (begun s line) word more
    generalize obey o r clock word more (begun s line) = result at obeyed ⊢
    cases obeyed with
    | refused => exact echoed.emit _
    | cleared => exact echoed.emit .clear
    | told more other lines => exact echoed.outputs lines
    | entered accepted => exact ⟨rfl, (echoed.emit _).times⟩
    | synced more entered => exact absurd ⟨entered, more, words⟩ unsynced
    | @ran given inv entered complete =>
      exact absurd ⟨entered, given, words, asked_eq_ok_iff.mp complete⟩ (unstarted inv)

theorem interpret_of_starts {inv : Invocation} (h : Starts s line inv) :
    interpret o r clock s line =
      ⟨⟨.event .input (echo line) 0 :: inv.emissionsFrom o.stages clock 0,
        inv.doneAt o.stages clock 0⟩, s⟩ := by
  obtain ⟨entered, words, split, invokes⟩ := h
  rw [interpret_asked o r clock entered split, asked_eq_ok_iff.mpr invokes]
  simp only [Turn.goOn, inv.run_eq]
  rfl

end

/-- Runs that differ in delays and clocks only are alike, turn by turn. -/
theorem turns_of_delays {t u : Terminal} {ms ns : List Move}
    (account : t.options.account = u.options.account) (published : t.registry = u.registry)
    (session : t.session = u.session) (alike : List.Forall₂ Move.Alike ms ns) :
    List.Forall₂ Turn.Alike (t.turns ms) (u.turns ns) := by
  induction alike generalizing t u with
  | nil => exact .nil
  | cons move rest ih =>
    cases move with
    | line clock watch text =>
      have alike := turn_alike account session clock watch text fun _ => by rw [published]
      exact .cons alike (ih account published alike.session)
    | offer o =>
      have next : t.registry.after o = u.registry.after o := by rw [published]
      exact ih account next session

/-- Two terminals that differ in their delays show the same, but for the stamps of payloads, and have the
same sessions, however the clocks go. A line that synchronises takes the time of its pause. A line that
starts an invocation takes those of the first two stages, and of the third if the command answers with a
document, and each event comes when its stage is over. Every other line takes no time. A pause takes as
long as the timer waits for the delay, so these are the delays and their sums where the timer is exact. -/
theorem delays_move_times_only (account : String) (syncDelay other : Duration)
    (stages others : StageDelays) (r : Registry) (s : Session) {ms ns : List Move}
    (alike : List.Forall₂ Move.Alike ms ns) :
    let o : TerminalOptions := ⟨account, syncDelay, stages⟩
    let p : TerminalOptions := ⟨account, other, others⟩
    List.Forall₂ Turn.Alike ((⟨o, r, s⟩ : Terminal).turns ms) ((⟨p, r, s⟩ : Terminal).turns ns) ∧
    ∀ clock line, let turn := interpret o r clock s line
      let syncs := s.state.isLoggedIn = true ∧
        ∃ more, Text.wordsOf line = "nexus" :: "sync" :: more
      (syncs →
        let filled := clock.after 0 syncDelay
        turn.duration = filled ∧ turn.emissions = [
          .event .input (echo line) 0,
          .event .info "Connecting to Nexus Control Plane..." 0,
          .event .success ("Synced " ++ String.ofList (NumberLayout.digits r.manifests.length) ++
            " manifests.") filled] ∧
        (clock.Exact syncDelay → filled = syncDelay)) ∧
      (∀ inv, Starts s line inv →
        let resolved := clock.after 0 stages.resolve
        let bridged := clock.after resolved stages.bridge
        let answers := inv.command.returns = "json"
        let done := if answers then clock.after bridged stages.payload else bridged
        let c := inv.command
        turn.duration = done ∧ turn.emissions = [
          .event .input (echo line) 0,
          .event .info ("[nexus] Resolving runtime for " ++ c.language ++ "...") 0,
          .event .info ("[nexus] Using runtime: " ++ c.runtime) resolved,
          .event .info ("[bridge] Generating " ++ c.language ++ " bridge script...") resolved,
          .event .info ("[docker] Pulling image " ++ c.runtime ++ "...") bridged,
          .event .info "[docker] Container started (id: 8f2a1c)" bridged,
          .event .output "--- CONTAINER STDOUT ---" bridged,
          .event .output (inv.result (clock.stamp done)) done,
          .event .success "[nexus] Command finished with exit code 0" done] ∧
        (clock.Exact stages.resolve → clock.Exact stages.bridge →
          (answers → clock.Exact stages.payload) →
          resolved = stages.resolve ∧ bridged = stages.resolve + stages.bridge ∧
          done = stages.resolve + stages.bridge + if answers then stages.payload else 0)) ∧
      (¬ syncs → (∀ inv, ¬ Starts s line inv) → turn.Instant) := by
  intro o p
  refine ⟨turns_of_delays rfl rfl rfl alike, ?_⟩
  intro clock line turn syncs
  refine ⟨?_, ?_, interpret_instant o r clock⟩
  · rintro ⟨entered, more, words⟩ filled
    have turn_eq : turn = synced o r clock (begun s line) := interpret_synced o r clock entered words
    refine ⟨congrArg (·.duration) turn_eq, congrArg (·.emissions) turn_eq, ?_⟩
    intro exact
    exact (exact.after_eq 0).trans (Duration.zero_add syncDelay)
  · intro inv starts resolved bridged answers done c
    have turn_eq := interpret_of_starts o r clock starts
    refine ⟨congrArg (·.duration) turn_eq, congrArg (·.emissions) turn_eq, ?_⟩
    intro resolving bridging answering
    have first : resolved = stages.resolve :=
      (resolving.after_eq 0).trans (Duration.zero_add stages.resolve)
    have second : bridged = stages.resolve + stages.bridge := by
      rw [← first]
      exact bridging.after_eq resolved
    refine ⟨first, second, ?_⟩
    rw [← second]
    by_cases json : answers
    · simp only [done, if_pos json]
      exact (answering json).after_eq bridged
    · simp only [done, if_neg json]
      rfl

/-- A command that answers with a document takes all three delays. After a synchronisation with an empty
registry it is not found any more, with delays or without. -/
theorem document_after_delays :
    let command : Command :=
      { name := "status", id := "ops:status", description := "", sourceFile := "",
        sourceRange? := none, language := "go", entrypoint := "", runtime := "go:1", arguments := [],
        returns := "json", isAsync := false, confidence := Binary64.one, examples := [] }
    let m : Manifest := { Manifest.scaffold "0" with namespaceName := "ops", commands := [command] }
    let inv : Invocation := ⟨"ops", command, ["--all"]⟩
    let s : Session := ⟨.loggedIn true, [m]⟩
    let o : TerminalOptions := ⟨"me", 800, ⟨400, 400, 600⟩⟩
    let line := "nexus run status --all"
    let typed (clock : Watch) : List Move :=
      ["nexus list", line, "nexus sync", line].map (.line clock)
    let noon := Watch.showing "noon"
    let midnight := Watch.showing "midnight"
    List.Forall₂ Move.Alike (typed noon) (typed midnight) ∧ Starts s line inv ∧
    (∀ delay, noon.Exact delay) ∧
    List.Forall₂ Turn.Alike ((⟨o, .empty, s⟩ : Terminal).turns (typed noon))
      ((⟨o.withoutDelays, .empty, s⟩ : Terminal).turns (typed midnight)) ∧
    (interpret o .empty noon s line).duration = 1400 := by
  intro command m inv s o line typed noon midnight
  have alike : List.Forall₂ Move.Alike (typed noon) (typed midnight) := by
    simp only [typed, List.map_cons, List.map_nil, List.forall₂_cons]
    exact ⟨.line _ _ _, .line _ _ _, .line _ _ _, .line _ _ _, .nil⟩
  have words : Text.wordsOf line = ["nexus", "run", "status", "--all"] := by decide
  have starts : Starts s line inv := ⟨rfl, _, words, ⟨"status", m, rfl, rfl, rfl⟩, rfl⟩
  have exact : ∀ delay, noon.Exact delay := fun _ _ => rfl
  obtain ⟨shown, timed⟩ :=
    delays_move_times_only "me" 800 0 ⟨400, 400, 600⟩ .none .empty s alike
  obtain ⟨time, -, sums⟩ := (timed noon line).2.1 inv starts
  obtain ⟨-, -, done⟩ := sums (exact _) (exact _) fun _ => exact _
  have sum : (400 : Duration) + 400 + 600 = 1400 := by decide
  exact ⟨alike, starts, exact, shown, (time.trans done).trans sum⟩

/-- With a timer that ends every wait after thirty years, a line that synchronises takes less time than a
longer delay. -/
theorem long_delay_ends_early :
    let o : TerminalOptions := ⟨"me", 946080000001, .none⟩
    let timer (_ delay : Duration) : Duration :=
      if delay.millis ≤ 946080000000 then delay else 946080000000
    let s : Session := ⟨.loggedIn false, []⟩
    let turn := interpret o (Registry.seeded "0") ⟨fun _ => "noon", timer⟩ s "nexus sync"
    turn.session.state = .loggedIn true ∧ turn.duration = 946080000000 ∧
      turn.duration ≠ o.syncDelay := by
  exact ⟨rfl, by decide, by decide⟩

end Terminal

end CommandDeck
