import CommandDeck.Proofs.Registry.Observation
import CommandDeck.Proofs.Terminal.Snapshot

/-!
# Two terminals side by side

Two terminals with one account that are given the same lines answer alike as long as their sessions are
alike, whatever their delays and clocks are and whatever is published meanwhile: `Turn.Alike` leaves the
times and the stamp of a payload open, and nothing else. Only a line that synchronises looks at the
registry. So the turns of two runs are alike when what is published agrees at these lines, and before
the first of them they are the same.
-/

namespace CommandDeck

/-- The same action, but that two payloads of one invocation may have different stamps. -/
inductive Action.Alike : Action → Action → Prop where
  | same (a : Action) : Alike a a
  | payload (inv : Invocation) (stamp other : String) :
      Alike (.display ⟨.output, (inv.payload stamp).indented⟩)
        (.display ⟨.output, (inv.payload other).indented⟩)

def Emission.Alike (e f : Emission) : Prop := e.action.Alike f.action

/-- Both turns show the same, at whatever times, and end in the same session. -/
structure Turn.Alike (t u : Turn) : Prop where
  emissions : List.Forall₂ Emission.Alike t.emissions u.emissions
  session : t.session = u.session

theorem Emission.alike_event (kind : EventKind) (content : String) (time later : Duration) :
    (Emission.event kind content time).Alike (.event kind content later) := .same _

theorem Emission.alike_refl (emissions : List Emission) :
    List.Forall₂ Emission.Alike emissions emissions :=
  List.forall₂_same.mpr fun e _ => .same e.action

namespace Invocation

theorem result_alike (inv : Invocation) (stamp other : String) (time later : Duration) :
    (Emission.event .output (inv.result stamp) time).Alike
      (.event .output (inv.result other) later) := by
  unfold result
  cases inv.command.returnShape with
  | json => exact .payload inv stamp other
  | file => exact .same _
  | text => exact .same _

theorem emissionsFrom_alike (inv : Invocation) (delays others : StageDelays) (clock watch : Watch)
    (now later : Duration) :
    List.Forall₂ Emission.Alike (inv.emissionsFrom delays clock now)
      (inv.emissionsFrom others watch later) := by
  simp only [emissionsFrom, List.forall₂_cons]
  refine ⟨?_, ?_, ?_, ?_, ?_, ?_, inv.result_alike _ _ _ _, ?_, .nil⟩ <;>
    exact Emission.alike_event _ _ _ _

end Invocation

namespace Turn.Alike

variable {t u : Turn}

/-- Both turns go on alike. -/
theorem goOn (h : t.Alike u) {f g : Timeline → Timeline} {more others : List Emission}
    (first : (f t.toTimeline).emissions = t.emissions ++ more)
    (second : (g u.toTimeline).emissions = u.emissions ++ others)
    (alike : List.Forall₂ Emission.Alike more others) : (t.goOn f).Alike (u.goOn g) := by
  refine ⟨?_, h.session⟩
  have both : List.Forall₂ Emission.Alike (t.emissions ++ more) (u.emissions ++ others) :=
    List.rel_append h.emissions alike
  rwa [← first, ← second] at both

theorem event (h : t.Alike u) (kind : EventKind) (content : String) :
    (t.goOn fun l => l.event kind content).Alike (u.goOn fun l => l.event kind content) :=
  h.goOn rfl rfl (.cons (Emission.alike_event _ _ _ _) .nil)

theorem clear (h : t.Alike u) : (t.goOn fun l => l.emit .clear).Alike (u.goOn fun l => l.emit .clear) :=
  h.goOn rfl rfl (.cons (.same _) .nil)

theorem outputs (h : t.Alike u) (lines : List String) :
    (t.goOn fun l => l.outputs lines).Alike (u.goOn fun l => l.outputs lines) := by
  refine h.goOn rfl rfl ?_
  rw [List.forall₂_map_left_iff, List.forall₂_map_right_iff]
  exact List.forall₂_same.mpr fun line _ => Emission.alike_event _ _ _ _

theorem run (h : t.Alike u) (inv : Invocation) (delays others : StageDelays) (clock watch : Watch) :
    (t.goOn fun l => inv.run delays clock l).Alike (u.goOn fun l => inv.run others watch l) :=
  h.goOn (congrArg Timeline.emissions (inv.run_eq delays clock t.toTimeline))
    (congrArg Timeline.emissions (inv.run_eq others watch u.toTimeline))
    (inv.emissionsFrom_alike _ _ _ _ _ _)

end Turn.Alike

namespace Terminal

open EStateM (Result)

/-- A line is refused for the same reason, or obeyed, and the turns stand alike. -/
inductive Agree : Result TurnError Turn Unit → Result TurnError Turn Unit → Prop where
  | refused (e : TurnError) {t u : Turn} (alike : t.Alike u) : Agree (.error e t) (.error e u)
  | obeyed {t u : Turn} (alike : t.Alike u) : Agree (.ok () t) (.ok () u)

section

variable {o p : TerminalOptions} {r q : Registry} (clock watch : Watch) {t u : Turn}

theorem outputs_agree (alike : t.Alike u) (lines : List String) :
    Agree (InTurn.outputs lines t) (InTurn.outputs lines u) := by
  rw [InTurn.outputs_eq, InTurn.outputs_eq]
  exact .obeyed (alike.outputs lines)

theorem login_agree (alike : t.Alike u) (account : o.account = p.account) (words : List String) :
    Agree (login o words t) (login p words u) := by
  rw [login_eq, login_eq, alike.session]
  cases u.session.state.login words.head? with
  | error e => exact .refused _ alike
  | ok state =>
    have logged : Turn.Alike { t with session := { t.session with state := state } }
        { u with session := { u.session with state := state } } :=
      ⟨alike.emissions, by rw [alike.session]⟩
    simp only [loggedIn, account]
    exact .obeyed (logged.event _ _)

theorem synced_alike (alike : t.Alike u) (same : r.manifests = q.manifests) :
    (synced o r clock t).Alike (synced p q watch u) := by
  have both : ∀ first last, List.Forall₂ Emission.Alike
      (t.emissions ++ [.event .info first t.duration] ++
        [.event .success last (clock.after t.duration o.syncDelay)])
      (u.emissions ++ [.event .info first u.duration] ++
        [.event .success last (watch.after u.duration p.syncDelay)]) := fun first last =>
    List.rel_append
      (List.rel_append alike.emissions (.cons (Emission.alike_event _ first _ _) .nil))
      (.cons (Emission.alike_event _ last _ _) .nil)
  simp only [synced, same]
  exact ⟨both _ _, rfl⟩

theorem run_agree (alike : t.Alike u) (words : List String) :
    Agree (run o clock words t) (run p watch words u) := by
  rw [run_eq, run_eq, alike.session]
  cases asked u.session.cache words with
  | error e => exact .refused e alike
  | ok inv => exact .obeyed (alike.run inv _ _ _ _)

theorem entered_agree (alike : t.Alike u) (entered : t.session.state.isLoggedIn = true) {word : String}
    (other : word ≠ "login") (more : List String)
    (same : word = "sync" → r.manifests = q.manifests) :
    Agree (subcommand o r clock (word :: more) t) (subcommand p q watch (word :: more) u) := by
  have entered' : u.session.state.isLoggedIn = true := alike.session ▸ entered
  rw [subcommand_of_entered o r clock t entered other,
    subcommand_of_entered p q watch u entered' other]
  by_cases sync : word = "sync"
  · rw [if_pos sync, if_pos sync]
    exact .obeyed (synced_alike clock watch alike (same sync))
  rw [if_neg sync, if_neg sync]
  by_cases list : word = "list"
  · rw [if_pos list, if_pos list, alike.session]
    exact .obeyed (alike.outputs _)
  rw [if_neg list, if_neg list]
  by_cases runs : word = "run"
  · rw [if_pos runs, if_pos runs]
    exact run_agree clock watch alike more
  · rw [if_neg runs, if_neg runs]
    exact .refused _ alike

theorem subcommand_agree (alike : t.Alike u) (account : o.account = p.account) (words : List String)
    (same : t.session.state.isLoggedIn = true → (∃ more, words = "sync" :: more) →
      r.manifests = q.manifests) :
    Agree (subcommand o r clock words t) (subcommand p q watch words u) := by
  cases words with
  | nil => exact outputs_agree alike usage
  | cons word more =>
    by_cases login : word = "login"
    · subst login
      exact login_agree alike account more
    by_cases entered : t.session.state.isLoggedIn = true
    · refine entered_agree clock watch alike entered login more fun sync => ?_
      exact same entered ⟨more, by rw [sync]⟩
    · have shut : ¬ u.session.state.isLoggedIn = true := alike.session ▸ entered
      rw [subcommand_of_shut o r clock t entered login, subcommand_of_shut p q watch u shut login]
      exact .refused _ alike

theorem obey_agree (alike : t.Alike u) (account : o.account = p.account) (word : String)
    (more : List String)
    (same : t.session.state.isLoggedIn = true → (∃ rest, word :: more = "nexus" :: "sync" :: rest) →
      r.manifests = q.manifests) :
    Agree (obey o r clock word more t) (obey p q watch word more u) := by
  by_cases nexus : word = "nexus"
  · subst nexus
    refine subcommand_agree clock watch alike account more fun entered sync => ?_
    obtain ⟨rest, rfl⟩ := sync
    exact same entered ⟨rest, rfl⟩
  rw [obey, obey, if_neg nexus, if_neg nexus]
  by_cases clear : word = "clear"
  · rw [if_pos clear]
    exact .obeyed alike.clear
  rw [if_neg clear]
  by_cases helps : word = "help"
  · rw [if_pos helps]
    exact outputs_agree alike help
  · rw [if_neg helps]
    exact .refused _ alike

/-- Only a line for `nexus` depends on the terminal. -/
theorem obey_congr {word : String} {more : List String}
    (same : word = "nexus" → subcommand o r clock more t = subcommand p q watch more t) :
    obey o r clock word more t = obey p q watch word more t := by
  by_cases nexus : word = "nexus"
  · subst nexus
    exact same rfl
  · rw [obey, obey, if_neg nexus, if_neg nexus]

end

section

variable {o p : TerminalOptions} {r q : Registry} (clock watch : Watch) (s : Session)

theorem begun_alike (line : String) : (begun s line).Alike (begun s line) :=
  ⟨Emission.alike_refl _, rfl⟩

/-- The registry matters only to a line that synchronises. -/
theorem interpret_alike (account : o.account = p.account) (line : String)
    (same : s.state.isLoggedIn = true → (∃ more, Text.wordsOf line = "nexus" :: "sync" :: more) →
      r.manifests = q.manifests) :
    (interpret o r clock s line).Alike (interpret p q watch s line) := by
  cases words : Text.wordsOf line with
  | nil =>
    rw [interpret_of_blank o r clock words, interpret_of_blank p q watch words]
    exact ⟨.nil, rfl⟩
  | cons word more =>
    rw [words] at same
    rw [interpret_of_words o r clock words, interpret_of_words p q watch words]
    have agree := obey_agree clock watch (begun_alike s line) account word more same
    generalize obey o r clock word more (begun s line) = outcome at agree ⊢
    generalize obey p q watch word more (begun s line) = other at agree ⊢
    cases agree with
    | refused e alike => exact alike.event _ _
    | obeyed alike => exact alike

theorem asked_of_empty (words : List String) : ∃ e, asked [] words = .error e := by
  cases words with
  | nil => exact ⟨_, rfl⟩
  | cons target given => exact ⟨_, rfl⟩

theorem subcommand_of_empty {t : Turn} (account : o.account = p.account)
    (empty : t.session.cache = []) {words : List String}
    (other : ¬ (t.session.state.isLoggedIn = true ∧ ∃ more, words = "sync" :: more)) :
    subcommand o r clock words t = subcommand p q watch words t := by
  cases words with
  | nil => rfl
  | cons word more =>
    by_cases login : word = "login"
    · subst login
      have same : Terminal.login o more t = Terminal.login p more t := by
        simp only [login_eq, loggedIn, account]
      exact same
    · by_cases entered : t.session.state.isLoggedIn = true
      · have unsynced : word ≠ "sync" := fun sync => other ⟨entered, more, by rw [sync]⟩
        obtain ⟨e, refused⟩ := asked_of_empty more
        rw [subcommand_of_entered o r clock t entered login,
          subcommand_of_entered p q watch t entered login, if_neg unsynced, if_neg unsynced, run_eq,
          run_eq, empty, refused]
      · rw [subcommand_of_shut o r clock t entered login, subcommand_of_shut p q watch t entered login]

/-- With an empty cache, a line that does not synchronise has the same turn whatever is published and
whatever the delays are. -/
theorem interpret_of_empty (account : o.account = p.account) (empty : s.cache = [])
    {line : String}
    (other : ¬ (s.state.isLoggedIn = true ∧
      ∃ more, Text.wordsOf line = "nexus" :: "sync" :: more)) :
    interpret o r clock s line = interpret p q watch s line := by
  cases words : Text.wordsOf line with
  | nil => rw [interpret_of_blank o r clock words, interpret_of_blank p q watch words]
  | cons word more =>
    have obeyed : obey o r clock word more (begun s line) = obey p q watch word more (begun s line) := by
      refine obey_congr clock watch fun nexus => subcommand_of_empty clock watch account empty ?_
      rintro ⟨entered, rest, rfl⟩
      exact other ⟨entered, rest, by rw [words, nexus]⟩
    rw [interpret_of_words o r clock words, interpret_of_words p q watch words, obeyed]

end

/-- The lines among moves. -/
def linesOf : List Move → List String
  | [] => []
  | .line _ text :: rest => text :: linesOf rest
  | .offer _ :: rest => linesOf rest

/-- The turns of a run, one for each line. -/
def turns (t : Terminal) : List Move → List Turn
  | [] => []
  | .line clock text :: rest => t.turn clock text :: (t.after (.line clock text)).turns rest
  | .offer o :: rest => (t.after (.offer o)).turns rest

theorem asksToSync_iff (words : List String) :
    words.take 2 = ["nexus", "sync"] ↔ ∃ more, words = "nexus" :: "sync" :: more := by
  constructor
  · intro first
    refine ⟨words.drop 2, ?_⟩
    conv_lhs => rw [← List.take_append_drop 2 words, first]
    rfl
  · rintro ⟨more, rfl⟩
    rfl

instance (t : Terminal) : DecidablePred t.Syncs
  | .line _ text => decidable_of_iff
      (t.session.state.isLoggedIn = true ∧ (Text.wordsOf text).take 2 = ["nexus", "sync"])
      (and_congr_right fun _ => asksToSync_iff _)
  | .offer _ => isFalse id

/-- What is published at each line of a run that synchronises. -/
def snapshots (t : Terminal) : List Move → List (List Manifest)
  | [] => []
  | m :: rest =>
    if t.Syncs m then t.registry.manifests :: (t.after m).snapshots rest
    else (t.after m).snapshots rest

/-- Two runs with the same lines, move by move. -/
inductive InStep : List Move → List Move → Prop where
  | done : InStep [] []
  | left (o : Offer) {ms ns : List Move} (rest : InStep ms ns) : InStep (.offer o :: ms) ns
  | right (o : Offer) {ms ns : List Move} (rest : InStep ms ns) : InStep ms (.offer o :: ns)
  | line (clock watch : Watch) (text : String) {ms ns : List Move} (rest : InStep ms ns) :
      InStep (.line clock text :: ms) (.line watch text :: ns)

theorem inStep_of_linesOf_eq {ms ns : List Move} (same : linesOf ms = linesOf ns) :
    InStep ms ns := by
  induction ms generalizing ns with
  | nil =>
    induction ns with
    | nil => exact .done
    | cons n ns ih =>
      cases n with
      | line watch text => cases same
      | offer o => exact .right o (ih same)
  | cons m ms ih =>
    cases m with
    | offer o => exact .left o (ih same)
    | line clock text =>
      induction ns with
      | nil => cases same
      | cons n ns inner =>
        cases n with
        | offer o => exact .right o (inner same)
        | line watch other =>
          obtain ⟨rfl, later⟩ := List.cons.inj same
          exact .line clock watch text (ih later)

section

variable {t u : Terminal} {ms ns : List Move}

theorem snapshots_of_syncs {m : Move} (syncs : t.Syncs m) (rest : List Move) :
    t.snapshots (m :: rest) = t.registry.manifests :: (t.after m).snapshots rest := if_pos syncs

theorem snapshots_of_not_syncs {m : Move} (other : ¬ t.Syncs m) (rest : List Move) :
    t.snapshots (m :: rest) = (t.after m).snapshots rest := if_neg other

theorem syncs_congr (session : t.session = u.session) (clock watch : Watch)
    (text : String) : t.Syncs (.line clock text) ↔ u.Syncs (.line watch text) := by
  rw [Syncs, Syncs, session]

theorem turn_alike (account : t.options.account = u.options.account)
    (session : t.session = u.session) (clock watch : Watch) (text : String)
    (same : t.Syncs (.line clock text) → t.registry.manifests = u.registry.manifests) :
    (t.turn clock text).Alike (u.turn watch text) := by
  rw [turn, turn, ← session]
  exact interpret_alike clock watch t.session account text fun entered sync => same ⟨entered, sync⟩

theorem turns_alike (inStep : InStep ms ns) (account : t.options.account = u.options.account)
    (session : t.session = u.session) (same : t.snapshots ms = u.snapshots ns) :
    List.Forall₂ Turn.Alike (t.turns ms) (u.turns ns) := by
  induction inStep generalizing t u with
  | done => exact .nil
  | left o rest ih => exact ih account session same
  | right o rest ih => exact ih account session same
  | line clock watch text rest ih =>
    have both := syncs_congr session clock watch text
    by_cases syncs : t.Syncs (.line clock text)
    · rw [snapshots_of_syncs syncs, snapshots_of_syncs (both.mp syncs)] at same
      obtain ⟨published, later⟩ := List.cons.inj same
      have alike := turn_alike account session clock watch text fun _ => published
      exact .cons alike (ih account alike.session later)
    · rw [snapshots_of_not_syncs syncs, snapshots_of_not_syncs (syncs ∘ both.mpr)] at same
      have alike := turn_alike account session clock watch text fun k => absurd k syncs
      exact .cons alike (ih account alike.session same)

theorem turns_eq_of_unsynced (inStep : InStep ms ns)
    (account : t.options.account = u.options.account) (session : t.session = u.session)
    (empty : t.session.cache = []) (unsynced : t.snapshots ms = []) :
    t.turns ms = u.turns ns := by
  induction inStep generalizing t u with
  | done => rfl
  | left o rest ih => exact ih account session empty unsynced
  | right o rest ih => exact ih account session empty unsynced
  | line clock watch text rest ih =>
    have other : ¬ t.Syncs (.line clock text) := by
      intro syncs
      rw [snapshots_of_syncs syncs] at unsynced
      cases unsynced
    rw [snapshots_of_not_syncs other] at unsynced
    have same : t.turn clock text = u.turn watch text := by
      rw [turn, turn, ← session]
      exact interpret_of_empty clock watch t.session account empty other
    have next : (t.after (.line clock text)).session = (u.after (.line watch text)).session :=
      congrArg Turn.session same
    have kept := (cache_after_of_not_syncs other).trans empty
    exact congrArg₂ List.cons same (ih account next kept unsynced)

end

/-- Two terminals with one account open on registries of their own and are given the same lines. If what
is published agrees at the lines that synchronise, they show the same but for the stamps of payloads, and
their sessions are the same after every line. If no line has synchronised, all that they show is the
same, whatever is published. -/
theorem registry_shows_by_sync_only {o p : TerminalOptions} (account : o.account = p.account)
    (r q : Registry) {ms ns : List Move} (lines : linesOf ms = linesOf ns) :
    ((opened o r).snapshots ms = (opened p q).snapshots ns →
      List.Forall₂ Turn.Alike ((opened o r).turns ms) ((opened p q).turns ns)) ∧
    ((opened o r).snapshots ms = [] → (opened o r).turns ms = (opened p q).turns ns) :=
  have inStep := inStep_of_linesOf_eq lines
  ⟨turns_alike inStep account rfl, turns_eq_of_unsynced inStep account rfl rfl⟩

/-- One terminal opens with the demo manifest, to another it is published after the login. The demo
command runs alike in both, and their logins are the same. -/
theorem demo_runs_alike :
    let o : TerminalOptions := ⟨"me", 0, .none⟩
    let p : TerminalOptions := ⟨"me", 800, ⟨400, 400, 600⟩⟩
    let line (s : String) : Move := .line (.showing "noon") s
    let demo : Move := .offer ⟨"0", Manifest.demo "9"⟩
    let login := line "nexus login nxs_1"
    let ms := [login, line "nexus sync", line "nexus run invoice-generate"]
    let ns := [login, demo, line "nexus sync", line "nexus run invoice-generate"]
    let t := opened o (Registry.seeded "0")
    let u := opened p Registry.empty
    o.account = p.account ∧ linesOf ms = linesOf ns ∧
    t.snapshots ms = [[Manifest.demo "0"]] ∧ u.snapshots ns = [[Manifest.demo "0"]] ∧
    List.Forall₂ Turn.Alike (t.turns ms) (u.turns ns) ∧
    t.snapshots [login] = [] ∧ t.turns [login] = u.turns [login, demo] := by
  intro o p line demo login ms ns t u
  have published : (Registry.empty.after ⟨"0", Manifest.demo "9"⟩).manifests =
      [Manifest.demo "0"] := Registry.manifests_after_empty (by decide)
  have ht : t.snapshots ms = [[Manifest.demo "0"]] := by
    rw [← Registry.seeded_manifests]
    rfl
  have hu : u.snapshots ns = [[Manifest.demo "0"]] := by
    rw [← published]
    rfl
  have account : o.account = p.account := rfl
  have lines : linesOf ms = linesOf ns := rfl
  have lines' : linesOf [login] = linesOf [login, demo] := rfl
  refine ⟨account, lines, ht, hu, ?_, rfl, ?_⟩
  · exact (registry_shows_by_sync_only account (Registry.seeded "0") Registry.empty lines).1
      (ht.trans hu.symm)
  · exact (registry_shows_by_sync_only account (Registry.seeded "0") Registry.empty lines').2 rfl

end Terminal

end CommandDeck
