import CommandDeck.Proofs.Manifest.Lookup
import CommandDeck.Terminal.Opening

/-!
# What the parts of a turn do

A part of a turn goes on from the turn as it has become, and an error keeps what has become of it by
then. So it has to be shown that a line that is refused has done nothing yet. All checks come before the
first event but one: a synchronisation shows an event, waits and asks the session again. By then the
session has been found logged in, and nothing has changed it, so this check does not fail.
-/

namespace CommandDeck

namespace Watch

/-- A watch that shows one stamp all the time, with an exact timer. -/
def showing (stamp : String) : Watch := ⟨fun _ => stamp, fun _ delay => delay⟩

end Watch

namespace Timeline

/-- The timeline after lines of output. -/
def outputs (t : Timeline) (lines : List String) : Timeline :=
  { t with emissions := t.emissions ++ lines.map fun line => .event .output line t.duration }

theorem outputs_nil (t : Timeline) : t.outputs [] = t := by
  simp [outputs]

theorem outputs_cons (t : Timeline) (line : String) (rest : List String) :
    t.outputs (line :: rest) = (t.event .output line).outputs rest := by
  simp [outputs, event, emit, Emission.event]

end Timeline

namespace Invocation

variable (inv : Invocation) (delays : StageDelays) (watch : Watch) (t : Timeline)

/-- The time at which the runtime is found, in a run that begins at the given one. -/
def resolvedAt (delays : StageDelays) (watch : Watch) (now : Duration) : Duration :=
  watch.after now delays.resolve

/-- The time at which the container has started. -/
def bridgedAt (delays : StageDelays) (watch : Watch) (now : Duration) : Duration :=
  watch.after (resolvedAt delays watch now) delays.bridge

/-- The time at which there is a result. -/
def doneAt (now : Duration) : Duration :=
  if inv.command.returns = "json" then watch.after (bridgedAt delays watch now) delays.payload
  else bridgedAt delays watch now

/-- What a run emits that begins at the given time. -/
def emissionsFrom (now : Duration) : List Emission :=
  let resolved := resolvedAt delays watch now
  let bridged := bridgedAt delays watch now
  let done := inv.doneAt delays watch now
  let c := inv.command
  [ .event .info ("[nexus] Resolving runtime for " ++ c.language ++ "...") now,
    .event .info ("[nexus] Using runtime: " ++ c.runtime) resolved,
    .event .info ("[bridge] Generating " ++ c.language ++ " bridge script...") resolved,
    .event .info ("[docker] Pulling image " ++ c.runtime ++ "...") bridged,
    .event .info "[docker] Container started (id: 8f2a1c)" bridged,
    .event .output "--- CONTAINER STDOUT ---" bridged,
    .event .output (inv.result (watch.stamp done)) done,
    .event .success "[nexus] Command finished with exit code 0" done ]

theorem begin_eq :
    let resolved := resolvedAt delays watch t.duration
    let bridged := bridgedAt delays watch t.duration
    let c := inv.command
    inv.begin delays watch t = ⟨t.emissions ++ [
      .event .info ("[nexus] Resolving runtime for " ++ c.language ++ "...") t.duration,
      .event .info ("[nexus] Using runtime: " ++ c.runtime) resolved,
      .event .info ("[bridge] Generating " ++ c.language ++ " bridge script...") resolved,
      .event .info ("[docker] Pulling image " ++ c.runtime ++ "...") bridged,
      .event .info "[docker] Container started (id: 8f2a1c)" bridged], bridged⟩ := by
  simp [begin, Timeline.event, Timeline.emit, Timeline.pause, Emission.event, resolvedAt, bridgedAt]

/-- Only a command with the tag `json` waits for its answer. -/
theorem answer_eq :
    let done := if inv.command.returns = "json" then watch.after t.duration delays.payload
      else t.duration
    inv.answer delays watch t = ⟨t.emissions ++ [
      .event .output "--- CONTAINER STDOUT ---" t.duration,
      .event .output (inv.result (watch.stamp done)) done], done⟩ := by
  by_cases json : inv.command.returns = "json"
  · have shape : inv.command.returnShape = .json := if_pos json
    simp [answer, shape, json, Timeline.event, Timeline.emit, Timeline.pause, Emission.event]
  · have shape : inv.command.returnShape ≠ .json := by
      unfold Command.returnShape ReturnShape.ofTag
      rw [if_neg json]
      split <;> exact nofun
    cases tag : inv.command.returnShape with
    | json => exact absurd tag shape
    | file => simp [answer, tag, json, Timeline.event, Timeline.emit, Emission.event]
    | text => simp [answer, tag, json, Timeline.event, Timeline.emit, Emission.event]

theorem run_eq :
    inv.run delays watch t =
      ⟨t.emissions ++ inv.emissionsFrom delays watch t.duration, inv.doneAt delays watch t.duration⟩ := by
  simp [run, begin_eq, answer_eq, Timeline.event, Timeline.emit, Emission.event, emissionsFrom, doneAt]

end Invocation

namespace InTurn

variable {α β : Type} (t : Turn)

@[simp] theorem bind_eq (part : InTurn α) (next : α → InTurn β) :
    (part >>= next) t =
      match part t with
      | .ok a u => next a u
      | .error e u => .error e u := by
  simp only [bind, EStateM.bind]
  cases part t <;> rfl

@[simp] theorem pure_eq (a : α) : (pure a : InTurn α) t = .ok a t := rfl

@[simp] theorem throw_eq (e : TurnError) : (throw e : InTurn α) t = .error e t := rfl

@[simp] theorem goOn_eq (f : Timeline → Timeline) : goOn f t = .ok () (t.goOn f) := rfl

@[simp] theorem event_eq (kind : EventKind) (content : String) :
    event kind content t = .ok () (t.goOn fun l => l.event kind content) := rfl

@[simp] theorem session_eq : session t = .ok t.session t := rfl

@[simp] theorem enter_eq (s : Session) : enter s t = .ok () { t with session := s } := rfl

@[simp] theorem accepted_ok (a : α) : accepted (.ok a) = pure a := rfl

@[simp] theorem accepted_error (e : SessionError) :
    (accepted (.error e) : InTurn α) = throw (.session e) := rfl

theorem outputs_eq (lines : List String) :
    outputs lines t = .ok () (t.goOn fun l => l.outputs lines) := by
  induction lines generalizing t with
  | nil => simp [outputs, Turn.goOn, Timeline.outputs_nil]
  | cons line rest ih => simp [outputs, ih, Turn.goOn, Timeline.outputs_cons]

end InTurn

namespace Session

/-- A session that has been found logged in is synchronised. The check in between does not fail. -/
theorem sync_of_requireLogin {s : Session} (allowed : s.state.requireLogin = .ok ())
    (snapshot : List Manifest) : s.sync snapshot = .ok ⟨.loggedIn true, snapshot⟩ := by
  simp only [sync, allowed]
  rfl

end Session

theorem requireLogin_of_open {state : SessionState} (entered : state.isLoggedIn = true) :
    state.requireLogin = .ok () := if_pos entered

theorem requireLogin_of_shut {state : SessionState} (shut : ¬ state.isLoggedIn = true) :
    state.requireLogin = .error .notLoggedIn := if_neg shut

namespace Terminal

open EStateM (Result)

variable (o : TerminalOptions) (r : Registry) (watch : Watch) (t : Turn)

/-- The turn after a login to a state. -/
def loggedIn (state : SessionState) : Turn :=
  { t with session := { t.session with state := state } }.goOn fun l =>
    l.event .success ("Successfully authenticated as " ++ o.account)

/-- The turn after a synchronisation. -/
def synced : Turn :=
  let l := (t.toTimeline.event .info "Connecting to Nexus Control Plane...").pause watch o.syncDelay
  ⟨l.event .success
    ("Synced " ++ String.ofList (NumberLayout.digits r.manifests.length) ++ " manifests."),
    ⟨.loggedIn true, r.manifests⟩⟩

/-- The checks of `nexus run` in their order, up to the first that fails. -/
def asked (cache : List Manifest) : List String → Except TurnError Invocation
  | [] => .error .missingTarget
  | target :: given =>
    if cache.isEmpty then .error .cacheEmpty
    else match resolve? cache target with
      | none => .error (.notFound target)
      | some r =>
        match r.command.invoke r.manifest.namespaceName given with
        | .error missing => .error (.missingFlags missing)
        | .ok inv => .ok inv

theorem login_eq (words : List String) :
    login o words t =
      match t.session.state.login words.head? with
      | .error e => .error (.session e) t
      | .ok state => .ok () (loggedIn o t state) := by
  cases checked : t.session.state.login words.head? with
  | error e => simp [login, checked]
  | ok state => simp [login, checked, loggedIn]

theorem sync_of_entered (entered : t.session.state.isLoggedIn = true) :
    sync o r watch t = .ok () (synced o r watch t) := by
  have filled := Session.sync_of_requireLogin (requireLogin_of_open entered) r.manifests
  simp [sync, synced, Turn.goOn, filled]

/-- A synchronisation alone can fail after its first event: it is not where a session is checked first. -/
theorem sync_of_shut (shut : ¬ t.session.state.isLoggedIn = true) :
    sync o r watch t = .error (.session .notLoggedIn) (t.goOn fun l =>
      (l.event .info "Connecting to Nexus Control Plane...").pause watch o.syncDelay) := by
  have refused : t.session.sync r.manifests = .error .notLoggedIn := by
    simp only [Session.sync, requireLogin_of_shut shut]
    rfl
  simp [sync, Turn.goOn, refused]

theorem run_eq (words : List String) :
    run o watch words t =
      match asked t.session.cache words with
      | .error e => .error e t
      | .ok inv => .ok () (t.goOn fun l => inv.run o.stages watch l) := by
  cases words with
  | nil => rfl
  | cons target given =>
    by_cases empty : t.session.cache = []
    · simp [run, asked, empty]
    · cases resolved : resolve? t.session.cache target with
      | none => simp [run, asked, empty, resolved]
      | some found =>
        cases invoked : found.command.invoke found.manifest.namespaceName given with
        | error missing => simp [run, asked, empty, resolved, invoked]
        | ok inv => simp [run, asked, empty, resolved, invoked]

theorem subcommand_of_shut (shut : ¬ t.session.state.isLoggedIn = true) {word : String}
    (other : word ≠ "login") (more : List String) :
    subcommand o r watch (word :: more) t = .error (.session .notLoggedIn) t := by
  simp [subcommand, other, requireLogin_of_shut shut]

theorem subcommand_of_entered (entered : t.session.state.isLoggedIn = true) {word : String}
    (other : word ≠ "login") (more : List String) :
    subcommand o r watch (word :: more) t =
      if word = "sync" then .ok () (synced o r watch t)
      else if word = "list" then .ok () (t.goOn fun l => l.outputs (listLines t.session.cache))
      else if word = "run" then run o watch more t
      else .error (.unknownSubcommand word) t := by
  simp only [subcommand, if_neg other, InTurn.bind_eq, InTurn.session_eq, requireLogin_of_open entered,
    InTurn.accepted_ok, InTurn.pure_eq]
  split
  · exact sync_of_entered o r watch t entered
  · split
    · exact InTurn.outputs_eq t _
    · split <;> rfl

theorem subcommand_sync (entered : t.session.state.isLoggedIn = true) (more : List String) :
    subcommand o r watch ("sync" :: more) t = .ok () (synced o r watch t) := by
  have other : "sync" ≠ "login" := by decide
  rw [subcommand_of_entered o r watch t entered other, if_pos rfl]

theorem subcommand_run (entered : t.session.state.isLoggedIn = true) (words : List String) :
    subcommand o r watch ("run" :: words) t = run o watch words t := by
  have other : "run" ≠ "login" := by decide
  rw [subcommand_of_entered o r watch t entered other]
  rfl

/-- What obeying the words of a line comes to. Where they are refused, the turn is as it was. -/
inductive Obeys : List String → Result TurnError Turn Unit → Prop where
  | refused {word : String} (more : List String) (other : word ≠ "clear") (e : TurnError) :
      Obeys (word :: more) (.error e t)
  | cleared (more : List String) : Obeys ("clear" :: more) (.ok () (t.goOn fun l => l.emit .clear))
  | told {word : String} (more : List String) (other : word ≠ "clear") (lines : List String) :
      Obeys (word :: more) (.ok () (t.goOn fun l => l.outputs lines))
  | entered {more : List String} {state : SessionState}
      (accepted : t.session.state.login more.head? = .ok state) :
      Obeys ("nexus" :: "login" :: more) (.ok () (loggedIn o t state))
  | synced (more : List String) (entered : t.session.state.isLoggedIn = true) :
      Obeys ("nexus" :: "sync" :: more) (.ok () (synced o r watch t))
  | ran {words : List String} {inv : Invocation} (entered : t.session.state.isLoggedIn = true)
      (complete : asked t.session.cache words = .ok inv) :
      Obeys ("nexus" :: "run" :: words) (.ok () (t.goOn fun l => inv.run o.stages watch l))

theorem obeys_of_entered (entered : t.session.state.isLoggedIn = true) {word : String}
    (other : word ≠ "login") (more : List String) :
    Obeys o r watch t ("nexus" :: word :: more) (subcommand o r watch (word :: more) t) := by
  have nexus : "nexus" ≠ "clear" := by decide
  rw [subcommand_of_entered o r watch t entered other]
  by_cases sync : word = "sync"
  · rw [if_pos sync, sync]
    exact .synced more entered
  rw [if_neg sync]
  by_cases list : word = "list"
  · rw [if_pos list]
    exact .told _ nexus _
  rw [if_neg list]
  by_cases runs : word = "run"
  · rw [if_pos runs, runs, run_eq]
    cases complete : asked t.session.cache more with
    | error e => exact .refused _ nexus e
    | ok inv => exact .ran entered complete
  · rw [if_neg runs]
    exact .refused _ nexus _

theorem obeys_subcommand (words : List String) :
    Obeys o r watch t ("nexus" :: words) (subcommand o r watch words t) := by
  have nexus : "nexus" ≠ "clear" := by decide
  cases words with
  | nil =>
    have told : subcommand o r watch [] t = .ok () (t.goOn fun l => l.outputs usage) :=
      InTurn.outputs_eq t usage
    rw [told]
    exact .told _ nexus usage
  | cons word more =>
    by_cases login : word = "login"
    · have asks : subcommand o r watch ("login" :: more) t = Terminal.login o more t := rfl
      rw [login, asks, login_eq]
      cases accepted : t.session.state.login more.head? with
      | error e => exact .refused _ nexus _
      | ok state => exact .entered accepted
    · by_cases entered : t.session.state.isLoggedIn = true
      · exact obeys_of_entered o r watch t entered login more
      · rw [subcommand_of_shut o r watch t entered login]
        exact .refused _ nexus _

theorem obeys_obey (word : String) (more : List String) :
    Obeys o r watch t (word :: more) (obey o r watch word more t) := by
  rw [obey]
  by_cases clear : word = "clear"
  · rw [if_pos clear, clear]
    exact .cleared more
  rw [if_neg clear]
  by_cases helps : word = "help"
  · rw [if_pos helps, InTurn.outputs_eq]
    exact .told more clear help
  rw [if_neg helps]
  by_cases nexus : word = "nexus"
  · rw [if_pos nexus, nexus]
    exact obeys_subcommand o r watch t more
  · rw [if_neg nexus]
    exact .refused more clear _

/-! ### Whole turns -/

/-- The echo of a line. -/
def echoed (line : String) : Emission := .event .input (echo line) 0

/-- The turn of a line that has been echoed. -/
def begun (s : Session) (line : String) : Turn := ⟨⟨[echoed line], 0⟩, s⟩

variable {s : Session} {line : String}

theorem interpret_of_blank (blank : Text.wordsOf line = []) :
    interpret o r watch s line = .start s := by
  simp only [interpret, blank]

theorem interpret_of_words {word : String} {more : List String}
    (words : Text.wordsOf line = word :: more) :
    interpret o r watch s line =
      match obey o r watch word more (begun s line) with
      | .ok () turn => turn
      | .error e turn => turn.goOn fun l => l.event .error e.message := by
  simp only [interpret, words]
  rfl

theorem interpret_synced (entered : s.state.isLoggedIn = true) {more : List String}
    (words : Text.wordsOf line = "nexus" :: "sync" :: more) :
    interpret o r watch s line = synced o r watch (begun s line) := by
  have obeyed : obey o r watch "nexus" ("sync" :: more) (begun s line) = _ :=
    subcommand_sync o r watch (begun s line) entered more
  rw [interpret_of_words o r watch words, obeyed]

theorem interpret_asked (entered : s.state.isLoggedIn = true) {given : List String}
    (words : Text.wordsOf line = "nexus" :: "run" :: given) :
    interpret o r watch s line =
      match asked s.cache given with
      | .error e => (begun s line).goOn fun l => l.event .error e.message
      | .ok inv => (begun s line).goOn fun l => inv.run o.stages watch l := by
  have obeyed : obey o r watch "nexus" ("run" :: given) (begun s line) = _ :=
    subcommand_run o r watch (begun s line) entered given
  rw [interpret_of_words o r watch words, obeyed, run_eq]
  simp only [begun]
  cases asked s.cache given with
  | error e => rfl
  | ok inv => rfl

end Terminal

end CommandDeck
