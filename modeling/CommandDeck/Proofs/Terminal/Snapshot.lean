import Mathlib.Data.List.Induction
import CommandDeck.Proofs.Registry.Coherence
import CommandDeck.Proofs.Terminal.Turn

/-!
# What the cache of a session holds

While a terminal is open, lines are typed and manifests are offered to its registry, in any order. A
line that synchronises fills the cache of the session with the manifests published at that moment.
Every other line leaves the cache alone, and no offer reaches it. So the cache is what was published
at the last synchronisation, and empty before the first.
-/

namespace CommandDeck

namespace Terminal

/-- A step in the life of an open terminal. A synchronisation looks at the registry when its delay is
over, so an offer made during the delay is a step before the line. -/
inductive Move where
  | line (clock : Watch) (text : String)
  | offer (o : Offer)

/-- A terminal with a new session. -/
def opened (o : TerminalOptions) (r : Registry) : Terminal := ⟨o, r, Session.initial⟩

def after (t : Terminal) : Move → Terminal
  | .line clock text => { t with session := (t.turn clock text).session }
  | .offer o => { t with registry := t.registry.after o }

def afterAll (t : Terminal) (moves : List Move) : Terminal := moves.foldl after t

/-- The move is a line that asks a session that is logged in to synchronise. -/
def Syncs (t : Terminal) : Move → Prop
  | .line _ text =>
    t.session.state.isLoggedIn = true ∧ ∃ more, Text.wordsOf text = "nexus" :: "sync" :: more
  | .offer _ => False

/-- The moves from `start` part into those before the last that synchronised, that one, and the later
ones. -/
structure LastSync (start : Terminal) (moves before : List Move) (m : Move)
    (later : List Move) : Prop where
  parts : moves = before ++ m :: later
  syncs : (start.afterAll before).Syncs m
  none_later : ∀ between next rest, later = between ++ next :: rest →
    ¬ (start.afterAll (before ++ m :: between)).Syncs next

/-- What a line that does not synchronise makes of a session: nothing, but that a login opens a session
that was logged out. -/
def Continues (s next : Session) : Prop :=
  next = s ∨ (s.state = .loggedOut ∧ next = ⟨.loggedIn false, s.cache⟩)

theorem login_continues {s : Session} {key? : Option String} {state : SessionState}
    (accepted : s.state.login key? = .ok state) : Continues s { s with state := state } := by
  unfold SessionState.login at accepted
  split at accepted
  · split at accepted
    · rename_i old
      cases accepted
      exact Or.inr ⟨old, rfl⟩
    · rename_i synced old
      cases accepted
      left
      rw [← old]
  · cases accepted

/-- A line that synchronises fills the cache with what is published. -/
theorem interpret_of_sync (o : TerminalOptions) (r : Registry) (clock : Watch) {s : Session}
    {line : String} {more : List String} (entered : s.state.isLoggedIn = true)
    (words : Text.wordsOf line = "nexus" :: "sync" :: more) :
    (interpret o r clock s line).session = ⟨.loggedIn true, r.manifests⟩ := by
  rw [interpret_synced o r clock entered words]
  rfl

theorem interpret_of_other (o : TerminalOptions) (r : Registry) (clock : Watch) {s : Session}
    {line : String}
    (other : ¬ (s.state.isLoggedIn = true ∧
      ∃ more, Text.wordsOf line = "nexus" :: "sync" :: more)) :
    Continues s (interpret o r clock s line).session := by
  cases words : Text.wordsOf line with
  | nil =>
    rw [interpret_of_blank o r clock words]
    exact Or.inl rfl
  | cons word more =>
    rw [words] at other
    rw [interpret_of_words o r clock words]
    have obeyed := obeys_obey o r clock (begun s line) word more
    generalize obey o r clock word more (begun s line) = result at obeyed ⊢
    cases obeyed with
    | refused => exact Or.inl rfl
    | cleared => exact Or.inl rfl
    | told => exact Or.inl rfl
    | entered accepted => exact login_continues accepted
    | synced more entered => exact absurd ⟨entered, more, rfl⟩ other
    | ran => exact Or.inl rfl

/-- What a move does, by whether it synchronises. -/
theorem after_session_of_syncs {t : Terminal} {m : Move} (h : t.Syncs m) :
    (t.after m).session = ⟨.loggedIn true, t.registry.manifests⟩ := by
  cases m with
  | line clock text =>
    obtain ⟨entered, more, words⟩ := h
    exact interpret_of_sync t.options t.registry clock entered words
  | offer o => exact h.elim

theorem after_session_of_not_syncs {t : Terminal} {m : Move} (h : ¬ t.Syncs m) :
    Continues t.session (t.after m).session := by
  cases m with
  | line clock text => exact interpret_of_other t.options t.registry clock h
  | offer o => exact Or.inl rfl

theorem afterAll_append (t : Terminal) (moves more : List Move) :
    t.afterAll (moves ++ more) = (t.afterAll moves).afterAll more :=
  List.foldl_append

theorem afterAll_concat (t : Terminal) (moves : List Move) (m : Move) :
    t.afterAll (moves ++ [m]) = (t.afterAll moves).after m := afterAll_append t moves [m]

/-- A session that was never filled has an empty cache. -/
def Sound (s : Session) : Prop := s.state ≠ .loggedIn true → s.cache = []

theorem Continues.sound {s next : Session} (h : Continues s next) (sound : Sound s) :
    Sound next := by
  rcases h with rfl | ⟨out, rfl⟩
  · exact sound
  · intro _
    exact sound (by rw [out]; decide)

theorem sound_after {t : Terminal} (sound : Sound t.session) (m : Move) :
    Sound (t.after m).session := by
  by_cases h : t.Syncs m
  · rw [after_session_of_syncs h]
    exact fun unfilled => absurd rfl unfilled
  · exact (after_session_of_not_syncs h).sound sound

theorem sound_afterAll {t : Terminal} (sound : Sound t.session) (moves : List Move) :
    Sound (t.afterAll moves).session := by
  induction moves generalizing t with
  | nil => exact sound
  | cons m rest ih => exact ih (sound_after sound m)

/-- A session stays logged in, and it stays filled. -/
theorem stays_after (t : Terminal) (m : Move) :
    (t.session.state ≠ .loggedOut → (t.after m).session.state ≠ .loggedOut) ∧
    (t.session.state = .loggedIn true → (t.after m).session.state = .loggedIn true) := by
  by_cases h : t.Syncs m
  · rw [after_session_of_syncs h]
    exact ⟨fun _ => by simp, fun _ => rfl⟩
  · rcases after_session_of_not_syncs h with same | ⟨out, opened⟩
    · rw [same]
      exact ⟨id, id⟩
    · rw [out, opened]
      exact ⟨fun again => absurd rfl again, fun filled => by cases filled⟩

theorem stays_afterAll (t : Terminal) (moves : List Move) :
    (t.session.state ≠ .loggedOut → (t.afterAll moves).session.state ≠ .loggedOut) ∧
    (t.session.state = .loggedIn true → (t.afterAll moves).session.state = .loggedIn true) := by
  induction moves generalizing t with
  | nil => exact ⟨id, id⟩
  | cons m rest ih =>
    obtain ⟨logged, filled⟩ := stays_after t m
    obtain ⟨loggedLater, filledLater⟩ := ih (t.after m)
    exact ⟨fun h => loggedLater (logged h), fun h => filledLater (filled h)⟩

theorem cache_after_of_not_syncs {t : Terminal} {m : Move} (h : ¬ t.Syncs m) :
    (t.after m).session.cache = t.session.cache := by
  rcases after_session_of_not_syncs h with same | ⟨_, opened⟩
  · rw [same]
  · rw [opened]

theorem filled_of_after {t : Terminal} {m : Move} (h : ¬ t.Syncs m)
    (filled : (t.after m).session.state = .loggedIn true) :
    t.session.state = .loggedIn true := by
  rcases after_session_of_not_syncs h with same | ⟨_, opened⟩
  · rwa [same] at filled
  · rw [opened] at filled
    cases filled

theorem LastSync.of_syncs {start : Terminal} {moves : List Move} {m : Move}
    (h : (start.afterAll moves).Syncs m) : LastSync start (moves ++ [m]) moves m [] where
  parts := rfl
  syncs := h
  none_later := by
    intro between next rest impossible
    simp at impossible

theorem LastSync.concat {start : Terminal} {moves before later : List Move} {m last : Move}
    (h : LastSync start moves before m later) (other : ¬ (start.afterAll moves).Syncs last) :
    LastSync start (moves ++ [last]) before m (later ++ [last]) where
  parts := by rw [h.parts]; simp
  syncs := h.syncs
  none_later := by
    intro between next rest later_parts
    rcases List.eq_nil_or_concat rest with rfl | ⟨rest, x, rfl⟩
    · obtain ⟨rfl, same⟩ := List.append_inj' later_parts rfl
      cases same
      rw [← h.parts]
      exact other
    · have shorter : later = between ++ next :: rest := by
        rw [List.concat_eq_append, ← List.cons_append, ← List.append_assoc] at later_parts
        exact (List.append_inj' later_parts rfl).1
      exact h.none_later between next rest shorter

/-- The cache of a filled session is what was published when it was filled last. -/
theorem exists_lastSync {start : Terminal} (unfilled : start.session.state ≠ .loggedIn true)
    (moves : List Move) (filled : (start.afterAll moves).session.state = .loggedIn true) :
    ∃ before m later, LastSync start moves before m later ∧
      (start.afterAll moves).session.cache = (start.afterAll before).registry.manifests := by
  induction moves using List.reverseRecOn with
  | nil => exact absurd filled unfilled
  | append_singleton moves last ih =>
    rw [afterAll_concat] at filled ⊢
    by_cases h : (start.afterAll moves).Syncs last
    · exact ⟨moves, last, [], .of_syncs h, by rw [after_session_of_syncs h]⟩
    · obtain ⟨before, m, later, lastSync, held⟩ := ih (filled_of_after h filled)
      refine ⟨before, m, later ++ [last], lastSync.concat h, ?_⟩
      rw [cache_after_of_not_syncs h, held]

/-- However lines and offers follow each other, the cache of the session is empty until a line
synchronises, and then what was published at the last line that did. Nothing but such a line changes
it, and a session neither logs out nor forgets that it was filled. -/
theorem cache_follows_last_sync (o : TerminalOptions) (r : Registry) (moves : List Move) :
    (((opened o r).afterAll moves).session.state ≠ .loggedIn true →
      ((opened o r).afterAll moves).session.cache = []) ∧
    (((opened o r).afterAll moves).session.state = .loggedIn true →
      ∃ before m later, LastSync (opened o r) moves before m later ∧
        ((opened o r).afterAll moves).session.cache =
          ((opened o r).afterAll before).registry.manifests) ∧
    (∀ m, ((opened o r).afterAll moves).Syncs m →
      ((opened o r).afterAll (moves ++ [m])).session =
        ⟨.loggedIn true, ((opened o r).afterAll moves).registry.manifests⟩) ∧
    (∀ m, ¬ ((opened o r).afterAll moves).Syncs m →
      ((opened o r).afterAll (moves ++ [m])).session.cache =
        ((opened o r).afterAll moves).session.cache) ∧
    ∀ more,
      (((opened o r).afterAll moves).session.state ≠ .loggedOut →
        ((opened o r).afterAll (moves ++ more)).session.state ≠ .loggedOut) ∧
      (((opened o r).afterAll moves).session.state = .loggedIn true →
        ((opened o r).afterAll (moves ++ more)).session.state = .loggedIn true) := by
  refine ⟨sound_afterAll (fun _ => rfl) moves, exists_lastSync (by simp [opened, Session.initial])
    moves, ?_, ?_, ?_⟩
  · intro m syncs
    rw [afterAll_concat]
    exact after_session_of_syncs syncs
  · intro m other
    rw [afterAll_concat]
    exact cache_after_of_not_syncs other
  · intro more
    rw [afterAll_append]
    exact stays_afterAll _ more

/-- Offers before and after a synchronisation. The cache keeps the demo manifest as it was then, while
the registry has a newer one, until the session synchronises again. -/
theorem cache_keeps_what_was_published :
    let line (text : String) : Move := .line (.showing "noon") text
    let login := line "nexus login nxs_1"
    let sync := line "nexus sync"
    let offers := Registry.mixedOffers.map Move.offer
    let start := opened ⟨"me", 800, ⟨400, 400, 600⟩⟩ (Registry.seeded "0")
    let before := login :: offers.take 1
    let later := offers.drop 1 ++ [login]
    let moves := before ++ sync :: later
    (start.afterAll before).session = ⟨.loggedIn false, []⟩ ∧
    LastSync start moves before sync later ∧
    (start.afterAll moves).registry.manifests = [Manifest.demo "3", Manifest.scaffold "1"] ∧
    (start.afterAll moves).session =
      ⟨.loggedIn true, [Manifest.demo "0", Manifest.scaffold "1"]⟩ ∧
    (start.afterAll (moves ++ [sync])).session =
      ⟨.loggedIn true, [Manifest.demo "3", Manifest.scaffold "1"]⟩ := by
  intro line login sync offers start before later moves
  have syncs : ∀ {t : Terminal}, t.session.state.isLoggedIn = true → t.Syncs sync :=
    fun entered => ⟨entered, [], by decide⟩
  have listed : (start.afterAll moves).registry.manifests =
      [Manifest.demo "3", Manifest.scaffold "1"] := Registry.manifests_run_mixed
  have seen : (start.afterAll before).registry.manifests =
      [Manifest.demo "0", Manifest.scaffold "1"] :=
    Registry.manifests_run_seeded "0" (Registry.mixedOffers.take 1)
  have kept : (start.afterAll moves).session =
      ⟨.loggedIn true, (start.afterAll before).registry.manifests⟩ := rfl
  have other : ¬ (start.afterAll (before ++ sync :: offers.drop 1)).Syncs login := by
    rintro ⟨-, more, words⟩
    have first : (Text.wordsOf "nexus login nxs_1").take 2 = ["nexus", "sync"] := by rw [words]; rfl
    exact absurd first (by decide)
  have synced : LastSync start (before ++ [sync]) before sync [] := .of_syncs (syncs rfl)
  have offered : LastSync start
      (before ++ [sync] ++ [.offer Registry.mixedOffers[1]] ++ [.offer Registry.mixedOffers[2]])
      before sync (offers.drop 1) := (synced.concat id).concat id
  have lastSync : LastSync start moves before sync later := offered.concat other
  have again := (cache_follows_last_sync start.options start.registry moves).2.2.1 sync (syncs rfl)
  exact ⟨rfl, lastSync, listed, by rw [kept, seen], again.trans (by rw [← listed]; rfl)⟩

example (o : TerminalOptions) (r : Registry) (c : Watch) (next : Offer) :
    ((opened o r).afterAll [.line c "nexus login nxs_1", .line c " nexus\tsync now", .offer next,
      .line c "nexus login nxs_2"]).session = ⟨.loggedIn true, r.manifests⟩ := by
  rfl

end Terminal

end CommandDeck
