import CommandDeck.Proofs.Terminal.Snapshot
import CommandDeck.Proofs.Text.Words

/-!
# What a transcript holds

A line is silent, is refused with one error, clears the screen, or is obeyed. `Answer` says so with all
that a turn emits and with the session after it: the error of a refused line comes right after the echo
and is the last event of its turn, and the session is the one before. A transcript is therefore made of
blocks, one for each line since the screen was cleared last.
-/

namespace CommandDeck

namespace Emission

/-- The event that an emission shows. -/
def shown? (e : Emission) : Option Event :=
  match e.action with
  | .display event => some event
  | .clear => none

/-- The events that emissions show. -/
def eventsOf (emissions : List Emission) : List Event := emissions.filterMap shown?

/-- The emission shows an event that is neither an echo nor an error. -/
def Plain (e : Emission) : Prop :=
  ∃ event, e.action = .display event ∧ event.kind ≠ .input ∧ event.kind ≠ .error

theorem plain_event {kind : EventKind} (content : String) (time : Duration) (input : kind ≠ .input)
    (error : kind ≠ .error) : (Emission.event kind content time).Plain :=
  ⟨_, rfl, input, error⟩

end Emission

namespace Transcript

/-- Emissions that show an event each are appended. -/
theorem record_of_shown (t : Transcript) {emissions : List Emission}
    (shown : ∀ e ∈ emissions, ∃ event, e.action = .display event) :
    t.record emissions = ⟨t.events ++ Emission.eventsOf emissions⟩ := by
  induction emissions generalizing t with
  | nil => simp [record, Emission.eventsOf]
  | cons e rest ih =>
    obtain ⟨event, display⟩ := shown e List.mem_cons_self
    have step : t.record (e :: rest) = (t.perform e.action).record rest := rfl
    rw [step, ih _ fun x hx => shown x (List.mem_cons_of_mem _ hx), display]
    simp [perform, Emission.eventsOf, Emission.shown?, display]

end Transcript

/-- The events of one line: none, an echo with the error of a line that is refused, or an echo and then
events of which none is an echo or an error. -/
inductive Block : List Event → Prop where
  | silent : Block []
  | refused (line message : String) : Block [⟨.input, line⟩, ⟨.error, message⟩]
  | obeyed (line : String) (events : List Event)
      (plain : ∀ e ∈ events, e.kind ≠ .input ∧ e.kind ≠ .error) : Block (⟨.input, line⟩ :: events)

theorem Invocation.emissionsFrom_plain (inv : Invocation) (delays : StageDelays) (clock : Watch)
    (now : Duration) : ∀ e ∈ inv.emissionsFrom delays clock now, e.Plain := by
  simp only [Invocation.emissionsFrom, List.forall_mem_cons]
  refine ⟨?_, ?_, ?_, ?_, ?_, ?_, ?_, ?_, by simp⟩ <;>
    exact Emission.plain_event _ _ (by decide) (by decide)

namespace Terminal

/-- What a line can make of a session. -/
inductive Answer (line : String) (s : Session) : Turn → Prop where
  | silent (blank : Text.wordsOf line = []) : Answer line s (.start s)
  | cleared {more : List String} (words : Text.wordsOf line = "clear" :: more) :
      Answer line s ⟨⟨[echoed line, ⟨.clear, 0⟩], 0⟩, s⟩
  | refused {word : String} {more : List String} (words : Text.wordsOf line = word :: more)
      (other : word ≠ "clear") (e : TurnError) :
      Answer line s ⟨⟨[echoed line, .event .error e.message 0], 0⟩, s⟩
  | obeyed {word : String} {more : List String} (words : Text.wordsOf line = word :: more)
      (other : word ≠ "clear") {turn : Turn} {rest : List Emission}
      (emissions : turn.emissions = echoed line :: rest) (plain : ∀ e ∈ rest, e.Plain) :
      Answer line s turn

theorem outputs_plain (lines : List String) :
    ∀ e ∈ lines.map fun line => Emission.event .output line 0, e.Plain := by
  intro e he
  obtain ⟨line, _, rfl⟩ := List.mem_map.mp he
  exact Emission.plain_event line 0 (by decide) (by decide)

/-- Every turn is an answer of one of the four kinds. -/
theorem answer_interpret (o : TerminalOptions) (r : Registry) (clock : Watch) (s : Session)
    (line : String) : Answer line s (interpret o r clock s line) := by
  cases words : Text.wordsOf line with
  | nil =>
    rw [interpret_of_blank o r clock words]
    exact .silent words
  | cons word more =>
    rw [interpret_of_words o r clock words]
    have obeyed := obeys_obey o r clock (begun s line) word more
    generalize obey o r clock word more (begun s line) = result at obeyed ⊢
    cases obeyed with
    | refused more other e => exact .refused words other e
    | cleared more => exact .cleared words
    | told more other lines => exact .obeyed words other rfl (outputs_plain lines)
    | entered accepted =>
      refine .obeyed words (by decide) rfl ?_
      exact List.forall_mem_singleton.mpr (Emission.plain_event _ 0 (by decide) (by decide))
    | synced more entered =>
      refine .obeyed words (by decide) rfl
        (List.forall_mem_cons.mpr ⟨?_, List.forall_mem_singleton.mpr ?_⟩)
      · exact Emission.plain_event _ _ (by decide) (by decide)
      · exact Emission.plain_event _ _ (by decide) (by decide)
    | @ran given inv entered complete =>
      rw [Turn.goOn, inv.run_eq]
      exact .obeyed words (by decide) rfl (inv.emissionsFrom_plain o.stages clock 0)

namespace Answer

variable {line : String} {s : Session} {turn : Turn}

theorem of_blank (h : Answer line s turn) (blank : Text.isBlankText line = true) :
    turn.emissions = [] ∧ turn.session = s := by
  have none := (Text.wordsOf_eq_nil_iff line).mpr blank
  cases h with
  | silent => exact ⟨rfl, rfl⟩
  | cleared words => exact absurd (words.symm.trans none) (List.cons_ne_nil _ _)
  | refused words => exact absurd (words.symm.trans none) (List.cons_ne_nil _ _)
  | obeyed words => exact absurd (words.symm.trans none) (List.cons_ne_nil _ _)

/-- A line that is not blank is echoed once, before all else. -/
theorem of_filled (h : Answer line s turn) (filled : Text.isBlankText line = false) :
    ∃ rest, turn.emissions = echoed line :: rest ∧
      ∀ e ∈ rest, ∀ content, e.action ≠ .display ⟨.input, content⟩ := by
  cases h with
  | silent blank =>
    rw [(Text.wordsOf_eq_nil_iff line).mp blank] at filled
    cases filled
  | cleared => exact ⟨_, rfl, by simp⟩
  | refused => exact ⟨_, rfl, by simp [Emission.event]⟩
  | obeyed words other emissions plain =>
    refine ⟨_, emissions, ?_⟩
    intro e he content echo
    obtain ⟨event, display, input, _⟩ := plain e he
    rw [echo] at display
    cases display
    exact input rfl

/-- A turn with an error has nothing but the echo before it and nothing after it, and the session is
the one before. -/
theorem of_error (h : Answer line s turn) {e : Emission} {content : String}
    (he : e ∈ turn.emissions) (error : e.action = .display ⟨.error, content⟩) :
    turn.emissions = [echoed line, .event .error content 0] ∧ turn.session = s := by
  cases h with
  | silent => exact absurd he List.not_mem_nil
  | cleared =>
    rcases List.mem_pair.mp he with rfl | rfl <;> cases error
  | refused =>
    rcases List.mem_pair.mp he with rfl | rfl
    · cases error
    · cases error
      exact ⟨rfl, rfl⟩
  | obeyed words other emissions plain =>
    rw [emissions] at he
    rcases List.mem_cons.mp he with rfl | he
    · cases error
    · obtain ⟨event, display, _, plain⟩ := plain e he
      rw [error] at display
      cases display
      exact absurd rfl plain

theorem block (h : Answer line s turn) : Block (Emission.eventsOf turn.emissions) := by
  cases h with
  | silent => exact .silent
  | cleared => exact .obeyed (echo line) [] (by simp)
  | refused _ _ e => exact .refused (echo line) e.message
  | @obeyed _ _ _ _ _ rest emissions plain =>
    rw [emissions]
    refine .obeyed (echo line) (Emission.eventsOf rest) ?_
    intro event hevent
    obtain ⟨e, he, shown⟩ := List.mem_filterMap.mp hevent
    obtain ⟨x, display, kinds⟩ := plain e he
    rw [Emission.shown?, display] at shown
    cases shown
    exact kinds

/-- The turn of a line that clears nothing is appended to a transcript. -/
theorem record_of_other (h : Answer line s turn)
    (other : ¬ ∃ more, Text.wordsOf line = "clear" :: more) (t : Transcript) :
    t.record turn.emissions = ⟨t.events ++ Emission.eventsOf turn.emissions⟩ := by
  apply Transcript.record_of_shown
  cases h with
  | silent => exact fun e he => absurd he List.not_mem_nil
  | cleared words => exact absurd ⟨_, words⟩ other
  | refused => simp [echoed, Emission.event]
  | obeyed words other emissions plain =>
    intro e he
    rw [emissions] at he
    rcases List.mem_cons.mp he with rfl | he
    · exact ⟨_, rfl⟩
    · obtain ⟨event, display, _⟩ := plain e he
      exact ⟨event, display⟩

/-- A line that clears the screen takes away its own echo too. -/
theorem record_of_clear (h : Answer line s turn) {more : List String}
    (clear : Text.wordsOf line = "clear" :: more) (t : Transcript) :
    t.record turn.emissions = Transcript.empty := by
  cases h with
  | silent blank => exact absurd (clear.symm.trans blank) (List.cons_ne_nil _ _)
  | cleared => rfl
  | refused words other =>
    rw [words] at clear
    exact absurd (List.cons.inj clear).1 other
  | obeyed words other =>
    rw [words] at clear
    exact absurd (List.cons.inj clear).1 other

end Answer

/-- The move is a line that clears the screen, which its first word says. -/
def Clears : Move → Prop
  | .line _ text => ∃ more, Text.wordsOf text = "clear" :: more
  | .offer _ => False

def emissionsOf (t : Terminal) : Move → List Emission
  | .line clock text => (t.turn clock text).emissions
  | .offer _ => []

/-- The transcript `shown` after the moves of a run are recorded in it. -/
def recordAll (t : Terminal) (shown : Transcript) : List Move → Transcript
  | [] => shown
  | m :: rest => (t.after m).recordAll (shown.record (t.emissionsOf m)) rest

/-- The events of the moves of a run, move by move. -/
def blocks (t : Terminal) : List Move → List (List Event)
  | [] => []
  | m :: rest => Emission.eventsOf (t.emissionsOf m) :: (t.after m).blocks rest

theorem answer_turn (t : Terminal) (clock : Watch) (line : String) :
    Answer line t.session (t.turn clock line) :=
  answer_interpret t.options t.registry clock t.session line

theorem block_emissionsOf (t : Terminal) (m : Move) :
    Block (Emission.eventsOf (t.emissionsOf m)) := by
  cases m with
  | line clock text => exact (t.answer_turn clock text).block
  | offer o => exact .silent

theorem record_emissionsOf (t : Terminal) (shown : Transcript) {m : Move} (other : ¬ Clears m) :
    shown.record (t.emissionsOf m) =
      ⟨shown.events ++ Emission.eventsOf (t.emissionsOf m)⟩ := by
  cases m with
  | line clock text => exact (t.answer_turn clock text).record_of_other other shown
  | offer o => simp [emissionsOf, Transcript.record, Emission.eventsOf]

theorem record_emissionsOf_of_clears (t : Terminal) (shown : Transcript) {m : Move}
    (clears : Clears m) : shown.record (t.emissionsOf m) = Transcript.empty := by
  cases m with
  | line clock text =>
    obtain ⟨more, words⟩ := clears
    exact (t.answer_turn clock text).record_of_clear words shown
  | offer o => exact clears.elim

theorem blocks_block (t : Terminal) (moves : List Move) : ∀ b ∈ t.blocks moves, Block b := by
  induction moves generalizing t with
  | nil => exact fun b hb => absurd hb List.not_mem_nil
  | cons m rest ih => exact List.forall_mem_cons.mpr ⟨t.block_emissionsOf m, ih (t.after m)⟩

/-- A run without a line that clears appends the blocks of its moves. -/
theorem recordAll_of_not_clears (t : Terminal) (shown : Transcript) {moves : List Move}
    (others : ∀ m ∈ moves, ¬ Clears m) :
    t.recordAll shown moves = ⟨shown.events ++ (t.blocks moves).flatten⟩ := by
  induction moves generalizing t shown with
  | nil => simp [recordAll, blocks]
  | cons m rest ih =>
    obtain ⟨other, others⟩ := List.forall_mem_cons.mp others
    rw [recordAll, record_emissionsOf t shown other, ih _ _ others]
    simp [blocks]

theorem recordAll_append (t : Terminal) (shown : Transcript) (moves more : List Move) :
    t.recordAll shown (moves ++ more) =
      (t.afterAll moves).recordAll (t.recordAll shown moves) more := by
  induction moves generalizing t shown with
  | nil => rfl
  | cons m rest ih => exact ih (t.after m) _

/-- The moves `later` are those that follow the last line that clears, or all moves where there is
none. -/
structure SinceClear (moves before later : List Move) : Prop where
  parts : moves = before ++ later
  clear : before = [] ∨ ∃ front m, before = front ++ [m] ∧ Clears m
  others : ∀ m ∈ later, ¬ Clears m

theorem exists_sinceClear (moves : List Move) : ∃ before later, SinceClear moves before later := by
  induction moves using List.reverseRecOn with
  | nil => exact ⟨[], [], rfl, Or.inl rfl, by simp⟩
  | append_singleton moves last ih =>
    by_cases clears : Clears last
    · exact ⟨moves ++ [last], [], by simp, Or.inr ⟨moves, last, rfl, clears⟩, by simp⟩
    · obtain ⟨before, later, h⟩ := ih
      refine ⟨before, later ++ [last], by rw [h.parts, List.append_assoc], h.clear, ?_⟩
      intro m hm
      rcases List.mem_append.mp hm with hm | hm
      · exact h.others m hm
      · rwa [List.mem_singleton.mp hm]

theorem SinceClear.recordAll_eq {moves before later : List Move}
    (h : SinceClear moves before later) (t : Terminal) :
    t.recordAll .empty moves = ⟨((t.afterAll before).blocks later).flatten⟩ := by
  have fresh : t.recordAll .empty before = .empty := by
    rcases h.clear with rfl | ⟨front, m, rfl, clears⟩
    · rfl
    · rw [recordAll_append]
      exact record_emissionsOf_of_clears _ _ clears
  rw [h.parts, recordAll_append, fresh, recordAll_of_not_clears _ _ h.others]
  rfl

/-- A blank line does nothing. Any other line is echoed once, at first; if it is refused, the error is
all that follows, and the session stays as it was. A transcript that starts empty holds the blocks of
the moves since the last line that cleared the screen. -/
theorem transcript_of_blocks (t : Terminal) (moves : List Move) :
    (∀ o r clock s line,
      (Text.isBlankText line = true →
        (interpret o r clock s line).emissions = [] ∧ (interpret o r clock s line).session = s) ∧
      (Text.isBlankText line = false →
        ∃ rest, (interpret o r clock s line).emissions = .event .input (echo line) 0 :: rest ∧
          ∀ e ∈ rest, ∀ content, e.action ≠ .display ⟨.input, content⟩) ∧
      (∀ e ∈ (interpret o r clock s line).emissions, ∀ content,
        e.action = .display ⟨.error, content⟩ →
          (interpret o r clock s line).emissions =
            [.event .input (echo line) 0, .event .error content 0] ∧
          (interpret o r clock s line).session = s)) ∧
    ∃ before later, SinceClear moves before later ∧
      t.recordAll .empty moves = ⟨((t.afterAll before).blocks later).flatten⟩ ∧
      ∀ b ∈ (t.afterAll before).blocks later, Block b := by
  constructor
  · intro o r clock s line
    have answer := answer_interpret o r clock s line
    exact ⟨answer.of_blank, answer.of_filled, fun e he content error => answer.of_error he error⟩
  · obtain ⟨before, later, h⟩ := exists_sinceClear moves
    exact ⟨before, later, h, h.recordAll_eq t, blocks_block _ later⟩

example (o : TerminalOptions) (r : Registry) (c : Watch) :
    (opened o r).recordAll .empty
      [.line c "help", .line c " clear all", .line c "nexus list", .line c "	"] =
      ⟨[⟨.input, "nexus list"⟩, ⟨.error, SessionError.notLoggedIn.message⟩]⟩ := by
  rfl

end Terminal

end CommandDeck
