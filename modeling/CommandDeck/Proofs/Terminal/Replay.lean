import Mathlib.Data.List.DropRight
import CommandDeck.Proofs.Terminal.Agreement
import CommandDeck.Proofs.Terminal.Transcript

/-!
# Replaying a transcript

An echo is its line without the line breaks at the end. These are white space, so an echo has the words
of its line, it is its own echo, and its turn is the turn of the line. A blank line has no echo, and its
turn is none. Therefore a terminal that is given the echoes of a transcript shows that transcript again.
-/

namespace CommandDeck

/-- The same event, but that two payloads of one invocation may have different stamps. -/
def Event.Alike (e f : Event) : Prop := (Action.display e).Alike (.display f)

/-- Transcripts that agree event by event. -/
def Transcript.Alike (t u : Transcript) : Prop := List.Forall₂ Event.Alike t.events u.events

theorem Transcript.contentsOf_append (events more : List Event) (kind : EventKind) :
    contentsOf ⟨events ++ more⟩ kind = contentsOf ⟨events⟩ kind ++ contentsOf ⟨more⟩ kind := by
  simp [contentsOf]

theorem Emission.eventsOf_alike {emissions others : List Emission}
    (alike : List.Forall₂ Emission.Alike emissions others) :
    List.Forall₂ Event.Alike (eventsOf emissions) (eventsOf others) := by
  induction alike with
  | nil => exact .nil
  | @cons e f _ _ same rest ih =>
    obtain ⟨action, time⟩ := e
    obtain ⟨other, later⟩ := f
    obtain _ | ⟨inv, stamp, watch⟩ : Action.Alike action other := same
    · cases action with
      | display event => exact .cons (.same _) ih
      | clear => exact ih
    · exact .cons (.payload inv stamp watch) ih

namespace Terminal

theorem echo_echo (line : String) : echo (echo line) = echo line := by
  simp only [echo, String.toList_ofList, List.reverse_reverse, List.dropWhile_idempotent]

/-- A line is its echo and then line breaks. -/
theorem exists_breaks (line : String) :
    ∃ breaks : List Char, line.toList = (echo line).toList ++ breaks ∧
      ∀ c ∈ breaks, c = '\r' ∨ c = '\n' := by
  let breaks := line.toList.reverse.takeWhile fun c => c == '\r' || c == '\n'
  refine ⟨breaks.reverse, ?_, ?_⟩
  · rw [echo, String.toList_ofList, ← List.reverse_append, List.takeWhile_append_dropWhile,
      List.reverse_reverse]
  · intro c hc
    simpa using List.mem_takeWhile_imp (List.mem_reverse.mp hc)

theorem wordsOf_echo (line : String) : Text.wordsOf (echo line) = Text.wordsOf line := by
  obtain ⟨breaks, parts, ends⟩ := exists_breaks line
  have blank : breaks.all isBlank = true := by
    rw [List.all_eq_true]
    intro c hc
    rcases ends c hc with rfl | rfl <;> decide
  rw [Text.wordsOf, Text.wordsOf, parts, Text.words_append_blanks _ blank]

/-- The turn of an echo is the turn of its line. -/
theorem interpret_echo (o : TerminalOptions) (r : Registry) (clock : Watch) (s : Session)
    (line : String) : interpret o r clock s (echo line) = interpret o r clock s line := by
  unfold interpret
  rw [wordsOf_echo, echo_echo]

theorem turn_echo (t : Terminal) (clock : Watch) (line : String) :
    t.turn clock (echo line) = t.turn clock line :=
  interpret_echo t.options t.registry clock t.session line

theorem Answer.contentsOf_input {line : String} {s : Session} {turn : Turn}
    (h : Answer line s turn) (filled : Text.isBlankText line = false) :
    Transcript.contentsOf ⟨Emission.eventsOf turn.emissions⟩ .input = [echo line] := by
  obtain ⟨rest, parts, others⟩ := h.of_filled filled
  have unechoed : Transcript.contentsOf ⟨Emission.eventsOf rest⟩ .input = [] := by
    simp only [Transcript.contentsOf, List.map_eq_nil_iff, List.filter_eq_nil_iff,
      decide_eq_true_eq]
    rintro ⟨kind, content⟩ shown rfl
    obtain ⟨⟨action, time⟩, he, display⟩ := List.mem_filterMap.mp shown
    cases action with
    | clear => cases display
    | display event =>
      cases display
      exact others _ he content rfl
  rw [parts]
  exact congrArg _ unechoed

/-- Lines that are typed, each with the clock during its turn. -/
def typed (lines : List (Watch × String)) : List Move :=
  lines.map fun line => .line line.1 line.2

/-- What is echoed of lines. -/
def echoesOf (lines : List String) : List String :=
  (lines.filter fun line => !Text.isBlankText line).map echo

theorem echoesOf_cons_of_blank {line : String} (blank : Text.isBlankText line = true)
    (lines : List String) : echoesOf (line :: lines) = echoesOf lines := by
  simp [echoesOf, blank]

theorem echoesOf_cons_of_filled {line : String} (filled : Text.isBlankText line = false)
    (lines : List String) : echoesOf (line :: lines) = echo line :: echoesOf lines := by
  simp [echoesOf, filled]

theorem blocks_typed (t : Terminal) (clock : Watch) (line : String)
    (lines : List (Watch × String)) :
    t.blocks (typed ((clock, line) :: lines)) =
      Emission.eventsOf (t.turn clock line).emissions ::
        (t.after (.line clock line)).blocks (typed lines) := rfl

/-- The echoes in a run are the lines that are not blank, without their ends. -/
theorem contentsOf_blocks (t : Terminal) (lines : List (Watch × String)) :
    Transcript.contentsOf ⟨(t.blocks (typed lines)).flatten⟩ .input =
      echoesOf (lines.map (·.2)) := by
  induction lines generalizing t with
  | nil => rfl
  | cons first rest ih =>
    obtain ⟨clock, line⟩ := first
    have answer := t.answer_turn clock line
    rw [blocks_typed, List.flatten_cons, Transcript.contentsOf_append, ih, List.map_cons]
    cases blank : Text.isBlankText line with
    | true =>
      rw [(answer.of_blank blank).1, echoesOf_cons_of_blank blank]
      rfl
    | false =>
      rw [answer.contentsOf_input blank, echoesOf_cons_of_filled blank]
      rfl

/-- A terminal that is given the echoes of a run shows the blocks of that run. -/
theorem blocks_replayed {t u : Terminal} (account : t.options.account = u.options.account)
    (published : t.registry = u.registry) (session : t.session = u.session)
    {lines again : List (Watch × String)}
    (echoes : again.map (·.2) = echoesOf (lines.map (·.2))) :
    List.Forall₂ Event.Alike (t.blocks (typed lines)).flatten (u.blocks (typed again)).flatten ∧
    (t.afterAll (typed lines)).session = (u.afterAll (typed again)).session := by
  induction lines generalizing t u again with
  | nil =>
    obtain rfl : again = [] := List.map_eq_nil_iff.mp echoes
    exact ⟨.nil, session⟩
  | cons first rest ih =>
    obtain ⟨clock, line⟩ := first
    rw [List.map_cons] at echoes
    cases blank : Text.isBlankText line with
    | true =>
      rw [echoesOf_cons_of_blank blank] at echoes
      obtain ⟨silent, kept⟩ := (t.answer_turn clock line).of_blank blank
      rw [blocks_typed, silent]
      exact ih (t := t.after (.line clock line)) account published (kept.trans session) echoes
    | false =>
      rw [echoesOf_cons_of_filled blank] at echoes
      obtain ⟨⟨watch, text⟩, later, rfl, rfl, echoed⟩ := List.map_eq_cons_iff.mp echoes
      have alike : (t.turn clock line).Alike (u.turn watch (echo line)) := by
        have same := turn_alike account session clock watch line fun _ => by rw [published]
        rwa [← u.turn_echo] at same
      -- Nothing more is needed of the echo than that its turn is alike.
      generalize echo line = text at alike ⊢
      obtain ⟨blocks, sessions⟩ := ih (t := t.after (.line clock line))
        (u := u.after (.line watch text)) account published alike.session echoed
      exact ⟨List.rel_append (Emission.eventsOf_alike alike.emissions) blocks, sessions⟩

theorem not_clears_line {clock : Watch} {text : String}
    (first : (Text.wordsOf text).head? ≠ some "clear") : ¬ Clears (.line clock text) := by
  rintro ⟨more, words⟩
  exact first (congrArg List.head? words)

theorem not_clears_of_echoesOf {lines again : List (Watch × String)}
    (others : ∀ m ∈ typed lines, ¬ Clears m)
    (echoes : again.map (·.2) = echoesOf (lines.map (·.2))) : ∀ m ∈ typed again, ¬ Clears m := by
  intro m hm clears
  obtain ⟨⟨clock, text⟩, hl, rfl⟩ := List.mem_map.mp hm
  have echoed : text ∈ echoesOf (lines.map (·.2)) := echoes ▸ List.mem_map_of_mem hl
  obtain ⟨line, typed, rfl⟩ := List.mem_map.mp echoed
  obtain ⟨⟨watch, line⟩, mem, rfl⟩ := List.mem_map.mp (List.mem_of_mem_filter typed)
  obtain ⟨more, words⟩ := clears
  exact others _ (List.mem_map_of_mem mem) ⟨more, by rw [← wordsOf_echo, words]⟩

/-- A terminal is given lines of which none clears the screen, and then another one, with the same
account and over the same registry, what the first has echoed. Their transcripts are the same but for the
stamps of payloads, and so are their sessions. -/
theorem transcript_replays {o p : TerminalOptions} (account : o.account = p.account) (r : Registry)
    {lines again : List (Watch × String)} (others : ∀ m ∈ typed lines, ¬ Clears m)
    (echoes : again.map (·.2) = ((opened o r).recordAll .empty (typed lines)).contentsOf .input) :
    ((opened o r).recordAll .empty (typed lines)).Alike
      ((opened p r).recordAll .empty (typed again)) ∧
    ((opened o r).afterAll (typed lines)).session = ((opened p r).afterAll (typed again)).session := by
  rw [recordAll_of_not_clears _ _ others] at echoes ⊢
  have same : again.map (·.2) = echoesOf (lines.map (·.2)) :=
    echoes.trans ((opened o r).contentsOf_blocks lines)
  rw [recordAll_of_not_clears _ _ (not_clears_of_echoesOf others same)]
  exact blocks_replayed (t := opened o r) (u := opened p r) account rfl rfl same

/-- A blank line, line breaks at the ends and a tab before the first word, and what is left to replay. -/
theorem demo_session_replays :
    let o : TerminalOptions := ⟨"me", 800, ⟨400, 400, 600⟩⟩
    let noon (text : String) : Watch × String := (.showing "noon", text)
    let later (text : String) : Watch × String := (.showing "later", text)
    let lines := ["nexus login nxs_1\r\n", " \n", "nexus sync\n\n", "\tnexus run invoice-generate\n",
      "clean\n"].map noon
    let again := ["nexus login nxs_1", "nexus sync", "\tnexus run invoice-generate",
      "clean"].map later
    let first := (opened o (.seeded "0")).recordAll .empty (typed lines)
    o.account = o.withoutDelays.account ∧ (∀ m ∈ typed lines, ¬ Clears m) ∧
    again.map (·.2) = first.contentsOf .input ∧
    first.Alike ((opened o.withoutDelays (.seeded "0")).recordAll .empty (typed again)) ∧
    ((opened o (.seeded "0")).afterAll (typed lines)).session =
      ((opened o.withoutDelays (.seeded "0")).afterAll (typed again)).session := by
  intro o noon later lines again first
  have account : o.account = o.withoutDelays.account := rfl
  have others : ∀ m ∈ typed lines, ¬ Clears m := by
    simp only [lines, typed, List.map_cons, List.map_nil, List.forall_mem_cons]
    refine ⟨?_, ?_, ?_, ?_, ?_, by simp⟩ <;> exact not_clears_line (by decide)
  have echoes : again.map (·.2) = first.contentsOf .input := by
    rw [show first = _ from recordAll_of_not_clears _ _ others]
    exact .trans (by decide) ((opened o (.seeded "0")).contentsOf_blocks lines).symm
  exact ⟨account, others, echoes, transcript_replays account (.seeded "0") others echoes⟩

end Terminal

end CommandDeck
