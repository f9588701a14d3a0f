import CommandDeck.Proofs.Terminal.Payload
import CommandDeck.Proofs.Time.Stamp
import CommandDeck.Time.Clock

/-!
# The instant that a run reports

The document that a command with the tag `json` answers with has the stamp of a clock that is looked at
when the run is done. Read by the rules of the calendar, it denotes the instant of that look, whatever the
instant is, so that runs that are done at two instants report two stamps.
-/

namespace CommandDeck

theorem Clock.stamp_now (millis : Int) :
    (Clock.atInstant millis).watch.stamp 0 = Stamp.withMillis millis :=
  congrArg Stamp.withMillis (Int.add_zero millis)

/-- A run that waits by any timer and looks at its clock at the instants that are given for the times of
the run. -/
def Invocation.runAt (inv : Invocation) (delays : StageDelays) (wait : Duration → Duration → Duration)
    (instant : Duration → Int) : Timeline :=
  inv.run delays ⟨fun later => (Clock.atInstant (instant later)).watch.stamp 0, wait⟩ .start

/-- Emissions report one stamp. -/
theorem Reports.unique {c d : Command} {words others : List String} {stamp other : String}
    {emissions : List Emission} (h : Reports c words stamp emissions)
    (h' : Reports d others other emissions) : stamp = other := by
  obtain ⟨front, text, last, shown, -, read⟩ := h
  obtain ⟨front', text', last', shown', -, read'⟩ := h'
  have ends := (List.append_inj' (shown.symm.trans shown') rfl).2
  cases ends
  have documents := read.symm.trans read'
  simp only [Except.ok.injEq, Json.Value.object.injEq, List.cons.injEq, Prod.mk.injEq,
    Json.Value.string.injEq] at documents
  exact documents.2.1.2

theorem Invocation.runAt_reports (inv : Invocation) (tag : inv.command.returns = "json")
    (delays : StageDelays) (wait : Duration → Duration → Duration) (instant : Duration → Int) :
    Reports inv.command inv.words
      (Stamp.withMillis (instant (inv.runAt delays wait instant).duration))
      (inv.runAt delays wait instant).emissions := by
  have reported := Invocation.run_reports tag delays
    ⟨fun later => (Clock.atInstant (instant later)).watch.stamp 0, wait⟩
  rwa [Clock.stamp_now] at reported

namespace Terminal

/-- The stamp that a run reports has the form of a date and a time of the day with milliseconds and
denotes the instant at the end of the run. Two runs that end at different instants report different
stamps. -/
theorem timestamp_denotes_instant :
    (∀ (inv : Invocation) (delays : StageDelays) (wait : Duration → Duration → Duration)
      (instant : Duration → Int), inv.command.returns = "json" →
      let run := inv.runAt delays wait instant
      ∃ stamp, Reports inv.command inv.words stamp run.emissions ∧
        ∀ millis, Stamp.Denotes stamp millis ↔ millis = instant run.duration) ∧
    (∀ (inv other : Invocation) (delays otherDelays : StageDelays)
      (wait otherWait : Duration → Duration → Duration) (instant otherInstant : Duration → Int)
      (stamp otherStamp : String),
      inv.command.returns = "json" → other.command.returns = "json" →
      let run := inv.runAt delays wait instant
      let otherRun := other.runAt otherDelays otherWait otherInstant
      Reports inv.command inv.words stamp run.emissions →
      Reports other.command other.words otherStamp otherRun.emissions →
      instant run.duration ≠ otherInstant otherRun.duration → stamp ≠ otherStamp) := by
  constructor
  · intro inv delays wait instant tag run
    exact ⟨_, inv.runAt_reports tag delays wait instant, fun _ => Stamp.denotes_withMillis_iff⟩
  · rintro inv other delays otherDelays wait otherWait instant otherInstant stamp otherStamp tag
      otherTag run otherRun reported otherReported differ same
    have own := reported.unique (inv.runAt_reports tag delays wait instant)
    have others :=
      otherReported.unique (other.runAt_reports otherTag otherDelays otherWait otherInstant)
    rw [own, others] at same
    exact differ (Stamp.withMillis_injective same)

/-- The last millisecond of the year before the year 0, and the first of the year 0 that a clock shows
which goes on while the run waits. -/
theorem year_zero_begins :
    let c : Command := { fetch "ops:fetch" with returns := "json" }
    let inv : Invocation := ⟨"ops", c, ["--out"]⟩
    let exactly (_ delay : Duration) : Duration := delay
    let ending := inv.runAt .none exactly fun _ => -62167219200001
    let beginning := inv.runAt ⟨400, 400, 600⟩ exactly fun later => -62167219201400 + later.millis
    c.returns = "json" ∧
    (∃ stamp, Reports c ["--out"] stamp ending.emissions ∧
      ∀ millis, Stamp.Denotes stamp millis ↔ millis = -62167219200001) ∧
    Reports c ["--out"] "-0001-12-31T23:59:59.999Z" ending.emissions ∧
    Reports c ["--out"] "0000-01-01T00:00:00.000Z" beginning.emissions ∧
    "-0001-12-31T23:59:59.999Z" ≠ "0000-01-01T00:00:00.000Z" := by
  intro c inv exactly ending beginning
  have ended := inv.runAt_reports rfl .none exactly fun _ => -62167219200001
  have endedStamp : Stamp.withMillis (-62167219200001) = "-0001-12-31T23:59:59.999Z" := by decide
  rw [endedStamp] at ended
  have begun := inv.runAt_reports rfl ⟨400, 400, 600⟩ exactly fun later =>
    -62167219201400 + later.millis
  have waited : beginning.duration = 1400 := by decide
  have begunStamp : Stamp.withMillis (-62167219201400 + (1400 : Duration).millis) =
    "0000-01-01T00:00:00.000Z" := by decide
  rw [show (inv.runAt ⟨400, 400, 600⟩ exactly fun later => -62167219201400 + later.millis).duration = _
    from waited, begunStamp] at begun
  have differ : (-62167219200001 : Int) ≠ -62167219201400 + beginning.duration.millis := by
    rw [waited]
    decide
  exact ⟨rfl, timestamp_denotes_instant.1 inv .none exactly _ rfl, ended, begun,
    timestamp_denotes_instant.2 inv inv .none _ _ _ _ _ _ _ rfl rfl ended begun differ⟩

end Terminal

end CommandDeck
