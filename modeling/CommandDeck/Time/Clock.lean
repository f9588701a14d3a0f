import CommandDeck.Time.Duration
import CommandDeck.Time.Stamp

/-!
# Clocks

A clock shows the stamp for a manifest, the same one day earlier, and the stamp for a line of the journal.
Within a turn a watch goes on from there. The timer that it waits by is not ours, so a watch says what the
timer does and can say anything.
-/

namespace CommandDeck

/-- The stamp for a payload when so much of a turn has passed, and the time that a wait takes which begins
then, for each delay. -/
structure Watch where
  stamp : Duration → String
  wait (now delay : Duration) : Duration

namespace Watch

/-- The time after a pause. Without a delay nothing is waited for. -/
def after (w : Watch) (now delay : Duration) : Duration :=
  if delay = 0 then now else now + w.wait now delay

end Watch

structure Clock where
  manifestStamp : String
  dayBefore : String
  journalStamp : String
  watch : Watch

namespace Clock

/-- The clock at an instant, with a timer that waits just as long as it is asked to. -/
def atInstant (millis : Int) : Clock where
  manifestStamp := Stamp.withOffset millis
  dayBefore := Stamp.withOffset (millis - Stamp.millisPerDay)
  journalStamp := Stamp.ofJournal millis
  watch := ⟨fun later => Stamp.withMillis (millis + later.millis), fun _ delay => delay⟩

end Clock

end CommandDeck
