import CommandDeck.Time.Clock

/-!
# What a terminal shows

A turn of the terminal emits events, and may clear the screen. Each emission has the time since the turn
began at which it comes: a timeline goes on by emissions, which take no time, and by pauses. A transcript
keeps the events since the screen was last cleared.
-/

namespace CommandDeck

inductive EventKind where
  | input
  | output
  | error
  | success
  | info
  deriving DecidableEq

structure Event where
  kind : EventKind
  content : String
  deriving DecidableEq

/-- An event to show, or the order to forget all that was shown. -/
inductive Action where
  | display (event : Event)
  | clear
  deriving DecidableEq

structure Emission where
  action : Action
  time : Duration
  deriving DecidableEq

namespace EventKind

def name : EventKind → String
  | input => "input"
  | output => "output"
  | error => "error"
  | success => "success"
  | info => "info"

end EventKind

namespace Emission

def event (kind : EventKind) (content : String) (time : Duration) : Emission :=
  ⟨.display ⟨kind, content⟩, time⟩

end Emission

/-- What has been emitted since a turn began, and how long that is ago. -/
structure Timeline where
  emissions : List Emission
  duration : Duration

namespace Timeline

def start : Timeline := ⟨[], 0⟩

def emit (t : Timeline) (action : Action) : Timeline :=
  { t with emissions := t.emissions ++ [⟨action, t.duration⟩] }

def event (t : Timeline) (kind : EventKind) (content : String) : Timeline :=
  t.emit (.display ⟨kind, content⟩)

def pause (t : Timeline) (watch : Watch) (delay : Duration) : Timeline :=
  { t with duration := watch.after t.duration delay }

end Timeline

/-- The events since the screen was last cleared. -/
structure Transcript where
  events : List Event
  deriving DecidableEq

namespace Transcript

def empty : Transcript := ⟨[]⟩

def perform (t : Transcript) : Action → Transcript
  | .display event => ⟨t.events ++ [event]⟩
  | .clear => empty

def record (t : Transcript) (emissions : List Emission) : Transcript :=
  emissions.foldl (fun t e => t.perform e.action) t

def contentsOf (t : Transcript) (kind : EventKind) : List String :=
  (t.events.filter fun e => e.kind = kind).map (·.content)

end Transcript

end CommandDeck
