import CommandDeck.Journal
import CommandDeck.Manifest.File
import CommandDeck.Settings
import CommandDeck.Terminal.Interpreter
import CommandDeck.Terminal.Rendering

/-!
# Opening a terminal

A terminal opens with a registry in which the demo manifest may stand and into which manifest files
are published in order. A file that cannot be read or published is skipped. The journal receives one
note for each file.
-/

namespace CommandDeck

/-- The choices for a terminal on top of the settings. -/
structure TerminalChoices where
  manifests : List String
  noDelay : Bool
  noSeed : Bool
  deriving DecidableEq

namespace TerminalChoices

/-- The manifest files, those of the settings first. -/
def manifestPaths (c : TerminalChoices) (s : Settings) : List String :=
  s.manifestPaths ++ c.manifests

def seedsDemo (c : TerminalChoices) (s : Settings) : Bool := s.seedDemo && !c.noSeed

def options (c : TerminalChoices) (s : Settings) : TerminalOptions :=
  if c.noDelay then s.terminal.withoutDelays else s.terminal

end TerminalChoices

namespace Registry

/-- Publishes what a manifest file holds, or skips it. Answers a note about that. -/
def publishContent (r : Registry) (stamp path : String) (content : Except FileError ByteArray) :
    Registry × Note :=
  match Manifest.ofContent content with
  | .error e => (r, ⟨.warning, "Skipping " ++ path ++ ": " ++ e.message⟩)
  | .ok m =>
    match r.publish stamp m with
    | .error e => (r, ⟨.warning, "Skipping " ++ path ++ ": " ++ e.message⟩)
    | .ok (r, stored) =>
      (r, ⟨.info, "Published '" ++ stored.namespaceName ++ "' from " ++ path⟩)

def start (seedDemo : Bool) (clock : Clock) : Registry :=
  if seedDemo then seeded clock.dayBefore else empty

variable {m : Type → Type} [Monad m] [Host m]

def publishFiles (j : Journal) : List String → Registry → m Registry
  | [], r => pure r
  | path :: rest, r => do
    let content ← Storage.read (Path.ofText path)
    let clock ← Host.clock
    let (r, note) := r.publishContent clock.manifestStamp path content
    j.note note
    publishFiles j rest r

end Registry

/-- A terminal with its registry and its session. -/
structure Terminal where
  options : TerminalOptions
  registry : Registry
  session : Session

namespace Terminal

variable {m : Type → Type} [Monad m] [Host m]

def start (j : Journal) (c : TerminalChoices) (s : Settings) : m Terminal := do
  let start := Registry.start (c.seedsDemo s) (← Host.clock)
  let registry ← Registry.publishFiles j (c.manifestPaths s) start
  return ⟨c.options s, registry, Session.initial⟩

def turn (t : Terminal) (watch : Watch) (line : String) : Turn :=
  interpret t.options t.registry watch t.session line

/-- Prints emissions as their times come. -/
def present (echoes colours : Bool) : Duration → List Emission → m Unit
  | _, [] => pure ()
  | time, e :: rest => do
    Host.pause (e.time - time)
    Host.print (e.action.print echoes colours)
    present echoes colours e.time rest

def obeyLine (t : Terminal) (echoes colours : Bool) (line : String) : m Terminal := do
  let clock ← Host.clock
  let turn := t.turn clock.watch line
  present echoes colours 0 turn.emissions
  return { t with session := turn.session }

end Terminal

end CommandDeck
