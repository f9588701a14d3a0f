import CommandDeck.Host.Basic
import CommandDeck.Text.Style
import CommandDeck.Text.Utf8

/-!
# The journal

What happens is noted in a journal file, where every note is a line with a stamp, and partly shown
while it happens. How much is shown depends on the verbosity, and warnings are left out where quiet is
wanted. A journal that cannot be written is not missed.
-/

namespace CommandDeck

/-- How much is shown. -/
structure Verbosity where
  level : Nat
  quiet : Bool
  deriving DecidableEq

namespace Verbosity

/-- The verbosity that switches ask for: one for quiet, and one that may come several times. -/
def ofSwitches (quiet : Bool) (verbose : Nat) : Verbosity := ⟨if quiet then 0 else verbose, quiet⟩

def traceFilter (v : Verbosity) : String :=
  match v.level with
  | 0 => "nexus=warn"
  | 1 => "nexus=debug"
  | _ => "nexus=trace"

end Verbosity

inductive NoteKind where
  | info
  | debug
  | step
  | warning
  | success
  | error
  /-- An error that ends a task but not the program. -/
  | taskFailure
  deriving DecidableEq

namespace NoteKind

def label : NoteKind → String
  | info => "INFO "
  | debug => "DEBUG "
  | step => "STEP: "
  | warning => "WARN "
  | success => "SUCCESS "
  | error => "ERROR "
  | taskFailure => "ERROR "

def mark (colours : Bool) : NoteKind → String
  | info => ""
  | debug => (Style.strong .blue).paint colours "DEBUG:" ++ " "
  | step => "TRACE: "
  | warning => (Style.strong .yellow).paint colours "warning:" ++ " "
  | success => (Style.strong .green).paint colours "✔" ++ " "
  | error => (Style.strong .red).paint colours "Error:" ++ " "
  | taskFailure => "  " ++ (Style.strong .red).paint colours "✗" ++ " "

def isShown (kind : NoteKind) (v : Verbosity) : Bool :=
  match kind with
  | info => 1 ≤ v.level
  | debug => 1 ≤ v.level
  | step => 2 ≤ v.level
  | warning => !v.quiet
  | _ => true

end NoteKind

structure Note where
  kind : NoteKind
  message : String
  deriving DecidableEq

structure Journal where
  file? : Option Path
  verbosity : Verbosity
  /-- Colours are wanted for what is shown. -/
  colours : Bool

namespace Journal

def line (stamp : String) (note : Note) : String :=
  "[" ++ stamp ++ "] " ++ note.kind.label ++ note.message ++ "\n"

variable {m : Type → Type} [Monad m] [Host m]

def shown (j : Journal) (note : Note) : m Unit :=
  if note.kind.isShown j.verbosity then
    Host.printError (note.kind.mark j.colours ++ note.message ++ "\n")
  else pure ()

def note (j : Journal) (note : Note) : m Unit := do
  match j.file? with
  | none => pure ()
  | some p =>
    let clock ← Host.clock
    let _ ← Storage.perform (.append p (Text.encode (line clock.journalStamp note)))
  j.shown note

def info (j : Journal) (message : String) : m Unit := j.note ⟨.info, message⟩

def debug (j : Journal) (message : String) : m Unit := j.note ⟨.debug, message⟩

def warning (j : Journal) (message : String) : m Unit := j.note ⟨.warning, message⟩

def success (j : Journal) (message : String) : m Unit := j.note ⟨.success, message⟩

def error (j : Journal) (message : String) : m Unit := j.note ⟨.error, message⟩

/-- Begins a journal in a folder, which is made if it is missing. An old journal is taken away. -/
def begin (folder : Path) (name : String) (v : Verbosity) (colours : Bool) : m Journal := do
  match ← Storage.perform (.makeFolders folder) with
  | .error e =>
    Host.printError ("Warning: Failed to initialize logger: Failed to create log directory: " ++
      e.message ++ "\n")
    pure ⟨none, v, colours⟩
  | .ok () =>
    let file := folder.child name
    let _ ← Storage.perform (.remove file)
    pure ⟨some file, v, colours⟩

end Journal

end CommandDeck
