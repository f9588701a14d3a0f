import CommandDeck.Host.Basic
import CommandDeck.Text.Lines
import CommandDeck.Text.Utf8

/-!
# The workbench

A host that is a value: a file tree, a clock that stands still, the lines of an input that is known
beforehand, all that has been printed, and programs, which may be any.
-/

namespace CommandDeck

/-- What programs come to that are run over a file tree, and what they make of it. -/
abbrev Programs := Launch → FileTree → Except LaunchError ProgramResult × FileTree

def Programs.none : Programs := fun _ files => (.error (.unstarted FileError.notFound.message), files)

structure Workbench where
  files : FileTree
  clock : Clock
  input : List (Except FileError String)
  output : String
  errors : String
  programs : Programs

namespace Workbench

/-- A line of input without the line break at its end. -/
def withoutBreak (bytes : List UInt8) : List UInt8 :=
  match bytes.reverse with
  | 10 :: 13 :: rest => rest.reverse
  | 10 :: rest => rest.reverse
  | _ => bytes

def lineOf (bytes : List UInt8) : Except FileError String :=
  match Text.decode? ⟨(withoutBreak bytes).toArray⟩ with
  | some s => .ok s
  | none => .error .notText

def linesOf (input : ByteArray) : List (Except FileError String) := (Text.pieces 10 input.toList).map lineOf

/-- A workbench without programs on which nothing has been printed yet. -/
def fresh (files : FileTree) (clock : Clock) (input : ByteArray) : Workbench :=
  ⟨files, clock, linesOf input, "", "", .none⟩

/-- Hands lines to a step until it answers with no state. -/
def feed {σ : Type} (step : Except FileError String → σ → StateM Workbench (Option σ)) :
    List (Except FileError String) → σ → StateM Workbench Unit
  | [], _ => pure ()
  | line :: rest, s => do
    modify fun w => { w with input := rest }
    match ← step line s with
    | none => pure ()
    | some next => feed step rest next

instance : Storage (StateM Workbench) where
  read p := fun w => (w.files.read p, w)
  workingFolder := fun w => ("/" ++ "/".intercalate w.files.working, w)
  entries p := fun w => (w.files.entries p, w)
  perform step := fun w =>
    let (r, files) := w.files.perform step
    (r, { w with files := files })

instance : Host (StateM Workbench) where
  clock := fun w => (w.clock, w)
  pause _ := pure ()
  print s := fun w => ((), { w with output := w.output ++ s })
  printError s := fun w => ((), { w with errors := w.errors ++ s })
  eachLine step s := fun w => feed step w.input s w
  launch l := fun w =>
    let (r, files) := w.programs l w.files
    (r, { w with files := files })

end Workbench

end CommandDeck
