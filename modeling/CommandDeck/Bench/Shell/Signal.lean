import CommandDeck.Host.Launch
import CommandDeck.Text.Digit

/-!
# Signals

A signal ends the program that gets it, except a few that are ignored or only halt it.
-/

namespace CommandDeck.Shell

def signalLimit : Nat := 65

def decimal? (s : String) : Option Nat :=
  let cs := s.toList
  if cs.isEmpty || !cs.all Text.isDigit then none
  else some (cs.foldl (fun n c => n * 10 + Text.digitValue c) 0)

def numberText (n : Nat) : String := String.ofList (NumberLayout.digits n)

def inCapitals (s : String) : String := String.ofList (s.toList.map Char.toUpper)

/-- The names of the signals that can be sent by name, with their numbers. Those from the thirty-fourth on are named by
how far they are from the first or the last of them. -/
def namedSignals : List (String × Nat) :=
  ((Ending.signalNames.zipIdx 1).filter fun p => p.1 ≠ "STKFLT") ++ [("RTMIN", 34)] ++
    ((List.range 15).map fun i => ("RTMIN+" ++ numberText (i + 1), 35 + i)) ++
    ((List.range 14).map fun i => ("RTMAX-" ++ numberText (14 - i), 50 + i)) ++ [("RTMAX", 64)]

/-- The signal that a number or a name in either case means. Zero is the signal that only asks. -/
def signalOfText? (s : String) : Option Nat :=
  match decimal? s with
  | some n => if n < signalLimit then some n else none
  | none => namedSignals.lookup (inCapitals s)

def listedName (n : Nat) : String :=
  match namedSignals.find? fun p => p.2 == n with
  | some p => p.1
  | none => if n = 0 then "EXIT" else numberText n

/-- The signals that do not end the program that gets them: the question, news of a child, the order to
go on, urgent data and a change of the window, and the four that halt it. -/
def isHarmless (signal : Nat) : Bool := [0, 17, 18, 19, 20, 21, 22, 23, 28].contains signal

/-- What is told of a program that a signal has ended. Of some nothing is told. -/
def obituary? (signal : Nat) : Option String :=
  [(1, "Hangup"), (3, "Quit"), (4, "Illegal instruction"), (5, "Trace/breakpoint trap"), (6, "Aborted"),
    (7, "Bus error"), (8, "Floating point exception"), (9, "Killed"), (10, "User defined signal 1"),
    (11, "Segmentation fault"), (12, "User defined signal 2"), (14, "Alarm clock"), (15, "Terminated"),
    (16, "Stack fault"), (24, "CPU time limit exceeded"), (25, "File size limit exceeded"),
    (26, "Virtual timer expired"), (27, "Profiling timer expired"), (29, "I/O possible"),
    (30, "Power failure"), (31, "Bad system call")].lookup signal

end CommandDeck.Shell
