import CommandDeck.Number.Layout

/-!
# Programs of others

An analysis is left to a program that is none of ours. It is started with arguments and in surroundings
with variables, is given an input, and has written an output and errors when it ends. What it does with
them is not said here.
-/

namespace CommandDeck

/-- The start of a program. -/
structure Launch where
  program : String
  arguments : List String
  surroundings : List (String × String)
  input : ByteArray

inductive Ending where
  | exit (status : Nat)
  | signal (number : Nat)
  deriving DecidableEq

structure ProgramResult where
  ending : Ending
  output : ByteArray
  errors : ByteArray

/-- Why a program has no result: it could not be started, or not be waited for. -/
inductive LaunchError where
  | unstarted (reason : String)
  | lost (reason : String)

namespace Ending

def signalNames : List String := [
  "HUP", "INT", "QUIT", "ILL", "TRAP", "ABRT", "BUS", "FPE", "KILL", "USR1", "SEGV", "USR2", "PIPE",
  "ALRM", "TERM", "STKFLT", "CHLD", "CONT", "STOP", "TSTP", "TTIN", "TTOU", "URG", "XCPU", "XFSZ",
  "VTALRM", "PROF", "WINCH", "IO", "PWR", "SYS"]

def signalName? (n : Nat) : Option String := if n = 0 then none else signalNames[n - 1]?

def describe : Ending → String
  | exit status => "exit status: " ++ String.ofList (NumberLayout.digits status)
  | signal n =>
    "signal: " ++ String.ofList (NumberLayout.digits n) ++
      match signalName? n with
      | some name => " (SIG" ++ name ++ ")"
      | none => ""

end Ending

end CommandDeck
