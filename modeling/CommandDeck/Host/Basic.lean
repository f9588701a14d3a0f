import CommandDeck.Host.Launch
import CommandDeck.Storage.FileStep
import CommandDeck.Time.Clock

/-!
# Hosts

What the commands need of the place where they run: files, a clock, two streams to print to, lines of
input, and the programs that are installed there. The commands are written for any host.
-/

namespace CommandDeck

class Storage (m : Type → Type) where
  read : Path → m (Except FileError ByteArray)
  /-- The path of the working folder. -/
  workingFolder : m String
  /-- The names in a folder. -/
  entries : Path → m (Except FileError (List String))
  perform : FileStep → m (Except FileError Unit)

class Host (m : Type → Type) extends Storage m where
  clock : m Clock
  pause : Duration → m Unit
  print : String → m Unit
  printError : String → m Unit
  /-- Hands the lines of the input to a step, one after the other and each without its line break,
  until the input ends or the step answers with no state. A line that is no text comes as an error. -/
  eachLine {σ : Type} : (Except FileError String → σ → m (Option σ)) → σ → m Unit
  /-- Runs a program to its end. -/
  launch : Launch → m (Except LaunchError ProgramResult)

/-- Performs steps up to the first one that fails. -/
def performAll {m : Type → Type} [Monad m] [Storage m] : List FileStep → m (Except FileError Unit)
  | [] => pure (.ok ())
  | step :: rest => do
    match ← Storage.perform step with
    | .error e => pure (.error e)
    | .ok () => performAll rest

def printLine {m : Type → Type} [Host m] (s : String) : m Unit := Host.print (s ++ "\n")

end CommandDeck
