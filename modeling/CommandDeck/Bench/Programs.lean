import CommandDeck.Bench.Shell.Execution
import CommandDeck.Host.Workbench

/-!
# Programs for a bench

Stand-ins for a shell and for the filters that scripts are made of, so that a workbench can run the
scripts that are given for an analysis. The commands know nothing of them: they are one choice of the
programs that a host may have.
-/

namespace CommandDeck.Bench

variable {m : Type → Type} [Monad m] [Storage m]

/-- Runs one of the programs known here, or says why it cannot be started. -/
def launch (l : Launch) : m (Except LaunchError ProgramResult) := do
  if (l.program :: l.arguments).any fun s => s.toList.contains '\x00' then
    return .error (.unstarted "nul byte found in provided data")
  else if l.program.isEmpty then return .error (.unstarted FileError.notFound.message)
  else
    let folder ← Storage.workingFolder
    let state : Shell.State := .start l.program folder l.surroundings l.input
    let (r, _) ← (Shell.findProgram l.program : Shell.Run m _) state
    match r with
    | .ok (.ok (name, _)) => return .ok (← Shell.launch name l)
    | .ok (.error cause) => return .error (.unstarted cause.message)
    | .error _ => return .error (.unstarted FileError.notFound.message)

instance : Storage (StateM FileTree) where
  read p := fun t => (t.read p, t)
  workingFolder := fun t => ("/" ++ "/".intercalate t.working, t)
  entries p := fun t => (t.entries p, t)
  perform step := fun t => t.perform step

def programs : Programs := fun l files => (launch l : StateM FileTree _).run files

end CommandDeck.Bench
