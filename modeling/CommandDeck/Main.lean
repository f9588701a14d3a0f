import Std.Time.DateTime.Timestamp
import CommandDeck.Bench.Programs
import CommandDeck.CommandLine.Commands

/-!
# The program

The commands on the computer itself: its files, its clock and its streams, and the programs of the bench.
-/

namespace CommandDeck.Program

/-- The number by which the operating system tells an error. -/
def systemCode : IO.Error → Nat
  | .alreadyExists _ code _ => code.toNat
  | .otherError code _ => code.toNat
  | .resourceBusy code _ => code.toNat
  | .resourceVanished code _ => code.toNat
  | .unsupportedOperation code _ => code.toNat
  | .hardwareFault code _ => code.toNat
  | .unsatisfiedConstraints code _ => code.toNat
  | .illegalOperation code _ => code.toNat
  | .protocolError code _ => code.toNat
  | .timeExpired code _ => code.toNat
  | .interrupted _ code _ => code.toNat
  | .noFileOrDirectory _ code _ => code.toNat
  | .invalidArgument _ code _ => code.toNat
  | .permissionDenied _ code _ => code.toNat
  | .resourceExhausted _ code _ => code.toNat
  | .inappropriateType _ code _ => code.toNat
  | .noSuchThing _ code _ => code.toNat
  | .unexpectedEof => 0
  | .userError _ => 0

/-- The cause of an error. Some calls give the number with its sign turned. -/
def fileError (e : IO.Error) : FileError :=
  let code := systemCode e
  match if 0x80000000 ≤ code then 0x100000000 - code else code with
  | 2 => .notFound
  | 13 => .denied
  | 16 => .busy
  | 17 => .alreadyThere
  | 20 => .notFolder
  | 21 => .isFolder
  | 36 => .nameTooLong
  | code => .other code

def caught {α : Type} (action : IO α) : IO (Except FileError α) := do
  try
    return .ok (← action)
  catch e =>
    return .error (fileError e)

def readFile (p : Path) : IO (Except FileError ByteArray) := caught (IO.FS.readBinFile p.toText)

def entries (p : Path) : IO (Except FileError (List String)) := caught do
  let names ← ((← IO.currentDir) / p.toText).readDir
  return names.toList.map (·.fileName)

def isFolder (p : Path) : IO Bool := do
  match ← readFile p with
  | .error .isFolder => return true
  | _ => return false

/-- Makes the folder at the first of some paths and before it, as far as they are missing, the folders at
the other paths, through which the path goes. -/
def makeFolders : List Path → IO (Except FileError Unit)
  | [] => return .ok ()
  | p :: before => do
    let settle (e : FileError) : IO (Except FileError Unit) := do
      return if ← isFolder p then .ok () else .error e
    match ← caught (IO.FS.createDir p.toText) with
    | .ok () => return .ok ()
    | .error .notFound =>
      match ← makeFolders before with
      | .error e => return .error e
      | .ok () =>
        match ← caught (IO.FS.createDir p.toText) with
        | .ok () => return .ok ()
        | .error e => settle e
    | .error e => settle e

def appendFile (p : Path) (content : ByteArray) : IO Unit := do
  let file ← IO.FS.Handle.mk p.toText .append
  file.write content
  file.flush

def perform : FileStep → IO (Except FileError Unit)
  | .makeFolders p => if p.isEmpty then return .ok () else makeFolders p.ancestry
  | .write p content => caught (IO.FS.writeBinFile p.toText content)
  | .append p content => caught (appendFile p content)
  | .move source target => caught (IO.FS.rename source.toText target.toText)
  | .remove p => caught (IO.FS.removeFile p.toText)

def clock : IO Clock := do
  let now ← Std.Time.Timestamp.now
  return .atInstant now.toMillisecondsSinceUnixEpoch.val

/-- The bytes up to the next line break or the end of the input. -/
partial def readLine (input : IO.FS.Stream) (bytes : List UInt8) : IO (List UInt8) := do
  match (← input.read 1).toList with
  | [] => return bytes.reverse
  | b :: _ => if b = 10 then return (b :: bytes).reverse else readLine input (b :: bytes)

/-- Hands the lines of the input to a step until it answers with no state. -/
partial def eachLine {σ : Type} (step : Except FileError String → σ → IO (Option σ)) (s : σ) :
    IO Unit := do
  match ← readLine (← IO.getStdin) [] with
  | [] => return
  | bytes =>
    match ← step (Workbench.lineOf bytes) s with
    | none => return
    | some next => eachLine step next

def printTo (stream : IO.FS.Stream) (s : String) : IO Unit := do
  stream.putStr s
  stream.flush

instance : Storage IO where
  read := readFile
  workingFolder := return (← IO.currentDir).toString
  entries := entries
  perform := perform

/-- Waits for a duration, to the full millisecond. -/
def pause (d : Duration) : IO Unit :=
  if d = 0 then pure () else IO.sleep ((d.nanos + 999999) / 1000000).toUInt32

instance : Host IO where
  clock := clock
  pause := pause
  print s := do printTo (← IO.getStdout) s
  printError s := do printTo (← IO.getStderr) s
  eachLine := eachLine
  launch := Bench.launch

/-- The variables of the surroundings that have a meaning here. -/
def variableNames : List String := [
  "PATH", "HOME", "TERM", "LANG", "USER", "NEXUS_CONFIG", "NEXUS_LOG_DIR", "CLICOLOR", "CLICOLOR_FORCE",
  "NO_COLOR"]

def environment : IO Environment := do
  let given ← variableNames.mapM fun name => return (← IO.getEnv name).map fun value => (name, value)
  let terminal ← (← IO.getStdout).isTty
  return .ofVariables (given.filterMap id) terminal

end CommandDeck.Program

def main (args : List String) : IO UInt32 := do
  let env ← CommandDeck.Program.environment
  let code ← CommandDeck.CommandLine.run (m := IO) env args
  return code.toUInt32
