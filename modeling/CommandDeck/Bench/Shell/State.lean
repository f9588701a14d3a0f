import CommandDeck.Host.Basic
import CommandDeck.Bench.Shell.Script
import CommandDeck.Bench.Shell.Signal
import CommandDeck.Text.Utf8

/-!
# The state of a shell

What a shell knows while it runs a script: its variables, functions and arguments, the status of the last
command, and where its descriptors lead. Bytes that go from one command to another stand in streams,
which are written at the end and read from the beginning, and which all parts of a script share.
-/

namespace CommandDeck.Shell

/-- Where a descriptor leads. -/
inductive Channel where
  | stream (index : Nat)
  | file (p : Path)
  /-- Takes everything and gives nothing. -/
  | nothing
  deriving DecidableEq

structure Variable where
  value? : Option String
  exported : Bool
  locked : Bool
  deriving DecidableEq

/-- The switches of a shell. -/
structure Switches where
  stopsOnFailure : Bool
  refusesUnset : Bool
  traces : Bool
  /-- Commands are read and not run. -/
  idles : Bool
  /-- Words that are patterns are left as they are. -/
  keepsPatterns : Bool
  /-- Files are not replaced without need. -/
  keepsFiles : Bool
  /-- Variables are given to programs as soon as they have a value. -/
  exportsAll : Bool
  deriving DecidableEq

structure State where
  title : String
  arguments : List String
  values : List (String × Variable)
  functions : List (String × Command)
  /-- What is done instead when a signal comes, and under zero, when the shell ends. -/
  traps : List (Nat × String)
  /-- The signals that have come and for which there is something to do. -/
  pending : List Nat
  status : Nat
  /-- The status of the last script in the words of the command at hand, if there is one. -/
  lastOutput? : Option Nat
  line : Nat
  /-- The line up to which the script has been read. -/
  reached : Nat
  /-- How many loops the command at hand stands in. -/
  loops : Nat
  /-- In a function, the variables of its own with what they were before. -/
  locals? : Option (List (String × Option Variable))
  /-- The commands that ran in the background, with their numbers and how they ended. -/
  jobs : List (Nat × Nat)
  /-- The command that tells a fault, if it is one of the shell's own. -/
  speaker? : Option String
  switches : Switches
  channels : List (Nat × Channel)
  streams : Array ByteArray
  /-- The folder that paths begin at. -/
  folder : String

/-- What ends more than a command: the end of the shell, a fault, a deadly signal, the end of a function,
and the end or the next round of so many loops. -/
inductive Halt where
  | exit (status : Nat)
  | failed
  | killed (signal : Nat)
  | returned (status : Nat)
  | left (loops : Nat)
  | resumed (loops : Nat)
  deriving DecidableEq

/-- A part of the run of a shell on a host. -/
abbrev Run (m : Type → Type) := ExceptT Halt (StateT State m)

namespace State

def ownValues : List (String × String) := [("IFS", " \t\n"), ("OPTIND", "1")]

/-- The variables that a shell sets where its surroundings do not. -/
def usualValues : List (String × String) := [
  ("PATH", "/usr/local/sbin:/usr/local/bin:/usr/sbin:/usr/bin:/sbin:/bin"), ("PS1", "$ "),
  ("PS2", "> "), ("PS4", "+ ")]

/-- A shell in a folder and in surroundings with some variables, whose input, output and errors are the
first three streams. -/
def start (title folder : String) (surroundings : List (String × String)) (input : ByteArray) :
    State where
  title := title
  arguments := []
  values :=
    ownValues.map (fun p => (p.1, ⟨some p.2, false, false⟩)) ++
    (surroundings.filter fun p => isName p.1.toList && (ownValues.lookup p.1).isNone && p.1 != "PWD").map
      (fun p => (p.1, ⟨some p.2, true, false⟩)) ++
    (usualValues.filter fun p => (surroundings.lookup p.1).isNone).map
      (fun p => (p.1, ⟨some p.2, false, false⟩)) ++
    [("PWD", ⟨some folder, true, false⟩)]
  functions := []
  traps := []
  pending := []
  status := 0
  lastOutput? := none
  line := 1
  reached := 1
  loops := 0
  locals? := none
  jobs := []
  speaker? := none
  switches := ⟨false, false, false, false, false, false, false⟩
  channels := [(0, .stream 0), (1, .stream 1), (2, .stream 2)]
  streams := #[input, .empty, .empty]
  folder := folder

def stream (s : State) (index : Nat) : ByteArray := (s.streams[index]?).getD .empty

def binding? (s : State) (name : String) : Option Variable := s.values.lookup name

def value? (s : State) (name : String) : Option String := (s.binding? name).bind (·.value?)

def dropVariable (s : State) (name : String) : State :=
  { s with values := s.values.filter fun p => p.1 != name }

/-- Puts a variable in the place of the one of its name, or after all others. -/
def putVariable (s : State) (name : String) (v : Variable) : State :=
  if (s.binding? name).isSome then
    { s with values := s.values.map fun p => if p.1 = name then (name, v) else p }
  else { s with values := s.values ++ [(name, v)] }

def channel? (s : State) (descriptor : Nat) : Option Channel := s.channels.lookup descriptor

/-- Lets a descriptor lead elsewhere, or nowhere. -/
def connect (s : State) (descriptor : Nat) (channel? : Option Channel) : State :=
  { s with channels := (channel?.toList.map fun c => (descriptor, c)) ++
      s.channels.filter fun p => p.1 != descriptor }

/-- The channel of a file that stands for one, if the text is the name of such a file and the channel is
there. -/
def device? (s : State) (text : String) : Option Channel :=
  match text with
  | "/dev/null" => some .nothing
  | "/dev/stdin" => s.channel? 0
  | "/dev/stdout" => s.channel? 1
  | "/dev/stderr" => s.channel? 2
  | _ =>
    match (Text.splitAt '/' text.toList).reverse with
    | digits :: folder =>
      if folder = [['f', 'd'], ['d', 'e', 'v'], []] then
        (decimal? (String.ofList digits)).bind s.channel?
      else none
    | [] => none

def exported (s : State) : List (String × String) :=
  s.values.filterMap fun p => if p.2.exported then p.2.value?.map fun v => (p.1, v) else none

def searchFolders (s : State) : List String :=
  (Text.splitAt ':' ((s.value? "PATH").getD "").toList).map String.ofList

def pathOf (s : State) (text : String) : Path :=
  if text.isEmpty || (Path.ofText text).rooted then Path.ofText text
  else (Path.ofText s.folder).child text

/-- The state after a part of a script with a state of its own: only the streams go on. -/
def afterPart (s part : State) : State := { s with streams := part.streams }

end State

def processNumber : Nat := 1000

variable {m : Type → Type} [Monad m] [Storage m]

def onHost {α : Type} (action : m α) : Run m α := ExceptT.lift (StateT.lift action)

def emitTo (channel : Channel) (bytes : ByteArray) : Run m Unit := do
  match channel with
  | .stream i => modify fun s => { s with streams := s.streams.modify i (· ++ bytes) }
  | .file p =>
    let _ ← onHost (Storage.perform (.append p bytes))
  | .nothing => pure ()

def emit (descriptor : Nat) (bytes : ByteArray) : Run m Unit := do
  match (← get).channel? descriptor with
  | some c => emitTo c bytes
  | none => pure ()

def say (s : String) : Run m Unit := emit 1 (Text.encode s)

def complain (s : String) : Run m Unit := emit 2 (Text.encode (s ++ "\n"))

def takeInput : Run m ByteArray := do
  let s ← get
  match s.channel? 0 with
  | some (.stream i) =>
    set { s with streams := s.streams.set! i .empty }
    return s.stream i
  | _ => return .empty

/-- Takes the input up to a line break, and the line break. Answers what is before it, and whether there
is one. -/
def takeLine : Run m (ByteArray × Bool) := do
  let s ← get
  match s.channel? 0 with
  | some (.stream i) =>
    let bytes := s.stream i
    let size := (bytes.findIdx? (· == 10)).getD bytes.size
    set { s with streams := s.streams.set! i (bytes.extract (size + 1) bytes.size) }
    return (bytes.extract 0 size, size < bytes.size)
  | _ => return (.empty, false)

def newStream (bytes : ByteArray) : Run m Nat := do
  let s ← get
  set { s with streams := s.streams.push bytes }
  return s.streams.size

def warn (message : String) : Run m Unit := do
  let s ← get
  let speaker := match s.speaker? with
    | some name => name ++ ": "
    | none => ""
  complain (s.title ++ ": " ++ numberText s.line ++ ": " ++ speaker ++ message)

def fault {α : Type} (message : String) : Run m α := do
  warn message
  throw .failed

def assign (name value : String) : Run m Unit := do
  let s ← get
  match s.binding? name with
  | some v =>
    if v.locked then fault (name ++ ": is read only")
    else set (s.putVariable name ⟨some value, v.exported || s.switches.exportsAll, false⟩)
  | none => set (s.putVariable name ⟨some value, s.switches.exportsAll, false⟩)

def takeAll (channel : Channel) : Run m (Except FileError ByteArray) := do
  match channel with
  | .stream i =>
    let s ← get
    set { s with streams := s.streams.set! i .empty }
    return .ok (s.stream i)
  | .file p => onHost (Storage.read p)
  | .nothing => return .ok .empty

def isFolder (text : String) : Run m Bool := do
  match ← onHost (Storage.read ((← get).pathOf text)) with
  | .error .isFolder => return true
  | _ => return false

def isThere (text : String) : Run m Bool := do
  match ← onHost (Storage.read ((← get).pathOf text)) with
  | .ok _ => return true
  | .error e => return e = .isFolder

def readFile (text : String) : Run m (Except FileError ByteArray) := do
  let s ← get
  match s.device? text with
  | some c => takeAll c
  | none => onHost (Storage.read (s.pathOf text))

def performStep (step : FileStep) : Run m (Except FileError Unit) := onHost (Storage.perform step)

/-- Runs a part of a script and lets the descriptors lead where they led before. -/
def restoring {α : Type} (part : Run m α) : Run m α := fun s => do
  let (r, t) ← part s
  return (r, { t with channels := s.channels })

/-- Runs a part of a script and gives variables the values back that they had before. -/
def restoringVariables {α : Type} (names : List String) (part : Run m α) : Run m α := fun s => do
  let (r, t) ← part s
  let before := s.values.filter fun p => names.contains p.1
  let after := t.values.filter fun p => !names.contains p.1
  return (r, { t with values := before ++ after })

def withVariables {α : Type} (change : State → State) (part : Run m α) : Run m α := fun s => do
  let (r, t) ← part (change s)
  return (r, { t with values := s.values })

def inName {α : Type} (name : String) (part : Run m α) : Run m α := fun s => do
  let (r, t) ← part { s with speaker? := some name }
  return (r, { t with speaker? := s.speaker? })

/-- Runs a part of a script in a shell of its own, with a change of the state at its beginning. Answers
its status. A deadly signal ends all shells. -/
def inShell (change : State → State) (part : Run m Unit) : Run m Nat := fun s => do
  let (r, t) ← part (change s)
  let after := s.afterPart t
  match r with
  | .ok () => return (.ok (t.status % 256), after)
  | .error (.exit status) => return (.ok (status % 256), after)
  | .error (.returned status) => return (.ok (status % 256), after)
  | .error .failed => return (.ok 2, after)
  | .error (.killed g) => return (.error (.killed g), after)
  | .error _ => return (.ok (t.status % 256), after)

end CommandDeck.Shell
