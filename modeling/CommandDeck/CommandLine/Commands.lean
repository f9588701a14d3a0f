import CommandDeck.Analysis.Source
import CommandDeck.CommandLine.Request
import CommandDeck.Manifest.Summary
import CommandDeck.Settings.File
import CommandDeck.Terminal.TypedLine

/-!
# The commands of the program

Each order is carried out on a host. It ends well, or without success, or with a failure, which is
noted in the journal as one line that tells the causes after the message.
-/

namespace CommandDeck.CommandLine

/-- A message and the messages of its causes. -/
structure Failure where
  chain : List String

namespace Failure

def message (f : Failure) : String := ": ".intercalate f.chain

end Failure

variable {m : Type → Type} [Monad m] [Host m]

def printLines : List String → m Unit
  | [] => pure ()
  | s :: rest => do
    printLine s
    printLines rest

/-- The settings as lines; empty settings are only mentioned where more is to be shown. -/
def settingsLines (s : Settings) (v : Verbosity) (colours : Bool) : List String :=
  (Style.strong .green).paint colours "Configuration:" ::
    if s.isEmpty then
      if 0 < v.level then ["  " ++ (Style.plain .yellow).paint colours "(empty)"] else []
    else s.values.map fun p => "  " ++ (Style.plain .cyan).paint colours p.1.name ++ ": " ++ p.2

def setSetting (env : Environment) (j : Journal) (key value : String) :
    m (Except SettingsFileError Unit) := do
  match ← Settings.load env with
  | .error e => return .error e
  | .ok s =>
    match s.setNamed key value with
    | .error e => return .error (.settings e)
    | .ok changed =>
      match ← changed.save env with
      | .error e => return .error e
      | .ok () =>
        j.success ("Set " ++ key ++ " = " ++ value)
        return .ok ()

def obeySettings (env : Environment) (j : Journal) (order : SettingsOrder) :
    m (Except SettingsFileError Unit) := do
  match order with
  | .showAll =>
    match ← Settings.load env with
    | .error e => return .error e
    | .ok s =>
      printLines (settingsLines s j.verbosity j.colours)
      return .ok ()
  | .set key value => setSetting env j key value
  | .path target? =>
    let path ← Settings.filePath env
    j.debug ("Reading config from: " ++ path)
    match target? with
    | some target =>
      match ← Settings.writePointer env target with
      | .error e => return .error e
      | .ok () =>
        j.success ("Config path set to " ++ target)
        return .ok ()
    | none =>
      printLine path
      match ← Settings.readPointer env with
      | some target => printLine ((Style.plain .cyan).paint j.colours "overridden-by" ++ " " ++ target)
      | none => pure ()
      return .ok ()

/-- The settings of a terminal. Settings that cannot be read are not used. -/
def terminalSettings (env : Environment) (j : Journal) : m Settings := do
  match ← Settings.load env with
  | .ok s => return s
  | .error e =>
    j.warning ("Failed to load config, using defaults: " ++ e.message)
    return Settings.empty

/-- Obeys lines of which the first has the given number. -/
def obeyLines (env : Environment) (j : Journal) : Nat → List String → Terminal → m Unit
  | _, [], _ => pure ()
  | number, line :: rest, t => do
    j.note ⟨.step, "Line " ++ natText number ++ ": " ++ line⟩
    let t ← t.obeyLine true env.colours line
    obeyLines env j (number + 1) rest t

def execLines (env : Environment) (j : Journal) (choices : TerminalChoices) (lines : List String) :
    m Unit := do
  let settings ← terminalSettings env j
  let t ← Terminal.start j choices settings
  j.debug ("Executing " ++ natText lines.length ++ " line(s)")
  obeyLines env j 1 lines t

/-- Asks for a line where the terminal does not do so itself. -/
def askForLine (env : Environment) : m Unit :=
  if env.asksForLines then Host.print "$ " else pure ()

/-- Obeys a line of input, unless it ends the session. -/
def shellStep (env : Environment) (j : Journal) (line : Except FileError String) (t : Terminal) :
    m (Option Terminal) := do
  match line with
  | .error e =>
    j.error ("Failed to read input: " ++ e.message)
    return none
  | .ok s =>
    let line := TypedLine.read s
    let word := Text.trimmed line
    if word = "exit" ∨ word = "quit" then return none
    else
      let next ← t.obeyLine false env.colours line
      askForLine env
      return some next

def runSession (env : Environment) (j : Journal) (choices : TerminalChoices) : m Unit := do
  let settings ← terminalSettings env j
  let t ← Terminal.start j choices settings
  Terminal.present false env.colours 0 Terminal.bannerEmissions
  askForLine env
  Host.eachLine (shellStep env j) t
  j.debug "Simulator session ended"

/-- Checks a manifest file. Answers whether it may be published. -/
def validateFile (j : Journal) (file : String) (asJson : Bool) : m (Except Failure Bool) := do
  match ← Manifest.load (Path.ofText file) with
  | .error e => return .error ⟨("Failed to read manifest " ++ file) :: e.chain⟩
  | .ok manifest =>
    let report := manifest.validate
    if asJson then printLine (report.summary manifest).indented
    else if report.isEmpty then
      j.success ("Manifest '" ++ manifest.namespaceName ++ "' is deployable (" ++
        natText manifest.commands.length ++ " command(s))")
    else printLines (report.listing j.colours)
    return .ok report.isEmpty

/-- Saves a manifest and tells so, or prints it where no file is named. -/
def putOut (j : Journal) (manifest : Manifest) (output? : Option String) (message : String → String) :
    m (Except Failure Unit) := do
  match output? with
  | none =>
    printLine manifest.toText
    return .ok ()
  | some file =>
    match ← manifest.save (Path.ofText file) with
    | .error e => return .error ⟨("Failed to write " ++ file) :: e.chain⟩
    | .ok () =>
      j.success (message file)
      return .ok ()

def scaffoldManifest (j : Journal) (output? namespaceName? : Option String) :
    m (Except Failure Unit) := do
  let empty := Manifest.scaffold (← Host.clock).manifestStamp
  let manifest := { empty with namespaceName := namespaceName?.getD empty.namespaceName }
  putOut j manifest output? fun file =>
    "Wrote manifest '" ++ manifest.namespaceName ++ "' to " ++ file

def sourceText (content : Except FileError ByteArray) : Except FileError String :=
  match content with
  | .error e => .error e
  | .ok bytes =>
    match Text.decode? bytes with
    | some s => .ok s
    | none => .error .notText

def noteAll (j : Journal) : List Note → m Unit
  | [] => pure ()
  | note :: rest => do
    j.note note
    noteAll j rest

def analyseFile (env : Environment) (j : Journal) (source program : String)
    (arguments : List String) (output? : Option String) : m (Except Failure Unit) := do
  let path := Path.ofText source
  match sourceText (← Storage.read path) with
  | .error e => return .error ⟨["Failed to read " ++ source, e.message]⟩
  | .ok text =>
    let filename := path.name?.getD source
    match ← Analysis.analyse env.values program arguments text filename with
    | .error e =>
      j.note ⟨.taskFailure, "Analysis of " ++ filename ++ " failed"⟩
      return .error ⟨e.chain⟩
    | .ok manifest =>
      j.success ("Found " ++ natText manifest.commands.length ++ " command(s) in '" ++
        manifest.namespaceName ++ "'")
      noteAll j (manifest.warnings.map fun w => ⟨.warning, w⟩)
      let report := manifest.validate
      if !report.isEmpty then
        j.warning ("Manifest has " ++ natText report.size ++
          " validation error(s); fix them before publishing")
        printLines (report.listing j.colours)
      putOut j manifest output? fun file => "Wrote manifest to " ++ file

/-- Carries out an order. Answers whether it ended with success. -/
def obey (env : Environment) (j : Journal) (order : Order) : m (Except Failure Bool) := do
  match order with
  | .settings order =>
    match ← obeySettings env j order with
    | .ok () => return .ok true
    | .error e => return .error ⟨e.chain⟩
  | .shell choices =>
    runSession env j choices
    return .ok true
  | .exec choices lines =>
    execLines env j choices lines
    return .ok true
  | .validate file asJson => validateFile j file asJson
  | .scaffold output? namespaceName? =>
    return (← scaffoldManifest j output? namespaceName?).map fun _ => true
  | .analyse source program arguments output? =>
    return (← analyseFile env j source program arguments output?).map fun _ => true

def usage : String :=
  "Usage: nexus [-q] [-v]... <config|shell|exec|validate|scaffold|analyze> [ARGUMENTS]\n"

/-- Runs the program with arguments. Answers its exit code. -/
def run (env : Environment) (args : List String) : m Nat := do
  match readRequest args with
  | .error .help =>
    Host.print usage
    return 0
  | .error .version =>
    printLine "nexus 0.1.0"
    return 0
  | .error .misuse =>
    Host.printError usage
    return 2
  | .ok request =>
    let folder := Path.ofText env.journalFolder
    let j ← Journal.begin folder Environment.journalName request.verbosity env.colours
    match ← obey env j request.order with
    | .ok true => return 0
    | .ok false => return 1
    | .error f =>
      j.error f.message
      Host.printError ("Log file: " ++ env.journalPath ++ "\n")
      return 1

end CommandDeck.CommandLine
