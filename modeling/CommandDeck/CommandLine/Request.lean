import CommandDeck.CommandLine.Arguments
import CommandDeck.Journal
import CommandDeck.Terminal.Opening

/-!
# Requests

A request is what the arguments of the program ask for: an order, and how much of the journal is to be
shown. The switches for the latter may stand at every level; what the innermost level says about the number
of switches holds.
-/

namespace CommandDeck.CommandLine

inductive SettingsOrder where
  | showAll
  | set (key value : String)
  /-- Shows the path of the settings file, or points to another one. -/
  | path (target? : Option String)
  deriving DecidableEq

inductive Order where
  | settings (order : SettingsOrder)
  | shell (choices : TerminalChoices)
  | exec (choices : TerminalChoices) (lines : List String)
  | validate (file : String) (asJson : Bool)
  | scaffold (output? namespaceName? : Option String)
  | analyse (source program : String) (arguments : List String) (output? : Option String)
  deriving DecidableEq

structure Request where
  verbosity : Verbosity
  order : Order
  deriving DecidableEq

def switches : List OptionForm := [
  ⟨"quiet", some 'q', .flag, false⟩,
  ⟨"verbose", some 'v', .counter, false⟩]

def simpleForm (options : List OptionForm) (limit? : Option Nat) (beginsWithPath : Bool) : Form :=
  ⟨switches ++ options, limit?, beginsWithPath, [], false⟩

def programForm : Form :=
  ⟨switches, some 0, false, ["config", "shell", "exec", "validate", "scaffold", "analyze", "help"],
    true⟩

def settingsForm : Form := ⟨switches, some 0, false, ["show", "set", "path", "help"], false⟩

def terminalOptions : List OptionForm := [
  ⟨"manifest", none, .values false, true⟩,
  ⟨"no-delay", none, .flag, false⟩,
  ⟨"no-seed", none, .flag, false⟩]

def outputOption : OptionForm := ⟨"output", some 'o', .value, true⟩

def validateForm : Form := simpleForm [⟨"json", none, .flag, false⟩] (some 1) true

def scaffoldForm : Form :=
  simpleForm [outputOption, ⟨"namespace", none, .value, false⟩] (some 0) false

def analyseForm : Form :=
  simpleForm [⟨"producer", none, .value, false⟩, ⟨"arg", none, .values true, false⟩, outputOption]
    (some 1) true

namespace Given

def choices (g : Given) : TerminalChoices :=
  ⟨g.values "manifest", g.has "no-delay", g.has "no-seed"⟩

end Given

/-- The verbosity that the levels ask for, the innermost one first. -/
def verbosityOf (levels : List Given) : Verbosity :=
  let counts := levels.map fun g => g.count "verbose"
  Verbosity.ofSwitches (levels.any fun g => g.has "quiet")
    ((counts.find? fun n => n != 0).getD 0)

def takeAll (form : Form) (args : List String) : Except Halt Given :=
  (takeArguments form (Given.none, none) args).map (·.1)

/-- Help is asked for on a path of subcommands, which must be one of those that exist. -/
def helpOn (paths : List (List String)) (path : List String) : Halt :=
  if paths.contains path then .help else .misuse

def settingsPaths : List (List String) := [] :: settingsForm.subcommands.map fun name => [name]

def programPaths : List (List String) :=
  [] :: (programForm.subcommands.map (fun name => [name]) ++
    settingsForm.subcommands.map fun name => ["config", name])

/-- What `config` is asked. Answers the levels below it too, the innermost one first. -/
def readSettingsOrder (args : List String) : Except Halt (SettingsOrder × List Given) := do
  let (outer, rest?) ← takeArguments settingsForm (Given.none, none) args
  match rest? with
  | none => return (.showAll, [outer])
  | some ("set", rest) =>
    let g ← takeAll (simpleForm [] (some 2) false) rest
    match g.words with
    | [key, value] => return (.set key value, [g, outer])
    | _ => throw .misuse
  | some ("path", rest) =>
    let g ← takeAll (simpleForm [] (some 1) false) rest
    return (.path g.words.head?, [g, outer])
  | some ("help", rest) => throw (helpOn settingsPaths rest)
  | some (_, rest) =>
    let g ← takeAll (simpleForm [] (some 0) false) rest
    return (.showAll, [g, outer])

/-- What a subcommand is asked, and the levels below the program. -/
def readOrder (name : String) (args : List String) : Except Halt (Order × List Given) := do
  match name with
  | "help" => throw (helpOn programPaths args)
  | "config" =>
    let (order, levels) ← readSettingsOrder args
    return (.settings order, levels)
  | "shell" =>
    let g ← takeAll (simpleForm terminalOptions (some 0) false) args
    return (.shell g.choices, [g])
  | "exec" =>
    let g ← takeAll (simpleForm terminalOptions none false) args
    if g.words.isEmpty then throw .misuse
    return (.exec g.choices g.words, [g])
  | "validate" =>
    let g ← takeAll validateForm args
    match g.words with
    | [file] => return (.validate file (g.has "json"), [g])
    | _ => throw .misuse
  | "scaffold" =>
    let g ← takeAll scaffoldForm args
    return (.scaffold (g.value? "output") (g.value? "namespace"), [g])
  | _ =>
    let g ← takeAll analyseForm args
    match g.words, g.value? "producer" with
    | [source], some program =>
      return (.analyse source program (g.values "arg") (g.value? "output"), [g])
    | _, _ => throw .misuse

/-- The request that the arguments of the program make. -/
def readRequest (args : List String) : Except Halt Request := do
  let (outer, rest?) ← takeArguments programForm (Given.none, none) args
  match rest? with
  | none => throw .misuse
  | some (name, rest) =>
    let (order, levels) ← readOrder name rest
    return ⟨verbosityOf (levels ++ [outer]), order⟩

end CommandDeck.CommandLine
