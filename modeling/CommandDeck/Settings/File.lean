import CommandDeck.Environment
import CommandDeck.Host.Basic
import CommandDeck.Settings
import CommandDeck.Text.Utf8

/-!
# The settings file

The settings file is the one that the environment names, or else the one that the pointer file names,
or else the usual one. A file that is missing, or that cannot exist, holds empty settings.
-/

namespace CommandDeck

inductive SettingsFileError where
  | file (fault : FileError)
  | settings (fault : SettingsError)

namespace SettingsFileError

def message : SettingsFileError → String
  | file fault => "IO error: " ++ fault.message
  | settings fault => fault.message

def chain : SettingsFileError → List String
  | file fault => ["IO error: " ++ fault.message, fault.message]
  | settings (.value fault) => [(SettingsError.value fault).message, fault.message]
  | settings fault => [fault.message]

end SettingsFileError

namespace Settings

def ofContent (content : Except FileError ByteArray) : Except SettingsFileError Settings :=
  match content with
  | .error .notFound => .ok empty
  | .error .notFolder => .ok empty
  | .error .nameTooLong => .ok empty
  | .error .nulInName => .ok empty
  | .error e => .error (.file e)
  | .ok bytes =>
    match Text.decode? bytes with
    | none => .error (.file .notText)
    | some s =>
      match ofText s with
      | .error e => .error (.settings e)
      | .ok settings => .ok settings

def content (s : Settings) : ByteArray := Text.encode s.toText

def saveSteps (s : Settings) (p : Path) : List FileStep :=
  (p.parent?.toList.map FileStep.makeFolders) ++ [.write p s.content]

/-- The path that the content of a pointer file names. -/
def pointed? (content : Except FileError ByteArray) : Option String :=
  match content with
  | .error _ => none
  | .ok bytes =>
    match Text.decode? bytes with
    | none => none
    | some s => if Text.isBlankText s then none else some (Text.trimmed s)

variable {m : Type → Type} [Monad m] [Host m]

def readPointer (env : Environment) : m (Option String) := do
  return pointed? (← Storage.read (Path.ofText env.settingsPointer))

def filePath (env : Environment) : m String := do
  match env.settings? with
  | some p => return p
  | none => return (← readPointer env).getD env.usualSettings

def load (env : Environment) : m (Except SettingsFileError Settings) := do
  return ofContent (← Storage.read (Path.ofText (← filePath env)))

def save (s : Settings) (env : Environment) : m (Except SettingsFileError Unit) := do
  match ← performAll (s.saveSteps (Path.ofText (← filePath env))) with
  | .ok () => return .ok ()
  | .error e => return .error (.file e)

def writePointer (env : Environment) (target : String) : m (Except SettingsFileError Unit) := do
  let p := Path.ofText env.settingsPointer
  let steps := p.parent?.toList.map FileStep.makeFolders ++ [.write p (Text.encode target)]
  match ← performAll steps with
  | .ok () => return .ok ()
  | .error e => return .error (.file e)

end Settings

end CommandDeck
