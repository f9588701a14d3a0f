import CommandDeck.Terminal.Interpreter
import CommandDeck.Text.Digit
import CommandDeck.Toml.Document
import CommandDeck.Toml.StringText

/-!
# Settings

The settings of the terminal: who is logged in, the delays, and the manifests with which the registry
begins. Each may be left out, and then a default holds. A settings file is a TOML file with the keys
below; a key that is not among them is passed over, as long as its numbers are within bounds. A setting can also be given and shown as a text.
-/

namespace CommandDeck

structure Settings where
  account? : Option String
  syncDelay? : Option Nat
  resolveDelay? : Option Nat
  bridgeDelay? : Option Nat
  payloadDelay? : Option Nat
  seedDemo? : Option Bool
  manifests? : Option (List String)
  deriving DecidableEq

inductive SettingKey where
  | account
  | syncDelay
  | resolveDelay
  | bridgeDelay
  | payloadDelay
  | seedDemo
  | manifests
  deriving DecidableEq

/-- Why settings cannot be read or changed. -/
inductive SettingsError where
  | syntaxFault
  | value (fault : Toml.ValueError)
  | unknownKey (key : String)
  | invalidValue (key : SettingKey) (text : String)

namespace SettingKey

/-- The keys in the order in which they are shown and written. -/
def all : List SettingKey :=
  [account, syncDelay, resolveDelay, bridgeDelay, payloadDelay, seedDemo, manifests]

def name : SettingKey → String
  | account => "account"
  | syncDelay => "sync-delay-ms"
  | resolveDelay => "resolve-delay-ms"
  | bridgeDelay => "bridge-delay-ms"
  | payloadDelay => "payload-delay-ms"
  | seedDemo => "seed-demo"
  | manifests => "manifests"

def ofName? (s : String) : Option SettingKey := all.find? fun k => k.name == s

/-- What the text of a setting must be. -/
def expectation : SettingKey → String
  | seedDemo => "true or false"
  | _ => "a whole number of milliseconds"

end SettingKey

namespace SettingsError

def message : SettingsError → String
  | syntaxFault => "Failed to parse config: the file does not follow the grammar\n"
  | value fault => "Failed to parse config: " ++ fault.message
  | unknownKey key =>
    "Unknown config key: " ++ key ++ ". Currently supported keys: " ++
      ", ".intercalate (SettingKey.all.map SettingKey.name)
  | invalidValue key text =>
    "Invalid value '" ++ text ++ "' for " ++ key.name ++ ": expected " ++ key.expectation

end SettingsError

def millisLimit : Nat := 0xFFFFFFFFFFFFFFFF

/-- The number of milliseconds that a text denotes: digits, with a plus sign before them or not, and
white space at the ends. -/
def millisOfText? (s : String) : Option Nat :=
  let body := match Text.trim s.toList with
    | '+' :: rest => rest
    | all => all
  if body.isEmpty || !body.all Text.isDigit then none
  else
    let n := body.foldl (fun n c => n * 10 + Text.digitValue c) 0
    if n ≤ millisLimit then some n else none

def boolText (b : Bool) : String := if b then "true" else "false"

def natText (n : Nat) : String := String.ofList (NumberLayout.digits n)

/-- The parts of a list in one text: trimmed, and without empty ones. -/
def listOfText (s : String) : List String :=
  ((Text.splitAt ',' s.toList).map Text.trim).filterMap fun part =>
    if part.isEmpty then none else some (String.ofList part)

namespace Settings

def empty : Settings := ⟨none, none, none, none, none, none, none⟩

def get? (s : Settings) : SettingKey → Option String
  | .account => s.account?
  | .syncDelay => s.syncDelay?.map natText
  | .resolveDelay => s.resolveDelay?.map natText
  | .bridgeDelay => s.bridgeDelay?.map natText
  | .payloadDelay => s.payloadDelay?.map natText
  | .seedDemo => s.seedDemo?.map boolText
  | .manifests => s.manifests?.map (",".intercalate ·)

def set (s : Settings) (key : SettingKey) (text : String) : Except SettingsError Settings :=
  let delay (put : Nat → Settings) : Except SettingsError Settings :=
    match millisOfText? text with
    | some n => .ok (put n)
    | none => .error (.invalidValue key text)
  match key with
  | .account => .ok { s with account? := some text }
  | .syncDelay => delay fun n => { s with syncDelay? := some n }
  | .resolveDelay => delay fun n => { s with resolveDelay? := some n }
  | .bridgeDelay => delay fun n => { s with bridgeDelay? := some n }
  | .payloadDelay => delay fun n => { s with payloadDelay? := some n }
  | .seedDemo =>
    if text = "true" then .ok { s with seedDemo? := some true }
    else if text = "false" then .ok { s with seedDemo? := some false }
    else .error (.invalidValue key text)
  | .manifests => .ok { s with manifests? := some (listOfText text) }

/-- The value shown for a key given by its name; a name that is no key has none. -/
def getNamed? (s : Settings) (name : String) : Option String :=
  (SettingKey.ofName? name).bind s.get?

/-- Changes the setting whose key has the given name. -/
def setNamed (s : Settings) (name text : String) : Except SettingsError Settings :=
  match SettingKey.ofName? name with
  | some key => s.set key text
  | none => .error (.unknownKey name)

def isEmpty (s : Settings) : Bool := SettingKey.all.all fun k => (s.get? k).isNone

/-- The settings that are given, by key, as texts. -/
def values (s : Settings) : List (SettingKey × String) :=
  SettingKey.all.filterMap fun k => (s.get? k).map fun v => (k, v)

def account (s : Settings) : String := s.account?.getD "architect@nexus.dev"

def syncDelay (s : Settings) : Nat := s.syncDelay?.getD 800

def resolveDelay (s : Settings) : Nat := s.resolveDelay?.getD 400

def bridgeDelay (s : Settings) : Nat := s.bridgeDelay?.getD 400

def payloadDelay (s : Settings) : Nat := s.payloadDelay?.getD 600

def seedDemo (s : Settings) : Bool := s.seedDemo?.getD true

def manifestPaths (s : Settings) : List String := s.manifests?.getD []

def terminal (s : Settings) : TerminalOptions :=
  ⟨s.account, .ofMillis s.syncDelay,
    ⟨.ofMillis s.resolveDelay, .ofMillis s.bridgeDelay, .ofMillis s.payloadDelay⟩⟩

def textValue : Toml.Value → Except Toml.ValueError String
  | .string s => .ok s
  | v => .error (v.wrongKind "a string")

def millisValue : Toml.Value → Except Toml.ValueError Nat
  | .integer i =>
    if 0 ≤ i ∧ i ≤ millisLimit then .ok i.toNat
    else if -0x8000000000000000 ≤ i ∧ i < 0 then .error (.negative i "u64")
    else .error ((Toml.Value.integer i).wrongKind "u64")
  | v => .error (v.wrongKind "u64")

def boolValue : Toml.Value → Except Toml.ValueError Bool
  | .boolean b => .ok b
  | v => .error (v.wrongKind "a boolean")

def textValues : List Toml.Value → Except Toml.ValueError (List String)
  | [] => .ok []
  | v :: rest =>
    match textValue v with
    | .error e => .error e
    | .ok s => (textValues rest).map (s :: ·)

def listValue : Toml.Value → Except Toml.ValueError (List String)
  | .array items => textValues items
  | v => .error (v.wrongKind "a sequence")

def putValue (s : Settings) (key : SettingKey) (v : Toml.Value) : Except Toml.ValueError Settings :=
  match key with
  | .account => (textValue v).map fun a => { s with account? := some a }
  | .syncDelay => (millisValue v).map fun n => { s with syncDelay? := some n }
  | .resolveDelay => (millisValue v).map fun n => { s with resolveDelay? := some n }
  | .bridgeDelay => (millisValue v).map fun n => { s with bridgeDelay? := some n }
  | .payloadDelay => (millisValue v).map fun n => { s with payloadDelay? := some n }
  | .seedDemo => (boolValue v).map fun b => { s with seedDemo? := some b }
  | .manifests => (listValue v).map fun l => { s with manifests? := some l }

/-- Puts the members of a file into the settings, in their order. Of a key that is not known only the
numbers must be within bounds. -/
def putMembers (s : Settings) : List (String × Toml.Value) → Except Toml.ValueError Settings
  | [] => .ok s
  | (name, v) :: rest =>
    match SettingKey.ofName? name with
    | none =>
      match v.overflow? with
      | some fault => .error fault
      | none => putMembers s rest
    | some key =>
      match s.putValue key v with
      | .error e => .error e
      | .ok s => putMembers s rest

def ofText (text : String) : Except SettingsError Settings :=
  match Toml.ofText? text with
  | none => .error .syntaxFault
  | some members =>
    match empty.putMembers members with
    | .error e => .error (.value e)
    | .ok s => .ok s

/-- A list, one item a line if there are several. -/
def writeList : List String → List Char
  | [] => ['[', ']']
  | [item] => '[' :: (Toml.writeString item ++ [']'])
  | items =>
    '[' :: '\n' :: (items.flatMap fun item =>
      [' ', ' ', ' ', ' '] ++ Toml.writeString item ++ [',', '\n']) ++ [']']

/-- The value of a key as it stands in a settings file. -/
def writeValue? (s : Settings) : SettingKey → Option (List Char)
  | .account => s.account?.map Toml.writeString
  | .syncDelay => s.syncDelay?.map NumberLayout.digits
  | .resolveDelay => s.resolveDelay?.map NumberLayout.digits
  | .bridgeDelay => s.bridgeDelay?.map NumberLayout.digits
  | .payloadDelay => s.payloadDelay?.map NumberLayout.digits
  | .seedDemo => s.seedDemo?.map fun b => (boolText b).toList
  | .manifests => s.manifests?.map writeList

/-- The line of a key, if it is given. -/
def writeLine (s : Settings) (key : SettingKey) : List Char :=
  match s.writeValue? key with
  | some v => key.name.toList ++ [' ', '=', ' '] ++ v ++ ['\n']
  | none => []

def toText (s : Settings) : String := String.ofList (SettingKey.all.flatMap s.writeLine)

end Settings

end CommandDeck
