import CommandDeck.Bench.Shell.Calculation
import CommandDeck.Bench.Shell.Wildcard

/-!
# Expansion

The words of a command are filled in before it is run. A word turns into pieces first, each a character
with what may still be done to it, and the pieces turn into fields: one for most words, but any number
for a word with parts that are filled in and not quoted.
-/

namespace CommandDeck.Shell

inductive Piece where
  /-- A character that is written in the script. -/
  | plain (c : Char)
  | quoted (c : Char)
  /-- A character that has been filled in. -/
  | given (c : Char)
  /-- The end of an argument. -/
  | boundary
  /-- Nothing that is quoted. It makes a field, even if it is empty. -/
  | holder
  deriving DecidableEq

namespace Piece

def ofText (isQuoted : Bool) (s : String) : List Piece :=
  if isQuoted then holder :: s.toList.map quoted else s.toList.map given

/-- The pieces of the word that stands for a value, now that it is filled in. -/
def filledIn (isQuoted : Bool) (ps : List Piece) : List Piece :=
  if isQuoted then holder :: ps
  else ps.map fun
    | plain c => given c
    | p => p

/-- The pieces of arguments, one after the other. -/
def ofArguments (isQuoted : Bool) (args : List String) : List Piece :=
  [boundary].intercalate (args.map (ofText isQuoted))

/-- The characters of pieces that are not divided. -/
def characters (ps : List Piece) : List Char :=
  ps.filterMap fun
    | plain c => some c
    | quoted c => some c
    | given c => some c
    | boundary => some ' '
    | holder => none

def pattern (ps : List Piece) : List Marked :=
  ps.filterMap fun
    | plain c => some (c, false)
    | quoted c => some (c, true)
    | given c => some (c, false)
    | boundary => some (' ', true)
    | holder => none

/-- The fields of pieces: `separators` divide what has been filled in, blank ones without leaving empty
fields. The field at hand comes first, if one has begun, and then whether a blank has ended the last. -/
def fields (separators : List Char) : Option (List Marked) → Bool → List Piece → List (List Marked)
  | none, _, [] => []
  | some field, _, [] => [field]
  | field?, _, plain c :: rest => fields separators (some (field?.getD [] ++ [(c, false)])) false rest
  | field?, _, quoted c :: rest => fields separators (some (field?.getD [] ++ [(c, true)])) false rest
  | field?, _, holder :: rest => fields separators (some (field?.getD [])) false rest
  | field?, _, boundary :: rest => field?.toList ++ fields separators none false rest
  | field?, afterBlank, given c :: rest =>
    if !separators.contains c then
      fields separators (some (field?.getD [] ++ [(c, false)])) false rest
    else if c = ' ' ∨ c = '\t' ∨ c = '\n' then
      field?.toList ++ fields separators none (field?.isSome || afterBlank) rest
    else if afterBlank && field?.isNone then fields separators none false rest
    else field?.getD [] :: fields separators none false rest

end Piece

namespace State

def separators (s : State) : List Char := ((s.value? "IFS").getD " \t\n").toList

def joinedArguments (s : State) : String :=
  let mark := match s.value? "IFS" with
    | none => " "
    | some t => String.ofList (t.toList.take 1)
  mark.intercalate s.arguments

def switchLetters (s : State) : String :=
  let letter (on : Bool) (c : String) : String := if on then c else ""
  letter s.switches.refusesUnset "u" ++ letter s.switches.exportsAll "a" ++
    letter s.switches.keepsFiles "C" ++ letter s.switches.traces "x" ++
    letter s.switches.keepsPatterns "f" ++ letter s.switches.stopsOnFailure "e"

def parameter? (s : State) (name : String) : Option String :=
  match name with
  | "?" => some (numberText s.status)
  | "#" => some (numberText s.arguments.length)
  | "$" => some (numberText processNumber)
  | "!" => s.value? "!"
  | "-" => some s.switchLetters
  | "@" => if s.arguments.isEmpty then none else some (" ".intercalate s.arguments)
  | "*" => if s.arguments.isEmpty then none else some s.joinedArguments
  | "LINENO" => some (numberText s.line)
  | _ =>
    match decimal? name with
    | some 0 => some s.title
    | some n => s.arguments[n - 1]?
    | none => s.value? name

end State

variable {m : Type → Type} [Monad m] [Storage m]

def calculate (text : String) : Run m String := do
  let s ← get
  let result : Except CalculationFault (Int × Assigned) :=
    match readCalculation text with
    | .error e => .error e
    | .ok e => e.value (fun name => (s.value? name).getD "") []
  match result with
  | .ok (i, assigned) =>
    for (name, value) in assigned.reverse do
      assign name (String.ofList (NumberLayout.integer value))
    return String.ofList (NumberLayout.integer i)
  | .error (.badNumber word) => fault ("Illegal number: " ++ word)
  | .error (.expecting what) =>
    fault ("arithmetic expression: expecting " ++ what ++ ": \"" ++ text ++ "\"")
  | .error .zeroDivision => fault ("arithmetic expression: division by zero: \"" ++ text ++ "\"")

/-- The value of a parameter that must have one if the shell refuses others. -/
def ownValue (name : String) : Run m String := do
  let s ← get
  match s.parameter? name with
  | some v => return v
  | none =>
    if s.switches.refusesUnset && name ≠ "@" && name ≠ "*" then fault (name ++ ": parameter not set")
    else return ""

def ownPieces (name : String) (isQuoted : Bool) : Run m (List Piece) := do
  let s ← get
  if name = "@" ∨ (name = "*" ∧ isQuoted = false) then return Piece.ofArguments isQuoted s.arguments
  else return Piece.ofText isQuoted (← ownValue name)

/-- The pieces of a part of a word. Scripts in it are run by `output`, which answers what they write. The
number bounds how deep the parts stand. -/
def expandPart (output : List Command → Run m ByteArray) : Nat → WordPart → Run m (List Piece)
  | 0, _ => return []
  | fuel + 1, part => do
    let expand (w : Word) : Run m (List Piece) :=
      return (← w.mapM (expandPart output fuel)).flatten
    match part with
    | .text s isQuoted =>
      return if isQuoted then .holder :: s.map .quoted else s.map .plain
    | .output script isQuoted =>
      let bytes ← output script
      let text := (Text.decodeLossy bytes).toList.reverse.dropWhile (· == '\n')
      return Piece.ofText isQuoted (String.ofList text.reverse)
    | .result expression isQuoted =>
      let text := String.ofList (Piece.characters (← expand expression))
      return Piece.ofText isQuoted (← calculate text)
    | .parameter name use isQuoted =>
      let given (blank : Bool) : Run m Bool := do
        match (← get).parameter? name with
        | none => return false
        | some v => return !(blank && v.isEmpty)
      let trimmed (w : Word) (trim : List Marked → List Char → List Char) : Run m (List Piece) := do
        let value ← ownValue name
        let pattern := Piece.pattern (← expand w)
        return Piece.ofText isQuoted (String.ofList (trim pattern value.toList))
      match use with
      | .plain => ownPieces name isQuoted
      | .size =>
        let size ← if name = "@" ∨ name = "*" then pure (← get).arguments.length
          else pure (← ownValue name).utf8ByteSize
        return Piece.ofText isQuoted (numberText size)
      | .orElse blank w =>
        if ← given blank then ownPieces name isQuoted
        else return Piece.filledIn isQuoted (← expand w)
      | .orAssign blank w =>
        if ← given blank then ownPieces name isQuoted
        else
          let value := String.ofList (Piece.characters (← expand w))
          if (name.toList.head?.any fun c => c.isAlpha || c == '_') then
            assign name value
            return Piece.ofText isQuoted value
          else fault (name ++ ": bad variable name")
      | .orFail blank w =>
        if ← given blank then ownPieces name isQuoted
        else if w.isEmpty then
          fault (name ++ ": parameter not set" ++ (if blank then " or null" else ""))
        else fault (name ++ ": " ++ String.ofList (Piece.characters (← expand w)))
      | .ifGiven blank w =>
        if ← given blank then return Piece.filledIn isQuoted (← expand w)
        else return Piece.ofText isQuoted ""
      | .withoutStart longest w => trimmed w (withoutStart longest)
      | .withoutEnd longest w => trimmed w (withoutEnd longest)
      | .bad => fault "Bad substitution"

/-- Words do not stand in each other deeper than this. -/
def depthLimit : Nat := 1000

def homeOf? (s : State) (name : List Char) : Option String :=
  if name.isEmpty then s.value? "HOME" else if name = ['r', 'o', 'o', 't'] then some "/root" else none

/-- A word with the home folder in the place of a tilde at its beginning. -/
def withHome (s : State) (w : Word) : Word :=
  match w with
  | .text ('~' :: after) false :: rest =>
    let name := after.takeWhile (· != '/')
    let isWhole : Bool := rest.isEmpty || name.length < after.length
    match if isWhole then homeOf? s name else none with
    | some home => .text home.toList true :: .text (after.drop name.length) false :: rest
    | none => w
  | _ => w

def piecesOf (output : List Command → Run m ByteArray) (w : Word) : Run m (List Piece) := do
  return (← (withHome (← get) w).mapM (expandPart output depthLimit)).flatten

def expandText (output : List Command → Run m ByteArray) (w : Word) : Run m String :=
  return String.ofList (Piece.characters (← piecesOf output w))

def expandWords (output : List Command → Run m ByteArray) (ws : List Word) : Run m (List String) := do
  let mut all := []
  for w in ws do
    let pieces ← piecesOf output w
    for field in Piece.fields (← get).separators none false pieces do
      all := all ++ (← textsOf field)
  return all

end CommandDeck.Shell
