import CommandDeck.Json.StringText
import CommandDeck.Json.Numeral

/-!
# Readers

A reader takes the text from where the last one stopped and answers a value and the rest of the text,
or the first fault. It also takes the number of levels of arrays and objects that may still be opened
inside each other. Lists are read item by item, objects member by member, and how an item or a member
is read may depend on the members read before it.

The loops are bounded by the text itself: `budget` starts as the text to be read and gives up one
character for each item, while every item takes at least one character from the text.
-/

namespace CommandDeck.Json

/-- A reader of values of the type `α`. -/
abbrev Reader (α : Type) := Nat → List Char → Except ReadError (α × List Char)

/-- The levels of arrays and objects that a whole document may open. -/
def nestingLimit : Nat := 127

def isSpace (c : Char) : Bool := c == ' ' || c == '\n' || c == '\t' || c == '\r'

def skipSpace (s : List Char) : List Char := s.dropWhile isSpace

/-- Reads the letters of a word after its first. -/
def readLetters : List Char → List Char → Except ReadError (List Char)
  | [], s => .ok s
  | _ :: _, [] => .error (.unfinished .value)
  | c :: letters, d :: s => if c = d then readLetters letters s else .error .expectedIdent

def readNullTail (s : List Char) : Except ReadError (List Char) := readLetters ['u', 'l', 'l'] s

def readTrueTail (s : List Char) : Except ReadError (List Char) := readLetters ['r', 'u', 'e'] s

def readFalseTail (s : List Char) : Except ReadError (List Char) :=
  readLetters ['a', 'l', 's', 'e'] s

def Found.ofNumeral : Numeral → Found
  | .integer i => .integer i
  | .float x => .float x

/-- The fault of a value of the wrong kind. A value that is itself faulty is that fault. -/
def wrongKind {α : Type} (expected : String) (c : Char) (rest : List Char) : Except ReadError α :=
  let wrong (found : Found) : Except ReadError α := .error (.invalidType found expected)
  match c with
  | 'n' => (readNullTail rest).bind fun _ => wrong .null
  | 't' => (readTrueTail rest).bind fun _ => wrong (.boolean true)
  | 'f' => (readFalseTail rest).bind fun _ => wrong (.boolean false)
  | '-' => (readNumeral true rest).bind fun r => wrong (.ofNumeral r.1)
  | '"' => (readString rest).bind fun r => wrong (.string r.1)
  | '[' => wrong .sequence
  | '\x7b' => wrong .map
  | c =>
    if Text.isDigit c then (readNumeral false (c :: rest)).bind fun r => wrong (.ofNumeral r.1)
    else .error .expectedValue

/-- What `read` makes of the next character that is not white space and of the rest after it. -/
def atValue {α : Type} (read : Char → List Char → Except ReadError (α × List Char))
    (s : List Char) : Except ReadError (α × List Char) :=
  match skipSpace s with
  | [] => .error (.unfinished .value)
  | c :: rest => read c rest

def string : Reader String := fun _ =>
  atValue fun c rest => if c = '"' then readString rest else wrongKind "a string" c rest

def boolean : Reader Bool := fun _ =>
  atValue fun c rest =>
    if c = 't' then (readTrueTail rest).map fun s => (true, s)
    else if c = 'f' then (readFalseTail rest).map fun s => (false, s)
    else wrongKind "a boolean" c rest

/-- Any number, as the integer or the double that it is. -/
def numeral (expected : String) (s : List Char) : Except ReadError (Numeral × List Char) :=
  atValue (fun c rest =>
    if c = '-' then readNumeral true rest
    else if Text.isDigit c then readNumeral false (c :: rest)
    else wrongKind expected c rest) s

/-- The double nearest to an integer of at most 64 bits. -/
def doubleOfInt (i : Int) : Binary64 := (Binary64.ofInt? i).getD Binary64.zero

def double : Reader Binary64 := fun _ s =>
  (numeral "f64" s).map fun
    | (.integer i, rest) => (doubleOfInt i, rest)
    | (.float x, rest) => (x, rest)

/-- A natural number of at most 32 bits. -/
def lineNumber : Reader UInt32 := fun _ s =>
  match numeral "u32" s with
  | .error e => .error e
  | .ok (.float x, _) => .error (.invalidType (.float x) "u32")
  | .ok (.integer i, rest) =>
    if 0 ≤ i ∧ i < 0x100000000 then .ok (UInt32.ofNat i.toNat, rest)
    else .error (.invalidValue (.integer i) "u32")

/-- The word `null`, or a value. -/
def optional {α : Type} (read : Reader α) : Reader (Option α) := fun levels s =>
  match skipSpace s with
  | 'n' :: rest => (readNullTail rest).map fun s => (none, s)
  | _ => (read levels s).map fun r => (some r.1, r.2)

/-- A value in an array or object one level down. -/
def oneLevelDown {α : Type} (read : Reader α) : Reader α
  | 0, _ => .error .tooDeep
  | levels + 1, s => read levels s

/-- What stands before the next item of a list: nothing more, or an item that starts at the text
answered. -/
def nextItem? (first : Bool) (s : List Char) : Except ReadError (Option (List Char)) :=
  match skipSpace s with
  | [] => .error (.unfinished .list)
  | c :: rest =>
    if c = ']' then .ok none
    else if first then .ok (some (c :: rest))
    else if c = ',' then
      match skipSpace rest with
      | [] => .error (.unfinished .value)
      | ']' :: _ => .error .trailingComma
      | d :: rest => .ok (some (d :: rest))
    else .error .expectedCommaOrBracket

/-- The end of a list whose items have all been read. -/
def endList (s : List Char) : Except ReadError (List Char) :=
  match skipSpace s with
  | [] => .error (.unfinished .list)
  | c :: rest =>
    if c = ']' then .ok rest
    else if c = ',' then
      match skipSpace rest with
      | ']' :: _ => .error .trailingComma
      | _ => .error .trailingCharacters
    else .error .trailingCharacters

/-- The items up to the closing bracket, which is left to be read; `before` holds those read, last
first. -/
def itemsFrom {α : Type} (read : Reader α) (levels : Nat) :
    List Char → Bool → List α → List Char → Except ReadError (List α × List Char)
  | [], _, _, _ => .error (.unfinished .list)
  | _ :: budget, first, before, s =>
    match nextItem? first s with
    | .error e => .error e
    | .ok none => .ok (before.reverse, s)
    | .ok (some s) =>
      match read levels s with
      | .error e => .error e
      | .ok (item, s) => itemsFrom read levels budget false (item :: before) s

def listTail {α : Type} (read : Reader α) : Reader (List α) := fun levels s =>
  match itemsFrom read levels s true [] s with
  | .error e => .error e
  | .ok (items, s) => (endList s).map fun rest => (items, rest)

def list {α : Type} (read : Reader α) : Reader (List α) := fun levels =>
  atValue fun c rest =>
    if c = '[' then oneLevelDown (listTail read) levels rest
    else wrongKind "a sequence" c rest

/-- What stands before the next member of an object: nothing more, or a key whose text after the
quote is answered. -/
def nextKey? (first : Bool) (s : List Char) : Except ReadError (Option (List Char)) :=
  match skipSpace s with
  | [] => .error (.unfinished .object)
  | c :: rest =>
    if c = '\x7d' then .ok none
    else if first then
      if c = '"' then .ok (some rest) else .error .keyNotString
    else if c = ',' then
      match skipSpace rest with
      | [] => .error (.unfinished .value)
      | '"' :: rest => .ok (some rest)
      | '\x7d' :: _ => .error .trailingComma
      | _ => .error .keyNotString
    else .error .expectedCommaOrBrace

def colon (s : List Char) : Except ReadError (List Char) :=
  match skipSpace s with
  | [] => .error (.unfinished .object)
  | ':' :: rest => .ok rest
  | _ => .error .expectedColon

/-- The members up to the closing brace, which is passed. Each key is handed to `step` with the state
so far; what `step` answers reads the rest of the member, colon included, into the next state. -/
def membersFrom {σ : Type} (step : σ → String → Reader σ) (levels : Nat) :
    List Char → Bool → σ → List Char → Except ReadError (σ × List Char)
  | [], _, _, _ => .error (.unfinished .object)
  | _ :: budget, first, state, s =>
    match nextKey? first s with
    | .error e => .error e
    | .ok none => .ok (state, (skipSpace s).drop 1)
    | .ok (some s) =>
      match readString s with
      | .error e => .error e
      | .ok (key, s) =>
        match step state key levels s with
        | .error e => .error e
        | .ok (state, s) => membersFrom step levels budget false state s

/-- Reads what follows an opening brace. -/
def membersTail {σ : Type} (step : σ → String → Reader σ) (state : σ) : Reader σ := fun levels s =>
  membersFrom step levels s true state s

/-- A value after a colon. -/
def afterColon {α : Type} (read : Reader α) : Reader α := fun levels s =>
  match colon s with
  | .error e => .error e
  | .ok s => read levels s

/-- Reads a whole text: nothing but white space may follow the value. -/
def readAll {α : Type} (read : Reader α) (text : String) : Except ReadError α :=
  match read nestingLimit text.toList with
  | .error e => .error e
  | .ok (value, rest) =>
    match skipSpace rest with
    | [] => .ok value
    | _ => .error .trailingCharacters

end CommandDeck.Json
