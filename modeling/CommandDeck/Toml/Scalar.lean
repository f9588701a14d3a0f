import CommandDeck.Text.Digit
import CommandDeck.Toml.Value

/-!
# Reading single values of a settings file

Strings in four styles, integers in four bases, floats, booleans and dates. A reader answers `none`
where the text does not follow the grammar; there is no other fault at this level.
-/

namespace CommandDeck.Toml

/-- A reader takes the text and answers a value and the rest of the text. -/
abbrev Scan (α : Type) := List Char → Option (α × List Char)

def isBlank (c : Char) : Bool := c == ' ' || c == '\t'

def skipBlanks (s : List Char) : List Char := s.dropWhile isBlank

/-- A character that may stand in a comment or a string as it is. -/
def isPrintable (c : Char) : Bool := c == '\t' || (0x20 ≤ c.toNat && c.toNat != 0x7F)

def lineBreak? : List Char → Option (List Char)
  | '\n' :: rest => some rest
  | '\r' :: '\n' :: rest => some rest
  | _ => none

/-- The number that exactly so many digits in base sixteen denote. -/
def hexDigits? : Nat → Nat → Scan Nat
  | 0, value, s => some (value, s)
  | _ + 1, _, [] => none
  | count + 1, value, c :: rest =>
    match Text.hexValue? c with
    | some d => hexDigits? count (value * 16 + d) rest
    | none => none

def numberedChar? (count : Nat) : Scan Char := fun s =>
  match hexDigits? count 0 s with
  | some (n, rest) => if h : n.isValidChar then some (Char.ofNatAux n h, rest) else none
  | none => none

/-- The character of the escape that follows a backslash. -/
def escape? : Scan Char
  | 'b' :: rest => some ('\x08', rest)
  | 't' :: rest => some ('\t', rest)
  | 'n' :: rest => some ('\n', rest)
  | 'f' :: rest => some ('\x0c', rest)
  | 'r' :: rest => some ('\r', rest)
  | 'e' :: rest => some ('\x1b', rest)
  | '"' :: rest => some ('"', rest)
  | '\\' :: rest => some ('\\', rest)
  | 'x' :: rest => numberedChar? 2 rest
  | 'u' :: rest => numberedChar? 4 rest
  | 'U' :: rest => numberedChar? 8 rest
  | _ => none

/-- Reads what follows the opening double quote. The list `budget` bounds the number of steps: each
step gives up one of its characters and takes at least one from the text. -/
def basicTail : List Char → List Char → Scan String
  | [], _, _ => none
  | _ :: _, _, [] => none
  | _ :: budget, before, c :: rest =>
    if c = '"' then some (String.ofList before.reverse, rest)
    else if c = '\\' then
      match escape? rest with
      | some (d, rest) => basicTail budget (d :: before) rest
      | none => none
    else if isPrintable c then basicTail budget (c :: before) rest
    else none

def literalTail : List Char → Scan String
  | _, [] => none
  | before, c :: rest =>
    if c = '\'' then some (String.ofList before.reverse, rest)
    else if isPrintable c then literalTail (c :: before) rest
    else none

/-- The end of a threefold quote: up to two more of the same belong to the text before it. -/
def closingQuotes (mark : Char) (before rest : List Char) : String × List Char :=
  match rest with
  | a :: b :: more =>
    if a = mark ∧ b = mark then (String.ofList (mark :: mark :: before).reverse, more)
    else if a = mark then (String.ofList (mark :: before).reverse, b :: more)
    else (String.ofList before.reverse, rest)
  | [a] =>
    if a = mark then (String.ofList (mark :: before).reverse, [])
    else (String.ofList before.reverse, rest)
  | [] => (String.ofList before.reverse, [])

def skipGap : List Char → List Char
  | '\r' :: '\n' :: rest => skipGap rest
  | c :: rest => if isBlank c || c == '\n' then skipGap rest else c :: rest
  | [] => []

/-- After a backslash at the end of a line: the text from the next character that is not blank on. -/
def joinLines? (s : List Char) : Option (List Char) := (lineBreak? (skipBlanks s)).map skipGap

/-- Reads what follows an opening threefold double quote and the line break after it. -/
def multilineBasicTail : List Char → List Char → Scan String
  | [], _, _ => none
  | _ :: _, _, [] => none
  | _ :: budget, before, c :: rest =>
    if c = '"' then
      match rest with
      | '"' :: '"' :: more => some (closingQuotes '"' before more)
      | _ => multilineBasicTail budget (c :: before) rest
    else if c = '\\' then
      match escape? rest with
      | some (d, rest) => multilineBasicTail budget (d :: before) rest
      | none =>
        match joinLines? rest with
        | some rest => multilineBasicTail budget before rest
        | none => none
    else if c = '\r' then
      match rest with
      | '\n' :: more => multilineBasicTail budget ('\n' :: '\r' :: before) more
      | _ => none
    else if c = '\n' ∨ isPrintable c then multilineBasicTail budget (c :: before) rest
    else none

/-- Reads what follows an opening threefold single quote and the line break after it. -/
def multilineLiteralTail : List Char → List Char → Scan String
  | [], _, _ => none
  | _ :: _, _, [] => none
  | _ :: budget, before, c :: rest =>
    if c = '\'' then
      match rest with
      | '\'' :: '\'' :: more => some (closingQuotes '\'' before more)
      | _ => multilineLiteralTail budget (c :: before) rest
    else if c = '\r' then
      match rest with
      | '\n' :: more => multilineLiteralTail budget ('\n' :: '\r' :: before) more
      | _ => none
    else if c = '\n' ∨ isPrintable c then multilineLiteralTail budget (c :: before) rest
    else none

/-- The text after the line break that may follow an opening threefold quote. -/
def dropFirstBreak (s : List Char) : List Char := (lineBreak? s).getD s

def string? : Scan String
  | '"' :: '"' :: '"' :: rest => multilineBasicTail rest [] (dropFirstBreak rest)
  | '\'' :: '\'' :: '\'' :: rest => multilineLiteralTail rest [] (dropFirstBreak rest)
  | '"' :: rest => basicTail rest [] rest
  | '\'' :: rest => literalTail [] rest
  | _ => none

/-- The value of digits in a base, with single underscores between digits only. -/
def groupedDigits? (base : Nat) : Bool → Nat → List Char → Option Nat
  | afterDigit, value, [] => if afterDigit then some value else none
  | afterDigit, value, c :: rest =>
    if c = '_' then if afterDigit then groupedDigits? base false value rest else none
    else match Text.hexValue? c with
      | some d => if d < base then groupedDigits? base true (value * base + d) rest else none
      | none => none

/-- Digits in base ten, without a zero before others. -/
def decimalDigits? (s : List Char) : Option Nat :=
  match s with
  | '0' :: _ :: _ => none
  | _ => groupedDigits? 10 false 0 s

def takeSign : List Char → Bool × List Char
  | '-' :: rest => (true, rest)
  | '+' :: rest => (false, rest)
  | s => (false, s)

def integer? (s : List Char) : Option Int :=
  match s with
  | '0' :: 'x' :: digits => (groupedDigits? 16 false 0 digits).map Int.ofNat
  | '0' :: 'o' :: digits => (groupedDigits? 8 false 0 digits).map Int.ofNat
  | '0' :: 'b' :: digits => (groupedDigits? 2 false 0 digits).map Int.ofNat
  | s =>
    let (negative, digits) := takeSign s
    (decimalDigits? digits).map fun n => if negative then -(n : Int) else n

/-- The exponent of a float, after its letter. Zeros may stand before its digits. -/
def exponent? (s : List Char) : Option Int :=
  let (negative, digits) := takeSign s
  (groupedDigits? 10 false 0 digits).map fun n => if negative then -(n : Int) else n

/-- The float with the given decimal parts. An exponent that no digit can make up for is cut down. -/
def floatOf (negative : Bool) (digits : Nat) (exponent : Int) : Float :=
  let bounded := if exponent < -4000 then -4000 else if 4000 < exponent then 4000 else exponent
  match Binary64.ofDecimalNearest? negative digits bounded with
  | some x => .finite x
  | none => .tooGreat

/-- A float: an integer part, and a fraction or an exponent or both. -/
def float? (s : List Char) : Option Float :=
  let (negative, body) := takeSign s
  if body = ['i', 'n', 'f'] then some (.infinite negative)
  else if body = ['n', 'a', 'n'] then some .undefined
  else
    let isLetter (c : Char) : Bool := c == 'e' || c == 'E'
    let mantissa := body.takeWhile fun c => !isLetter c
    let scale? : Option Int := match body.dropWhile fun c => !isLetter c with
      | [] => some 0
      | _ :: digits => exponent? digits
    let whole := mantissa.takeWhile (· != '.')
    match decimalDigits? whole, scale? with
    | some n, some scale =>
      match mantissa.dropWhile (· != '.') with
      | [] => if body.any isLetter then some (floatOf negative n scale) else none
      | _ :: fraction =>
        match groupedDigits? 10 false n fraction with
        | some digits =>
          some (floatOf negative digits (scale - (fraction.filter (· != '_')).length))
        | none => none
    | _, _ => none

/-- A number of exactly so many digits within bounds. -/
def boundedDigits? (count low high : Nat) (s : List Char) : Option (List Char) :=
  let ds := s.take count
  if ds.length = count ∧ ds.all Text.isDigit then
    match groupedDigits? 10 false 0 ds with
    | some n => if low ≤ n ∧ n ≤ high then some (s.drop count) else none
    | none => none
  else none

def after? (c : Char) : List Char → Option (List Char)
  | [] => none
  | d :: rest => if c = d then some rest else none

/-- The days of a month, for a year given by its digits. -/
def daysInMonth (year month : Nat) : Nat :=
  if month = 2 then
    if year % 4 = 0 ∧ (year % 100 ≠ 0 ∨ year % 400 = 0) then 29 else 28
  else if month = 4 ∨ month = 6 ∨ month = 9 ∨ month = 11 then 30
  else 31

def dateTail? (s : List Char) : Option (List Char) := do
  let year ← groupedDigits? 10 false 0 (s.take 4)
  let rest ← (boundedDigits? 4 0 9999 s).bind (after? '-')
  let month ← groupedDigits? 10 false 0 (rest.take 2)
  let rest ← (boundedDigits? 2 1 12 rest).bind (after? '-')
  boundedDigits? 2 1 (daysInMonth year month) rest

/-- A time of day, where the seconds may be left out. -/
def timeTail? (s : List Char) : Option (List Char) := do
  let rest ← (boundedDigits? 2 0 23 s).bind (after? ':')
  let rest ← boundedDigits? 2 0 59 rest
  match after? ':' rest with
  | none => some rest
  | some rest =>
    let rest ← boundedDigits? 2 0 60 rest
    match rest with
    | '.' :: c :: more => if Text.isDigit c then some (more.dropWhile Text.isDigit) else none
    | '.' :: [] => none
    | _ => some rest

def offsetTail? (s : List Char) : Option (List Char) :=
  match s with
  | 'Z' :: rest => some rest
  | 'z' :: rest => some rest
  | '+' :: rest => ((boundedDigits? 2 0 23 rest).bind (after? ':')).bind (boundedDigits? 2 0 59)
  | '-' :: rest => ((boundedDigits? 2 0 23 rest).bind (after? ':')).bind (boundedDigits? 2 0 59)
  | _ => none

/-- A date, a time, or both with or without an offset. -/
def isDateTime (s : List Char) : Bool :=
  match dateTail? s with
  | none => timeTail? s == some []
  | some [] => true
  | some (c :: rest) =>
    if c = 'T' ∨ c = 't' ∨ c = ' ' then
      match timeTail? rest with
      | some [] => true
      | some more => offsetTail? more == some []
      | none => false
    else false

/-- A character that may be part of a value written without quotes. -/
def isAtomChar (c : Char) : Bool :=
  c.isAlphanum || c == '_' || c == '-' || c == '+' || c == '.' || c == ':'

def atom? (s : List Char) : Option Value :=
  if s = ['t', 'r', 'u', 'e'] then some (.boolean true)
  else if s = ['f', 'a', 'l', 's', 'e'] then some (.boolean false)
  else match integer? s with
    | some i => some (.integer i)
    | none =>
      match float? s with
      | some x => some (.float x)
      | none => if isDateTime s then some .dateTime else none

/-- Reads a value without quotes. A date and a time may have one space between them. -/
def bareValue? : Scan Value := fun s =>
  let word := s.takeWhile isAtomChar
  let rest := s.dropWhile isAtomChar
  match rest with
  | ' ' :: more =>
    let time := more.takeWhile isAtomChar
    if dateTail? word = some [] ∧ (time.head?.any Text.isDigit) then
      if isDateTime (word ++ ' ' :: time) then some (.dateTime, more.dropWhile isAtomChar) else none
    else (atom? word).map fun v => (v, rest)
  | _ => (atom? word).map fun v => (v, rest)

end CommandDeck.Toml
