import CommandDeck.Json.Reader

/-!
# Passing over a value

A value that nobody asked for is passed over, however deep it is nested: the open brackets are kept
in a list, innermost first. Its grammar is checked, its numbers may have any size, and its strings
may hold surrogates without a partner.
-/

namespace CommandDeck.Json

inductive Bracket where
  | square
  | curly
  deriving DecidableEq

namespace Bracket

def closing : Bracket → Char
  | square => ']'
  | curly => '\x7d'

def unfinished : Bracket → ReadError
  | square => .unfinished .list
  | curly => .unfinished .object

def expectedComma : Bracket → ReadError
  | square => .expectedCommaOrBracket
  | curly => .expectedCommaOrBrace

end Bracket

/-- Inside an object, the key and the colon that come before a value. -/
def skipKey (opened : List Bracket) (s : List Char) : Except ReadError (List Char) :=
  match opened with
  | .curly :: _ =>
    match skipSpace s with
    | [] => .error (.unfinished .object)
    | '"' :: rest => (skipString rest).bind colon
    | _ => .error .keyNotString
  | _ => .ok s

/-- A value that is no array and no object, or the bracket that opens one. -/
def skipStart (s : List Char) : Except ReadError (Option Bracket × List Char) :=
  match skipSpace s with
  | [] => .error (.unfinished .value)
  | c :: rest =>
    let ended (r : Except ReadError (List Char)) := r.map fun s => ((none : Option Bracket), s)
    match c with
    | '[' => .ok (some .square, rest)
    | '\x7b' => .ok (some .curly, rest)
    | 'n' => ended (readNullTail rest)
    | 't' => ended (readTrueTail rest)
    | 'f' => ended (readFalseTail rest)
    | '"' => ended (skipString rest)
    | '-' => ended (skipNumeral rest)
    | c => if Text.isDigit c then ended (skipNumeral (c :: rest)) else .error .expectedValue

/-- What follows the closing bracket, if it comes right after the opening one. -/
def closesAtOnce (b : Bracket) (s : List Char) : Except ReadError (Option (List Char)) :=
  match skipSpace s with
  | [] => .error b.unfinished
  | c :: rest => .ok (if c = b.closing then some rest else none)

/-- After a value: passes the brackets that close, up to a comma or to the end of the outermost
value. The brackets still open are answered with the rest. -/
def closeBrackets : List Bracket → List Char → Except ReadError (List Bracket × List Char)
  | [], s => .ok ([], s)
  | b :: opened, s =>
    match skipSpace s with
    | [] => .error b.unfinished
    | c :: rest =>
      if c = ',' then .ok (b :: opened, rest)
      else if c = b.closing then closeBrackets opened rest
      else .error b.expectedComma

/-- Passes over a value inside the brackets `opened`, and over all that these still hold. -/
def skipFrom : List Char → List Bracket → List Char → Except ReadError (List Char)
  | [], opened, s => (skipKey opened s).bind fun _ => .error (.unfinished .value)
  | _ :: budget, opened, s =>
    match (skipKey opened s).bind skipStart with
    | .error e => .error e
    | .ok (none, s) =>
      match closeBrackets opened s with
      | .error e => .error e
      | .ok ([], rest) => .ok rest
      | .ok (b :: still, rest) => skipFrom budget (b :: still) rest
    | .ok (some b, s) =>
      match closesAtOnce b s with
      | .error e => .error e
      | .ok none => skipFrom budget (b :: opened) s
      | .ok (some s) =>
        match closeBrackets opened s with
        | .error e => .error e
        | .ok ([], rest) => .ok rest
        | .ok (b :: still, rest) => skipFrom budget (b :: still) rest

def skipValue (s : List Char) : Except ReadError (List Char) := skipFrom s [] s

end CommandDeck.Json
