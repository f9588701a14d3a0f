import CommandDeck.Json.ReadError
import CommandDeck.Text.Digit

/-!
# Strings of a document

What stands between the quotes of a string is read one character at a time by a machine whose state
says how far an escape has come. A character outside the basic plane is written as two escapes, a
leading and a trailing surrogate; a surrogate without its partner is refused. A string whose content
does not matter is held to the same grammar, but its surrogates need no partners.
-/

namespace CommandDeck.Json

/-- How far an escape has come. A leading surrogate waits for its partner in `lead`. -/
inductive EscapeState where
  | plain
  | backslash
  | digits (lead : Option Nat) (missing : Nat) (value : Nat)
  | partner (lead : Nat)
  | partnerLetter (lead : Nat)

/-- The character that a letter after the backslash stands for. -/
def shortEscape? : Char → Option Char
  | '"' => some '"'
  | '\\' => some '\\'
  | '/' => some '/'
  | 'b' => some '\x08'
  | 'f' => some '\x0c'
  | 'n' => some '\n'
  | 'r' => some '\r'
  | 't' => some '\t'
  | _ => none

def shorterThan : Nat → List Char → Bool
  | 0, _ => false
  | _ + 1, [] => true
  | bytes + 1, c :: rest => shorterThan (bytes + 1 - c.utf8Size) rest

/-- An escape of four digits is complete: the state after it and the character it gives. -/
def endEscape (strict : Bool) (lead : Option Nat) (value : Nat) :
    Except ReadError (EscapeState × List Char) :=
  let leading := 0xD800 ≤ value ∧ value ≤ 0xDBFF
  let trailing := 0xDC00 ≤ value ∧ value ≤ 0xDFFF
  if strict then
    match lead with
    | none =>
      if trailing then .error .loneSurrogate
      else if leading then .ok (.partner value, [])
      else .ok (.plain, [Char.ofNat value])
    | some high =>
      if trailing then
        .ok (.plain, [Char.ofNat ((high - 0xD800) * 0x400 + (value - 0xDC00) + 0x10000)])
      else .error .loneSurrogate
  else .ok (.plain, [])

/-- One character inside a string: the state after it and the characters it completes. The closing
quote is not its business. `rest` is what follows, which has to hold four digits after a `u`. -/
def stringStep (strict : Bool) (state : EscapeState) (c : Char) (rest : List Char) :
    Except ReadError (EscapeState × List Char) :=
  match state with
  | .plain =>
    if c = '\\' then .ok (.backslash, [])
    else if c.toNat < 0x20 then .error .controlCharacter
    else .ok (.plain, [c])
  | .backslash =>
    if c = 'u' then
      if shorterThan 4 rest then .error (.unfinished .string) else .ok (.digits none 4 0, [])
    else match shortEscape? c with
      | some d => .ok (.plain, [d])
      | none => .error .invalidEscape
  | .digits lead missing value =>
    match Text.hexValue? c with
    | none => .error .invalidEscape
    | some d =>
      if missing ≤ 1 then endEscape strict lead (value * 16 + d)
      else .ok (.digits lead (missing - 1) (value * 16 + d), [])
  | .partner lead => if c = '\\' then .ok (.partnerLetter lead, []) else .error .unpairedSurrogate
  | .partnerLetter lead =>
    if c = 'u' then
      if shorterThan 4 rest then .error (.unfinished .string)
      else .ok (.digits (some lead) 4 0, [])
    else .error .unpairedSurrogate

/-- A quote ends the string when no escape is under way. -/
def EscapeState.isPlain : EscapeState → Bool
  | .plain => true
  | _ => false

/-- Reads on from the state `state` to the closing quote; `before` holds the characters so far, last
first. Answers the content and what follows the quote. -/
def readStringFrom (strict : Bool) (state : EscapeState) (before : List Char) :
    List Char → Except ReadError (List Char × List Char)
  | [] => .error (.unfinished .string)
  | c :: rest =>
    if state.isPlain ∧ c = '"' then .ok (before.reverse, rest)
    else match stringStep strict state c rest with
      | .error e => .error e
      | .ok (next, done) => readStringFrom strict next (done ++ before) rest

def readString (s : List Char) : Except ReadError (String × List Char) :=
  match readStringFrom true .plain [] s with
  | .error e => .error e
  | .ok (content, rest) => .ok (String.ofList content, rest)

def skipString (s : List Char) : Except ReadError (List Char) :=
  match readStringFrom false .plain [] s with
  | .error e => .error e
  | .ok (_, rest) => .ok rest

end CommandDeck.Json
