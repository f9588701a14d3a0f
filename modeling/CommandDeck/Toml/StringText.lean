/-!
# Strings of a settings file

A string is written in the first of these styles that needs no escape: in double quotes, in single
quotes, over several lines in threefold double quotes, over several lines in threefold single quotes.
If every style needs one, it is written in double quotes with escapes, over several lines if it holds
a line break. A text in threefold quotes begins on a new line when it holds a line break.
-/

namespace CommandDeck.Toml

inductive StringStyle where
  | basic
  | literal
  | multilineBasic
  | multilineLiteral
  deriving DecidableEq

/-- The length of the longest run of `mark` in a text, given the length of the run before it. -/
def longestRun (mark : Char) : Nat → List Char → Nat
  | run, [] => run
  | run, c :: rest =>
    if c = mark then longestRun mark (run + 1) rest else max run (longestRun mark 0 rest)

/-- A control character that no style shows as it is. The tab and the line break are none. -/
def isControl (c : Char) : Bool := (c.toNat < 0x20 && c != '\t' && c != '\n') || c.toNat == 0x7F

def StringStyle.of (s : List Char) : StringStyle :=
  let controls := s.any isControl
  let backslash := s.contains '\\'
  let lineBreak := s.contains '\n'
  let single := longestRun '\'' 0 s
  let double := longestRun '"' 0 s
  if !controls && !backslash && double == 0 && !lineBreak then .basic
  else if !controls && single == 0 && !lineBreak then .literal
  else if !controls && !backslash && double ≤ 2 then .multilineBasic
  else if !controls && single ≤ 2 then .multilineLiteral
  else if lineBreak then .multilineBasic
  else .basic

/-- A digit of an escape, in base sixteen with capital letters. -/
def escapeDigit (n : Nat) : Char := (Nat.digitChar (n % 16)).toUpper

def numberEscape (n : Nat) : List Char :=
  ['\\', 'u', escapeDigit (n / 4096), escapeDigit (n / 256), escapeDigit (n / 16), escapeDigit n]

/-- How a character other than a double quote stands in double quotes. -/
def escapedChar (multiline : Bool) (c : Char) : List Char :=
  if c = '\x08' then ['\\', 'b']
  else if c = '\t' then ['\\', 't']
  else if c = '\n' then if multiline then ['\n'] else ['\\', 'n']
  else if c = '\x0c' then ['\\', 'f']
  else if c = '\r' then ['\\', 'r']
  else if c = '\\' then ['\\', '\\']
  else if isControl c then numberEscape c.toNat
  else [c]

/-- A text with escapes. At most `allowed` double quotes stand side by side without one; `run` are
already there. -/
def escapeFrom (multiline : Bool) (allowed : Nat) : Nat → List Char → List Char
  | _, [] => []
  | run, c :: rest =>
    if c = '"' then
      if allowed ≤ run then '\\' :: '"' :: escapeFrom multiline allowed 0 rest
      else '"' :: escapeFrom multiline allowed (run + 1) rest
    else escapedChar multiline c ++ escapeFrom multiline allowed 0 rest

def writeStringIn (style : StringStyle) (s : List Char) : List Char :=
  let start : List Char := if s.contains '\n' then ['\n'] else []
  match style with
  | .basic => '"' :: (escapeFrom false 0 0 s ++ ['"'])
  | .literal => '\'' :: (s ++ ['\''])
  | .multilineBasic => ['"', '"', '"'] ++ start ++ escapeFrom true 2 0 s ++ ['"', '"', '"']
  | .multilineLiteral => ['\'', '\'', '\''] ++ start ++ s ++ ['\'', '\'', '\'']

def writeString (s : String) : List Char := writeStringIn (StringStyle.of s.toList) s.toList

end CommandDeck.Toml
