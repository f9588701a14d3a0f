import CommandDeck.Json.ReadError
import CommandDeck.Text.Digit

/-!
# Numbers of a document

A number without fraction and exponent that fits 64 bits, with or without sign, is an integer and
exact; minus zero is not one of them. Every other number is a double. Its digits are gathered into a
significand for as long as that fits 64 bits; further digits before the point only raise the
exponent, and further digits after it are dropped.
-/

namespace CommandDeck.Json

open Text (isDigit digitValue)

inductive Numeral where
  | integer (i : Int)
  | float (x : Binary64)

def significandLimit : Nat := 0xFFFFFFFFFFFFFFFF

/-- The greatest value that the digits of an exponent may have. -/
def exponentLimit : Nat := 2147483647

/-- Gathers digits before the point into `significand`, and counts those that do not fit. -/
def gatherWhole : List Char → Nat → Nat → Nat × Nat
  | [], significand, extra => (significand, extra)
  | d :: ds, significand, extra =>
    if 0 < extra ∨ significandLimit < significand * 10 + digitValue d then
      gatherWhole ds significand (extra + 1)
    else gatherWhole ds (significand * 10 + digitValue d) extra

/-- Gathers digits after the point into `significand` up to the first that does not fit, and counts
those gathered. -/
def gatherFraction : List Char → Nat → Nat → Nat × Nat
  | [], significand, used => (significand, used)
  | d :: ds, significand, used =>
    if significandLimit < significand * 10 + digitValue d then (significand, used)
    else gatherFraction ds (significand * 10 + digitValue d) (used + 1)

/-- The value of the digits of an exponent, or `none` if it is beyond the limit. -/
def gatherExponent : List Char → Nat → Option Nat
  | [], value => some value
  | d :: ds, value =>
    if exponentLimit < value * 10 + digitValue d then none
    else gatherExponent ds (value * 10 + digitValue d)

def floatNumeral (negative : Bool) (significand : Nat) (exponent : Int) (rest : List Char) :
    Except ReadError (Numeral × List Char) :=
  match Binary64.ofDecimal? negative significand exponent with
  | some x => .ok (.float x, rest)
  | none => .error .numberOutOfRange

def readExponent (negative : Bool) (significand : Nat) (exponent : Int) (s : List Char) :
    Except ReadError (Numeral × List Char) :=
  let (down, s) := match s with
    | '+' :: rest => (false, rest)
    | '-' :: rest => (true, rest)
    | _ => (false, s)
  match s with
  | [] => .error (.unfinished .value)
  | c :: _ =>
    if isDigit c then
      match gatherExponent (s.takeWhile isDigit) 0 with
      | some value =>
        floatNumeral negative significand (if down then exponent - value else exponent + value)
          (s.dropWhile isDigit)
      | none =>
        if significand ≠ 0 ∧ down = false then .error .numberOutOfRange
        else .ok (.float (Binary64.zero.withSign negative), s.dropWhile isDigit)
    else .error .invalidNumber

def isExponentLetter (c : Char) : Bool := c == 'e' || c == 'E'

def readFraction (negative : Bool) (significand extra : Nat) (s : List Char) :
    Except ReadError (Numeral × List Char) :=
  match s with
  | [] => .error (.unfinished .value)
  | c :: _ =>
    if isDigit c then
      let (significand, used) := gatherFraction (s.takeWhile isDigit) significand 0
      let exponent : Int := (extra : Int) - used
      match s.dropWhile isDigit with
      | [] => floatNumeral negative significand exponent []
      | d :: rest =>
        if isExponentLetter d then readExponent negative significand exponent rest
        else floatNumeral negative significand exponent (d :: rest)
    else .error .invalidNumber

def wholeNumeral (negative : Bool) (value : Nat) : Numeral :=
  if negative then
    if 0 < value ∧ value ≤ 0x8000000000000000 then .integer (-(value : Int))
    else match Binary64.ofNat? value with
      | some x => .float (x.withSign true)
      | none => .float (Binary64.zero.withSign true)
  else .integer value

def readNumeral (negative : Bool) (s : List Char) : Except ReadError (Numeral × List Char) :=
  match s with
  | [] => .error (.unfinished .value)
  | c :: after =>
    if isDigit c then
      if c = '0' ∧ (after.head?.any isDigit) then .error .invalidNumber
      else
        let (significand, extra) := gatherWhole (s.takeWhile isDigit) 0 0
        match s.dropWhile isDigit with
        | '.' :: rest => readFraction negative significand extra rest
        | 'e' :: rest => readExponent negative significand extra rest
        | 'E' :: rest => readExponent negative significand extra rest
        | rest =>
          if extra = 0 then .ok (wholeNumeral negative significand, rest)
          else floatNumeral negative significand extra rest
    else .error .invalidNumber

def skipExponent (s : List Char) : Except ReadError (List Char) :=
  let s := match s with
    | '+' :: rest => rest
    | '-' :: rest => rest
    | _ => s
  if s.head?.any isDigit then .ok (s.dropWhile isDigit) else .error .invalidNumber

def skipFraction (s : List Char) : Except ReadError (List Char) :=
  if s.head?.any isDigit then
    match s.dropWhile isDigit with
    | [] => .ok []
    | c :: rest => if isExponentLetter c then skipExponent rest else .ok (c :: rest)
  else .error .invalidNumber

/-- Passes over a number whose sign has been read; its size does not matter. -/
def skipNumeral (s : List Char) : Except ReadError (List Char) :=
  match s with
  | [] => .error .invalidNumber
  | c :: after =>
    if isDigit c then
      if c = '0' ∧ (after.head?.any isDigit) then .error .invalidNumber
      else
        match s.dropWhile isDigit with
        | '.' :: rest => skipFraction rest
        | 'e' :: rest => skipExponent rest
        | 'E' :: rest => skipExponent rest
        | rest => .ok rest
    else .error .invalidNumber

end CommandDeck.Json
