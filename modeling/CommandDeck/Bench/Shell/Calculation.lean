import CommandDeck.Bench.Filter.Format

/-!
# Calculations

Expressions over integers of 64 bits, with variables that can be given new values. Division goes toward
zero.
-/

namespace CommandDeck.Shell

open CommandDeck.Filter

inductive Expression where
  | number (i : Int)
  | variable (name : String)
  | unary (sign : String) (e : Expression)
  | binary (sign : String) (a b : Expression)
  | assignment (name : String) (sign : String) (e : Expression)
  | choice (condition a b : Expression)

/-- Why a calculation has no result. -/
inductive CalculationFault where
  | expecting (what : String)
  | zeroDivision
  | badNumber (text : String)

/-- The signs between two expressions, those that bind less first. -/
def binarySigns : List (List String) := [
  ["||"], ["&&"], ["|"], ["^"], ["&"], ["==", "!="], ["<=", ">=", "<", ">"], ["<<", ">>"], ["+", "-"],
  ["*", "/", "%"]]

def assignmentSigns : List String :=
  ["=", "+=", "-=", "*=", "/=", "%=", "<<=", ">>=", "&=", "^=", "|="]

inductive CalculationToken where
  | number (i : Int)
  | name (s : String)
  | sign (s : String)
  deriving DecidableEq

/-- All signs, the longer ones first. -/
def calculationSigns : List String := [
  "<<=", ">>=", "||", "&&", "==", "!=", "<=", ">=", "<<", ">>", "+=", "-=", "*=", "/=", "%=", "&=", "^=",
  "|=", "|", "^", "&", "<", ">", "+", "-", "*", "/", "%", "!", "~", "(", ")", "?", ":", "="]

/-- The tokens of an expression, as far as they can be read. The number bounds them. -/
def calculationTokens : Nat → List Char → List CalculationToken
  | 0, _ => []
  | _, [] => []
  | fuel + 1, c :: rest =>
    if c = ' ' ∨ c = '\t' ∨ c = '\n' then calculationTokens fuel rest
    else if Text.isDigit c then
      let (value, rest) := takeInteger (c :: rest)
      .number (value.getD 0) :: calculationTokens fuel rest
    else if c.isAlpha || c == '_' then
      let name := (c :: rest).takeWhile fun d => d.isAlphanum || d == '_'
      .name (String.ofList name) :: calculationTokens fuel ((c :: rest).drop name.length)
    else
      match calculationSigns.find? fun s => s.toList.isPrefixOf (c :: rest) with
      | some s => .sign s :: calculationTokens fuel ((c :: rest).drop s.length)
      | none => .sign (String.singleton c) :: calculationTokens fuel rest

mutual

def readExpression : Nat → List CalculationToken →
    Except CalculationFault (Expression × List CalculationToken)
  | 0, _ => .error (.expecting "primary")
  | fuel + 1, ts =>
    match ts with
    | .name x :: .sign s :: rest =>
      if assignmentSigns.contains s then
        (readExpression fuel rest).map fun r => (.assignment x s r.1, r.2)
      else readChoice fuel ts
    | _ => readChoice fuel ts

def readChoice : Nat → List CalculationToken →
    Except CalculationFault (Expression × List CalculationToken)
  | 0, _ => .error (.expecting "primary")
  | fuel + 1, ts =>
    match readBinary fuel 0 ts with
    | .error e => .error e
    | .ok (condition, .sign "?" :: rest) =>
      match readExpression fuel rest with
      | .error e => .error e
      | .ok (a, .sign ":" :: rest) =>
        (readChoice fuel rest).map fun r => (.choice condition a r.1, r.2)
      | .ok _ => .error (.expecting "':'")
    | .ok r => .ok r

/-- Expressions joined by the signs of a level, or of one that binds more. -/
def readBinary : Nat → Nat → List CalculationToken →
    Except CalculationFault (Expression × List CalculationToken)
  | 0, _, _ => .error (.expecting "primary")
  | fuel + 1, level, ts =>
    match binarySigns[level]? with
    | none => readUnary fuel ts
    | some _ =>
      match readBinary fuel (level + 1) ts with
      | .error e => .error e
      | .ok (a, rest) => readMore fuel level a rest

def readMore : Nat → Nat → Expression → List CalculationToken →
    Except CalculationFault (Expression × List CalculationToken)
  | 0, _, a, ts => .ok (a, ts)
  | fuel + 1, level, a, ts =>
    match ts with
    | .sign s :: rest =>
      if ((binarySigns[level]?).getD []).contains s then
        match readBinary fuel (level + 1) rest with
        | .error e => .error e
        | .ok (b, rest) => readMore fuel level (.binary s a b) rest
      else .ok (a, ts)
    | _ => .ok (a, ts)

def readUnary : Nat → List CalculationToken →
    Except CalculationFault (Expression × List CalculationToken)
  | 0, _ => .error (.expecting "primary")
  | fuel + 1, ts =>
    match ts with
    | .number i :: rest => .ok (.number i, rest)
    | .name x :: rest => .ok (.variable x, rest)
    | .sign "(" :: rest =>
      match readExpression fuel rest with
      | .error e => .error e
      | .ok (e, .sign ")" :: rest) => .ok (e, rest)
      | .ok _ => .error (.expecting "')'")
    | .sign s :: rest =>
      if s = "!" ∨ s = "~" ∨ s = "-" ∨ s = "+" then
        (readUnary fuel rest).map fun r => (.unary s r.1, r.2)
      else .error (.expecting "primary")
    | [] => .error (.expecting "primary")

end

/-- Reads a calculation. A blank one is zero. -/
def readCalculation (s : String) : Except CalculationFault Expression :=
  match calculationTokens (s.length + 1) s.toList with
  | [] => .ok (.number 0)
  | ts =>
    match readExpression (40 * ts.length + 100) ts with
    | .error e => .error e
    | .ok (e, []) => .ok e
    | .ok _ => .error (.expecting "EOF")

def wrapped (i : Int) : Int := Int.bmod i 18446744073709551616

def truth (b : Bool) : Int := if b then 1 else 0

def bitsOf (i : Int) : Nat := (i % 18446744073709551616).toNat

def combine (sign : String) (a b : Int) : Except CalculationFault Int :=
  match sign with
  | "+" => .ok (wrapped (a + b))
  | "-" => .ok (wrapped (a - b))
  | "*" => .ok (wrapped (a * b))
  | "/" => if b = 0 then .error .zeroDivision else .ok (wrapped (Int.tdiv a b))
  | "%" => if b = 0 then .error .zeroDivision else .ok (Int.tmod a b)
  | "==" => .ok (truth (a == b))
  | "!=" => .ok (truth (a != b))
  | "<" => .ok (truth (a < b))
  | ">" => .ok (truth (b < a))
  | "<=" => .ok (truth (a ≤ b))
  | ">=" => .ok (truth (b ≤ a))
  | "<<" => .ok (wrapped (a * Int.ofNat (Nat.pow 2 (bitsOf b % 64))))
  | ">>" => .ok (Int.fdiv a (Int.ofNat (Nat.pow 2 (bitsOf b % 64))))
  | "|" => .ok (wrapped (bitsOf a ||| bitsOf b : Nat))
  | "^" => .ok (wrapped (bitsOf a ^^^ bitsOf b : Nat))
  | "&" => .ok (wrapped (bitsOf a &&& bitsOf b : Nat))
  | _ => .ok b

/-- The variables that a calculation gives new values, the last one first. -/
abbrev Assigned := List (String × Int)

/-- The result of an expression, where `get` tells the texts of variables. -/
def Expression.value (get : String → String) :
    Expression → Assigned → Except CalculationFault (Int × Assigned)
  | number i, s => .ok (i, s)
  | .variable x, s => (read x s).map fun i => (i, s)
  | unary sign e, s =>
    (e.value get s).map fun r =>
      (if sign = "!" then truth (r.1 == 0) else if sign = "~" then -r.1 - 1
        else if sign = "-" then wrapped (-r.1) else r.1, r.2)
  | binary sign a b, s =>
    match a.value get s with
    | .error e => .error e
    | .ok (i, s) =>
      if sign = "&&" ∧ i = 0 then .ok (0, s)
      else if sign = "||" ∧ i ≠ 0 then .ok (1, s)
      else
        match b.value get s with
        | .error e => .error e
        | .ok (j, s) =>
          if sign = "&&" ∨ sign = "||" then .ok (truth (j != 0), s)
          else (combine sign i j).map fun k => (k, s)
  | assignment x sign e, s =>
    match e.value get s with
    | .error f => .error f
    | .ok (j, s) =>
      if sign = "=" then .ok (j, (x, j) :: s)
      else
        match read x s with
        | .error f => .error f
        | .ok i =>
          (combine (String.ofList sign.toList.dropLast) i j).map fun k => (k, (x, k) :: s)
  | choice c a b, s =>
    match c.value get s with
    | .error e => .error e
    | .ok (i, s) => if i ≠ 0 then a.value get s else b.value get s
where
  /-- The value of a variable. -/
  read (x : String) (s : Assigned) : Except CalculationFault Int :=
    match s.lookup x with
    | some i => .ok i
    | none =>
      let text := get x
      if text.isEmpty then .ok 0
      else
        match takeInteger text.toList with
        | (some i, []) => .ok (wrapped i)
        | _ => .error (.badNumber text)

end CommandDeck.Shell
