import CommandDeck.Bench.Shell.Program

/-!
# Conditions

A condition is given by words: tests of texts, numbers and files, joined by signs. Between two words a
sign that joins them goes before every other meaning that the words can have.
-/

namespace CommandDeck.Shell

inductive Condition where
  | never
  | filled (s : String)
  | blank (s : String)
  | texts (sign a b : String)
  | numbers (sign a b : String)
  | file (letter s : String)
  | negated (c : Condition)
  | both (a b : Condition)
  | either (a b : Condition)

/-- What is wrong with the words of a condition. -/
inductive ConditionFault where
  | unexpected (word : String)
  | lacksArgument (sign : String)
  | openBracket
  | badNumber (word : String)

def ConditionFault.message : ConditionFault → String
  | unexpected word => word ++ ": unexpected operator"
  | lacksArgument sign => sign ++ ": argument expected"
  | openBracket => "closing paren expected"
  | badNumber word => "Illegal number: " ++ word

def unarySigns : List String := [
  "-r", "-w", "-x", "-e", "-f", "-d", "-c", "-b", "-p", "-u", "-g", "-k", "-s", "-t", "-z", "-n", "-h",
  "-O", "-G", "-L", "-S"]

def textSigns : List String := ["=", "!=", "<", ">"]

def numberSigns : List String := ["-eq", "-ne", "-ge", "-gt", "-le", "-lt"]

def fileSigns : List String := ["-nt", "-ot", "-ef"]

def isBinarySign (s : String) : Bool :=
  textSigns.contains s || numberSigns.contains s || fileSigns.contains s

namespace Condition

def between (sign a b : String) : Condition :=
  if textSigns.contains sign then texts sign a b
  else if numberSigns.contains sign then numbers sign a b
  else never

def after (sign s : String) : Condition :=
  if sign = "-z" then blank s else if sign = "-n" then filled s else file sign s

mutual

/-- A condition from the beginning of some words. Answers the words from its last one on. -/
def readEither : Nat → List String → Except ConditionFault (Condition × List String)
  | 0, ws => .ok (never, ws)
  | fuel + 1, ws =>
    match readBoth fuel ws with
    | .error e => .error e
    | .ok (a, last :: "-o" :: rest) =>
      if rest.isEmpty then .ok (either a never, [last])
      else (readEither fuel rest).map fun r => (either a r.1, r.2)
    | .ok r => .ok r

def readBoth : Nat → List String → Except ConditionFault (Condition × List String)
  | 0, ws => .ok (never, ws)
  | fuel + 1, ws =>
    match readNegated fuel ws with
    | .error e => .error e
    | .ok (a, last :: "-a" :: rest) =>
      if rest.isEmpty then .ok (both a never, [last])
      else (readBoth fuel rest).map fun r => (both a r.1, r.2)
    | .ok r => .ok r

def readNegated : Nat → List String → Except ConditionFault (Condition × List String)
  | 0, ws => .ok (never, ws)
  | fuel + 1, ws =>
    match ws with
    | ["!"] => .ok (negated never, ws)
    | "!" :: sign :: rest =>
      if isBinarySign sign ∧ !rest.isEmpty then readSingle fuel ws
      else (readNegated fuel (sign :: rest)).map fun r => (negated r.1, r.2)
    | _ => readSingle fuel ws

def readSingle : Nat → List String → Except ConditionFault (Condition × List String)
  | 0, ws => .ok (never, ws)
  | fuel + 1, ws =>
    match ws with
    | [] => .ok (never, [])
    | a :: sign :: rest =>
      if isBinarySign sign && !(rest.isEmpty && unarySigns.contains a) then
        match rest with
        | [] => .error (.lacksArgument sign)
        | b :: more => .ok (between sign a b, b :: more)
      else if a = "(" then
        if sign = ")" then .ok (never, sign :: rest)
        else
          match readEither fuel (sign :: rest) with
          | .error e => .error e
          | .ok (c, _ :: ")" :: more) => .ok (c, ")" :: more)
          | .ok _ => .error .openBracket
      else if unarySigns.contains a then .ok (after a sign, sign :: rest)
      else .ok (filled a, ws)
    | [a] => .ok (filled a, ws)

end

/-- The condition that words give. Few words have a meaning of their own, which goes first. -/
def ofWords (words : List String) : Except ConditionFault Condition :=
  let whole (ws : List String) : Except ConditionFault Condition :=
    match readEither (4 * ws.length + 8) ws with
    | .error e => .error e
    | .ok (_, last :: _ :: _) => .error (.unexpected last)
    | .ok (c, _) => .ok c
  match words with
  | [] => .ok never
  | [a, sign, b] =>
    if isBinarySign sign then .ok (between sign a b)
    else if a = "(" ∧ b = ")" then .ok (filled sign)
    else if a = "!" then (whole [sign, b]).map negated
    else whole words
  | [a, b, c, d] =>
    if a = "(" ∧ d = ")" then whole [b, c]
    else if a = "!" then
      if isBinarySign c then .ok (negated (between c b d)) else (whole [b, c, d]).map negated
    else whole words
  | _ => whole words

def integer? (s : String) : Option Int :=
  let isBlank (c : Char) : Bool := c == ' ' || ('\t' ≤ c && c ≤ '\r')
  let cs := ((s.toList.dropWhile isBlank).reverse.dropWhile isBlank).reverse
  match cs with
  | '-' :: digits => (decimal? (String.ofList digits)).map fun n => -(n : Int)
  | '+' :: digits => (decimal? (String.ofList digits)).map fun n => (n : Int)
  | _ => (decimal? (String.ofList cs)).map fun n => (n : Int)

def comparedTexts (sign a b : String) : Bool :=
  match sign with
  | "=" => a == b
  | "!=" => a != b
  | "<" => a < b
  | _ => b < a

def comparedNumbers (sign : String) (a b : Int) : Bool :=
  match sign with
  | "-eq" => a == b
  | "-ne" => a != b
  | "-ge" => b ≤ a
  | "-gt" => b < a
  | "-le" => a ≤ b
  | _ => a < b

variable {m : Type → Type} [Monad m] [Storage m]

/-- What a sign says of a file. All can be read and written, and only folders and programs can be entered
or run. -/
def holdsOfFile (letter s : String) : Run m Bool := do
  if ← isFolder s then return ["-e", "-d", "-r", "-w", "-x", "-s", "-O", "-G"].contains letter
  else if (programAt? ((← get).pathOf s)).isSome then
    return ["-e", "-f", "-r", "-w", "-x", "-s", "-O", "-G"].contains letter
  else if s = "/dev/null" then return ["-e", "-c", "-r", "-w", "-O", "-G"].contains letter
  else
    match ← onHost (Storage.read ((← get).pathOf s)) with
    | .ok content =>
      return ["-e", "-f", "-r", "-w", "-O", "-G"].contains letter || (letter == "-s" && content.size != 0)
    | .error _ => return false

/-- Whether a condition holds. All of it is looked at. -/
def holds : Condition → Run m (Except ConditionFault Bool)
  | never => return .ok false
  | filled s => return .ok (!s.isEmpty)
  | blank s => return .ok s.isEmpty
  | texts sign a b => return .ok (comparedTexts sign a b)
  | numbers sign a b =>
    match integer? a, integer? b with
    | none, _ => return .error (.badNumber a)
    | _, none => return .error (.badNumber b)
    | some i, some j => return .ok (comparedNumbers sign i j)
  | file letter s => return .ok (← holdsOfFile letter s)
  | negated c => return (← c.holds).map fun b => !b
  | both a b => do
    match ← a.holds with
    | .error e => return .error e
    | .ok p => return (← b.holds).map fun q => p && q
  | either a b => do
    match ← a.holds with
    | .error e => return .error e
    | .ok p => return (← b.holds).map fun q => p || q

end Condition

end CommandDeck.Shell
