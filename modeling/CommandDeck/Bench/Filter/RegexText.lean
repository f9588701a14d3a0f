import CommandDeck.Bench.Filter.Regex

/-!
# The text of a regular expression

Expressions are written in the basic or in the extended form. In the basic form the signs for groups,
alternatives and counts have a backslash, and a star at the beginning stands for itself. A text is read
octet by octet, each one as the character of its code.
-/

namespace CommandDeck.Filter

def codesOf (octets : Octets) : List Char := octets.map fun b => Char.ofNat b.toNat

def octetOf (c : Char) : UInt8 := c.toNat.toUInt8

/-- What is wrong with the text of an expression. -/
inductive RegexFault where
  | unknownClass
  | unknownSymbol
  | loneBackslash
  | noSuchGroup
  | openBracket
  | openGroup
  | openCount
  | badCount
  | badSpan
  | tooBig
  | nothingToRepeat
  | closedGroup
  deriving DecidableEq

def RegexFault.message : RegexFault → String
  | unknownClass => "Invalid character class name"
  | unknownSymbol => "Invalid collation character"
  | loneBackslash => "Trailing backslash"
  | noSuchGroup => "Invalid back reference"
  | openBracket => "Unmatched [, [^, [:, [., or [="
  | openGroup => "Unmatched ( or \\("
  | openCount => "Unmatched \\\x7b"
  | badCount => "Invalid content of \\\x7b\\\x7d"
  | badSpan => "Invalid range end"
  | tooBig => "Regular expression too big"
  | nothingToRepeat => "Invalid preceding regular expression"
  | closedGroup => "Unmatched ) or \\)"

/-- The number of the next group, the groups that have been closed, and what is left of the text. -/
structure RegexProgress where
  next : Nat
  closed : List Nat
  rest : List Char

/-- Where in a branch a piece is: at its beginning, after a place, or after something that can be
repeated. -/
inductive BranchPosition where
  | atStart
  | afterPlace
  | inside
  deriving DecidableEq

namespace RegexText

/-- A named part of a set, whose text goes up to the mark before a bracket. -/
def takeName (mark : Char) : List Char → Except RegexFault (List Char × List Char)
  | [] => .error .openBracket
  | c :: ']' :: rest =>
    if c = mark then .ok ([], rest)
    else (takeName mark (']' :: rest)).map fun r => (c :: r.1, r.2)
  | c :: rest => (takeName mark rest).map fun r => (c :: r.1, r.2)

/-- One octet of a set, which can be written between dots or equal signs. -/
def takeMember : List Char → Except RegexFault (UInt8 × List Char)
  | [] => .error .openBracket
  | '[' :: '.' :: rest => symbol '.' rest
  | '[' :: '=' :: rest => symbol '=' rest
  | c :: rest => .ok (octetOf c, rest)
where
  symbol (mark : Char) (s : List Char) : Except RegexFault (UInt8 × List Char) :=
    match takeName mark s with
    | .error e => .error e
    | .ok ([c], rest) => .ok (octetOf c, rest)
    | .ok _ => .error .unknownSymbol

def classNames : List String := [
  "lower", "upper", "alpha", "digit", "alnum", "space", "blank", "punct", "cntrl", "print", "graph",
  "xdigit"]

/-- The octets of a set from what follows its opening bracket, and what follows the closing one. The
number bounds the members. -/
def takeSet : Nat → Bool → List Char → Except RegexFault (Octets × List Char)
  | 0, _, _ => .error .openBracket
  | _, _, [] => .error .openBracket
  | fuel + 1, isFirst, c :: rest =>
    let put (octets : Octets) (rest : List Char) : Except RegexFault (Octets × List Char) :=
      (takeSet fuel false rest).map fun r => (octets ++ r.1, r.2)
    if c = ']' ∧ isFirst = false then .ok ([], rest)
    else
      match c, rest with
      | '[', ':' :: more =>
        match takeName ':' more with
        | .error e => .error e
        | .ok (name, after) =>
          let name := String.ofList name
          if classNames.contains name then put (classOctets name) after else .error .unknownClass
      | _, _ =>
        match takeMember (c :: rest) with
        | .error e => .error e
        | .ok (first, '-' :: ']' :: more) => put [first] ('-' :: ']' :: more)
        | .ok (first, '-' :: more) =>
          match takeMember more with
          | .error e => .error e
          | .ok (last, after) => if last < first then .error .badSpan else put (span first last) after
        | .ok (first, after) => put [first] after

/-- How the text of a count ends. -/
inductive CountEnd where
  | comma
  | brace
  | missing

/-- The text of a count, how it ends, and what follows. -/
def takeCount (extended : Bool) : List Char → List Char × CountEnd × List Char
  | [] => ([], .missing, [])
  | ',' :: rest => ([], .comma, rest)
  | '\x7d' :: rest =>
    if extended then ([], .brace, rest)
    else
      let (text, ending, rest) := takeCount extended rest
      ('\x7d' :: text, ending, rest)
  | '\\' :: '\x7d' :: rest =>
    if extended then ([], .missing, rest) else ([], .brace, rest)
  | c :: rest =>
    let (text, ending, rest) := takeCount extended rest
    (c :: text, ending, rest)

def numberOf? (digits : List Char) : Option Nat :=
  if digits.all Text.isDigit then some (digits.foldl (fun n c => n * 10 + Text.digitValue c) 0)
  else none

def largestCount : Nat := 32767

/-- The counts of a repetition from what follows the opening brace, and what follows the closing one. -/
def takeCounts (extended : Bool) (s : List Char) : Except RegexFault (Nat × Option Nat × List Char) :=
  let within (least : Nat) (most? : Option Nat) (rest : List Char) :
      Except RegexFault (Nat × Option Nat × List Char) :=
    if most?.any (· < least) then .error .badCount
    else if largestCount < most?.getD least then .error .tooBig
    else .ok (least, most?, rest)
  match takeCount extended s with
  | (_, .missing, _) => .error .openCount
  | ([], .brace, _) => .error .badCount
  | (text, .brace, rest) =>
    match numberOf? text with
    | some n => within n (some n) rest
    | none => .error .badCount
  | (text, .comma, rest) =>
    match numberOf? text, takeCount extended rest with
    | none, _ => .error .badCount
    | some _, (_, .missing, _) => .error .openCount
    | some _, (_, .comma, _) => .error .badCount
    | some least, ([], .brace, rest) => within least none rest
    | some least, (most, .brace, rest) =>
      match numberOf? most with
      | some most => within least (some most) rest
      | none => .error .badCount

/-- What repeats a piece, from the text after it, and what follows. -/
def takeRepetition? (extended : Bool) :
    List Char → Option (Except RegexFault (Nat × Option Nat × List Char))
  | '*' :: rest => some (.ok (0, none, rest))
  | '+' :: rest => if extended then some (.ok (1, none, rest)) else none
  | '?' :: rest => if extended then some (.ok (0, some 1, rest)) else none
  | '\x7b' :: rest => if extended then some (takeCounts true rest) else none
  | '\\' :: '+' :: rest => if extended then none else some (.ok (1, none, rest))
  | '\\' :: '?' :: rest => if extended then none else some (.ok (0, some 1, rest))
  | '\\' :: '\x7b' :: rest => if extended then none else some (takeCounts false rest)
  | _ => none

/-- In the basic form a star or a count cannot follow another repetition. -/
def repeatsAgain : List Char → Bool
  | '*' :: _ => true
  | '\\' :: '\x7b' :: _ => true
  | _ => false

/-- A piece with all that repeats it. The number bounds the repetitions. -/
def repeated (extended : Bool) : Nat → Regex → List Char → Except RegexFault (Regex × List Char)
  | 0, r, s => .ok (r, s)
  | fuel + 1, r, s =>
    match takeRepetition? extended s with
    | none => .ok (r, s)
    | some (.error e) => .error e
    | some (.ok (least, most?, rest)) =>
      if !extended && repeatsAgain rest then .error .nothingToRepeat
      else repeated extended fuel (.repetition r least most?) rest

def endsBranch (extended : Bool) : List Char → Bool
  | [] => true
  | '|' :: _ => extended
  | ')' :: _ => extended
  | '\\' :: '|' :: _ => !extended
  | '\\' :: ')' :: _ => !extended
  | _ => false

def closeGroup? (extended : Bool) : List Char → Option (List Char)
  | ')' :: rest => if extended then some rest else none
  | '\\' :: ')' :: rest => if extended then none else some rest
  | _ => none

def letterClass? (c : Char) : Option Regex :=
  if c = 'w' then some (.set wordOctets)
  else if c = 'W' then some (.other wordOctets)
  else if c = 's' then some (.set (classOctets "space"))
  else if c = 'S' then some (.other (classOctets "space"))
  else if c = 'b' then some (.place .wordEdge)
  else if c = 'B' then some (.place .noWordEdge)
  else if c = '<' then some (.place .wordStart)
  else if c = '>' then some (.place .wordEnd)
  else if c = '\x60' then some (.place .textStart)
  else if c = '\'' then some (.place .textEnd)
  else none

mutual

def alternatives (extended : Bool) : Nat → RegexProgress → Except RegexFault (Regex × RegexProgress)
  | 0, _ => .error .tooBig
  | fuel + 1, p =>
    match branch extended fuel .nothing .atStart p with
    | .error e => .error e
    | .ok (first, p) =>
      let others (rest : List Char) : Except RegexFault (Regex × RegexProgress) :=
        (alternatives extended fuel { p with rest := rest }).map fun r => (.either first r.1, r.2)
      match p.rest with
      | '|' :: rest => if extended then others rest else .ok (first, p)
      | '\\' :: '|' :: rest => if extended then .ok (first, p) else others rest
      | _ => .ok (first, p)

/-- Pieces one after the other, after those that have been read. -/
def branch (extended : Bool) : Nat → Regex → BranchPosition → RegexProgress →
    Except RegexFault (Regex × RegexProgress)
  | 0, _, _, _ => .error .tooBig
  | fuel + 1, done, position, p =>
    if endsBranch extended p.rest then .ok (done, p)
    else
      match piece extended fuel position p with
      | .error e => .error e
      | .ok (.place there, q) => branch extended fuel (.sequence done (.place there)) .afterPlace q
      | .ok (r, q) =>
        match repeated extended q.rest.length r q.rest with
        | .error e => .error e
        | .ok (r, rest) => branch extended fuel (.sequence done r) .inside { q with rest := rest }

/-- One piece without what repeats it. In the basic form a sign of repetition with nothing before it
stands for itself, and so do the signs for the ends of a line away from the ends. -/
def piece (extended : Bool) : Nat → BranchPosition → RegexProgress →
    Except RegexFault (Regex × RegexProgress)
  | 0, _, _ => .error .tooBig
  | fuel + 1, position, p =>
    let group (rest : List Char) : Except RegexFault (Regex × RegexProgress) :=
      let number := p.next
      match alternatives extended fuel ⟨number + 1, p.closed, rest⟩ with
      | .error e => .error e
      | .ok (r, q) =>
        match closeGroup? extended q.rest with
        | some rest => .ok (.group number r, ⟨q.next, number :: q.closed, rest⟩)
        | none => .error .openGroup
    let one (r : Regex) (rest : List Char) : Except RegexFault (Regex × RegexProgress) :=
      .ok (r, { p with rest := rest })
    let set (make : Octets → Regex) (s : List Char) : Except RegexFault (Regex × RegexProgress) :=
      (takeSet (s.length + 1) true s).map fun r => (make r.1, { p with rest := r.2 })
    match p.rest with
    | [] => .ok (.nothing, p)
    | ['\\'] => .error .loneBackslash
    | '\\' :: c :: rest =>
      if c = '(' ∧ extended = false then group rest
      else if c = '\x7b' ∧ extended = false then .error .nothingToRepeat
      else if '1' ≤ c ∧ c ≤ '9' then
        if p.closed.contains (Text.digitValue c) then one (.again (Text.digitValue c)) rest
        else .error .noSuchGroup
      else one ((letterClass? c).getD (.octet (octetOf c))) rest
    | '[' :: '^' :: rest => set .other rest
    | '[' :: rest => set .set rest
    | c :: rest =>
      if c = '.' then one .any rest
      else if c = '(' ∧ extended then group rest
      else if extended ∧ (c = '*' ∨ c = '+' ∨ c = '?' ∨ c = '\x7b') then .error .nothingToRepeat
      else if c = '^' ∧ (extended ∨ position = .atStart) then one (.place .lineStart) rest
      else if c = '$' ∧ (extended ∨ endsBranch extended rest) then one (.place .lineEnd) rest
      else one (.octet (octetOf c)) rest

end

end RegexText

def Regex.ofText (extended : Bool) (s : List Char) : Except RegexFault Regex :=
  match RegexText.alternatives extended (4 * s.length + 10) ⟨1, [], s⟩ with
  | .error e => .error e
  | .ok (r, ⟨_, _, []⟩) => .ok r
  | .ok _ => .error .closedGroup

end CommandDeck.Filter
