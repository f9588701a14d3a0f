import CommandDeck.Bench.Filter.Translation

/-!
# Patterns

In a pattern a star stands for any text, a question mark for any character, and brackets for one
character of a set. What is quoted stands for itself.
-/

namespace CommandDeck.Shell

/-- A character of a pattern, and whether it is quoted. -/
abbrev Marked := Char × Bool

def isOfClass (c : Char) (name : List Char) : Bool :=
  c.toNat < 128 && (Filter.classOctets (String.ofList name)).contains c.toNat.toUInt8

/-- The name of a class that stands between colons, and how many characters it takes with them. -/
def className? (p : List Marked) : Option (List Char × Nat) :=
  match p with
  | ('[', false) :: (':', false) :: rest =>
    let name := (rest.map (·.1)).takeWhile (· != ':')
    match rest.drop name.length with
    | (':', _) :: (']', false) :: _ => some (name, name.length + 4)
    | _ => none
  | _ => none

/-- A character of a set from what follows its opening bracket, and what follows the closing one. The
number bounds the items of the set. -/
def inBrackets (c : Char) : Nat → Bool → Bool → List Marked → Option (Bool × List Marked)
  | 0, _, _, _ => none
  | _, _, _, [] => none
  | fuel + 1, isFirst, found, (a, quoted) :: rest =>
    match className? ((a, quoted) :: rest), a, quoted, rest with
    | some (name, size), _, _, _ =>
      inBrackets c fuel false (found || isOfClass c name) (rest.drop (size - 1))
    | none, ']', false, rest =>
      if isFirst then inBrackets c fuel false (found || c == ']') rest else some (found, rest)
    | none, low, _, ('-', false) :: (high, quoted) :: rest =>
      if high = ']' ∧ quoted = false then some (found || c == low || c == '-', rest)
      else inBrackets c fuel false (found || (low ≤ c && c ≤ high)) rest
    | none, d, _, rest => inBrackets c fuel false (found || c == d) rest

/-- A character within brackets, which a sign at their beginning turns into the opposite. -/
def oneOf (c : Char) (set : List Marked) : Option (Bool × List Marked) :=
  match set with
  | ('!', false) :: rest => (inBrackets c (rest.length + 1) true false rest).map fun r => (!r.1, r.2)
  | ('^', false) :: rest => (inBrackets c (rest.length + 1) true false rest).map fun r => (!r.1, r.2)
  | _ => inBrackets c (set.length + 1) true false set

/-- The texts that are left of a text without some of its beginning. -/
def suffixes : List Char → List (List Char)
  | [] => [[]]
  | c :: rest => (c :: rest) :: suffixes rest

/-- The pattern matches all of a text. The number bounds the steps. -/
def fits : Nat → List Marked → List Char → Bool
  | 0, _, _ => false
  | _, [], s => s.isEmpty
  | fuel + 1, ('*', false) :: p, s => (suffixes s).any fun t => fits fuel p t
  | fuel + 1, ('?', false) :: p, s =>
    match s with
    | _ :: rest => fits fuel p rest
    | [] => false
  | fuel + 1, ('[', false) :: p, s =>
    match s with
    | [] => false
    | c :: rest =>
      match oneOf c p with
      | some (found, p) => found && fits fuel p rest
      | none => c == '[' && fits fuel p rest
  | fuel + 1, ('\\', false) :: (d, _) :: p, s =>
    match s with
    | c :: rest => c == d && fits fuel p rest
    | [] => false
  | fuel + 1, (d, _) :: p, s =>
    match s with
    | c :: rest => c == d && fits fuel p rest
    | [] => false

def matchesAll (p : List Marked) (s : List Char) : Bool := fits (p.length + s.length + 1) p s

/-- What is left of a text without the beginning that a pattern matches, the longest or the shortest one. -/
def withoutStart (longest : Bool) (p : List Marked) (s : List Char) : List Char :=
  let lengths := List.range (s.length + 1)
  match (if longest then lengths.reverse else lengths).find? fun n => matchesAll p (s.take n) with
  | some n => s.drop n
  | none => s

/-- What is left of a text without the end that a pattern matches, the longest or the shortest one. -/
def withoutEnd (longest : Bool) (p : List Marked) (s : List Char) : List Char :=
  let lengths := List.range (s.length + 1)
  match (if longest then lengths else lengths.reverse).find? fun n => matchesAll p (s.drop n) with
  | some n => s.take n
  | none => s

end CommandDeck.Shell
