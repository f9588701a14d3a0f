import CommandDeck.Number.Layout
import CommandDeck.Text.Blank
import CommandDeck.Text.Digit
import CommandDeck.Text.Lines
import CommandDeck.Text.Utf8

/-!
# Choosing lines

Filters that work on the lines of an input: they choose, order or count them. A line keeps its line
break as long as it is not looked at.
-/

namespace CommandDeck.Filter

abbrev Octets := List UInt8

def octetsOf (s : String) : Octets := (Text.encode s).toList

/-- The lines of an input, each with its line break. -/
def linesOf (bytes : Octets) : List Octets := Text.pieces 10 bytes

def bodyOf (line : Octets) : Octets := line.takeWhile (· != 10)

def ended (body : Octets) : Octets := body ++ [10]

def natOctets (n : Nat) : Octets := (NumberLayout.digits n).map fun c => c.toNat.toUInt8

def inColumn (width n : Nat) : Octets :=
  let digits := natOctets n
  List.replicate (width - digits.length) 32 ++ digits

def isBlankOctet (b : UInt8) : Bool := b == 32 || (9 ≤ b && b ≤ 13)

/-- Which part of an input is meant: from its beginning on, or up to its end. -/
inductive Extent where
  | first (count : Nat)
  | allButLast (count : Nat)
  | last (count : Nat)
  /-- From the part with this number on, counted from one. -/
  | onward (number : Nat)
  deriving DecidableEq

def Extent.cut {α : Type} (e : Extent) (items : List α) : List α :=
  match e with
  | first n => items.take n
  | allButLast n => items.take (items.length - n)
  | last n => items.drop (items.length - n)
  | onward n => items.drop (n - 1)

def wordCount : Bool → Octets → Nat
  | _, [] => 0
  | inWord, b :: rest =>
    if isBlankOctet b then wordCount false rest
    else (if inWord then 0 else 1) + wordCount true rest

/-- The number of characters, which are begun by every octet that does not continue one. -/
def characterCount (bytes : Octets) : Nat := (bytes.filter fun b => b < 0x80 || 0xC0 ≤ b).length

def longestLine (bytes : Octets) : Nat :=
  (linesOf bytes).foldl (fun n line => max n (bodyOf line).length) 0

/-- The lines in the order of their octets, each with a line break. -/
def sorted (reversed numeric unique : Bool) (bytes : Octets) : Octets :=
  let number (line : Octets) : Int :=
    let body := line.dropWhile isBlankOctet
    let digits (s : Octets) : Int :=
      (s.takeWhile fun b => 48 ≤ b && b ≤ 57).foldl (fun n b => n * 10 + (b.toNat - 48)) 0
    match body with
    | 45 :: rest => -(digits rest)
    | _ => digits body
  let textLe (a b : Octets) : Bool := !(b < a)
  let le (a b : Octets) : Bool :=
    if numeric then number a < number b || (number a == number b && (unique || textLe a b))
    else textLe a b
  let same (a b : Octets) : Bool := if numeric then number a == number b else a == b
  let lines := ((linesOf bytes).map bodyOf).mergeSort fun a b => if reversed then le b a else le a b
  let kept := if unique then (lines.foldl (fun done line =>
      match done with
      | last :: _ => if same last line then done else line :: done
      | [] => [line]) []).reverse
    else lines
  (kept.map ended).flatten

def runs : List Octets → List (Octets × Nat)
  | [] => []
  | line :: rest =>
    match runs rest with
    | (next, n) :: more => if line = next then (next, n + 1) :: more else (line, 1) :: (next, n) :: more
    | [] => [(line, 1)]

/-- One line for every run of equal lines, with the length of the run if wanted. -/
def withoutRepeats (counted onlyRepeated onlySingle : Bool) (bytes : Octets) : Octets :=
  let chosen := (runs ((linesOf bytes).map bodyOf)).filter fun r =>
    (!onlyRepeated || 1 < r.2) && (!onlySingle || r.2 = 1)
  chosen.flatMap fun r => ended ((if counted then inColumn 7 r.2 ++ [32] else []) ++ r.1)

def backwards (bytes : Octets) : Octets := (linesOf bytes).reverse.flatten

def mirrored (bytes : Octets) : Octets :=
  (linesOf bytes).flatMap fun line =>
    (bodyOf line).reverse ++ (if line.getLast? = some 10 then [10] else [])

def numbered (bytes : Octets) : Octets :=
  ((linesOf bytes).zipIdx 1).flatMap fun p => inColumn 6 p.2 ++ [9] ++ p.1

def inRanges (ranges : List (Nat × Option Nat)) (n : Nat) : Bool :=
  ranges.any fun r => r.1 ≤ n && r.2.all fun last => n ≤ last

/-- The ranges that a list of numbers and pairs of numbers means. -/
def ranges? (s : String) : Option (List (Nat × Option Nat)) :=
  let number? (cs : List Char) : Option Nat :=
    if cs.isEmpty || !cs.all Text.isDigit then none
    else some (cs.foldl (fun n c => n * 10 + Text.digitValue c) 0)
  (Text.splitAt ',' s.toList).mapM fun part =>
    match Text.splitAt '-' part with
    | [one] => (number? one).map fun n => (n, some n)
    | [first, last] =>
      match first.isEmpty, last.isEmpty with
      | true, true => none
      | true, false => (number? last).map fun n => (1, some n)
      | false, true => (number? first).map fun n => (n, none)
      | false, false =>
        match number? first, number? last with
        | some a, some b => some (a, some b)
        | _, _ => none
    | _ => none

def columns (ranges : List (Nat × Option Nat)) (bytes : Octets) : Octets :=
  (linesOf bytes).flatMap fun line =>
    ended (((bodyOf line).zipIdx 1).filterMap fun p => if inRanges ranges p.2 then some p.1 else none)

def fieldsOf (delimiter : UInt8) : Octets → List Octets
  | [] => [[]]
  | b :: rest =>
    if b = delimiter then [] :: fieldsOf delimiter rest
    else match fieldsOf delimiter rest with
      | [] => [[b]]
      | field :: more => (b :: field) :: more

/-- The fields of every line whose numbers are within the ranges. A line without the delimiter stays as
it is, unless such lines are left out. -/
def fields (delimiter : UInt8) (onlyDelimited : Bool) (ranges : List (Nat × Option Nat))
    (bytes : Octets) : Octets :=
  (linesOf bytes).flatMap fun line =>
    let body := bodyOf line
    if !body.contains delimiter then if onlyDelimited then [] else ended body
    else
      let chosen := ((fieldsOf delimiter body).zipIdx 1).filterMap fun p =>
        if inRanges ranges p.2 then some p.1 else none
      ended ([delimiter].intercalate chosen)

end CommandDeck.Filter
