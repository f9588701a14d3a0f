import CommandDeck.Bench.Filter.Lines

/-!
# Translating octets

Sets of octets are written as texts, in which a dash between two octets stands for those between them,
a name between colons and brackets for a class, and a backslash with a letter or octal digits for one
octet. The octets of one set are replaced by those of another, taken away, or kept once of every run.
-/

namespace CommandDeck.Filter

def escapedOctet? (c : Char) : Option UInt8 :=
  if c = 'n' then some 10
  else if c = 't' then some 9
  else if c = 'r' then some 13
  else if c = 'a' then some 7
  else if c = 'b' then some 8
  else if c = 'f' then some 12
  else if c = 'v' then some 11
  else if c = '\\' then some 92
  else none

def isOctal (c : Char) : Bool := '0' ≤ c && c ≤ '7'

/-- The octet of one to three octal digits, and what follows them. -/
def octal (cs : List Char) : UInt8 × List Char :=
  let digits := (cs.take 3).takeWhile isOctal
  ((digits.foldl (fun n c => n * 8 + Text.digitValue c) 0).toUInt8, cs.drop digits.length)

def span (first last : UInt8) : Octets :=
  (List.range (last.toNat + 1 - first.toNat)).map fun i => (first.toNat + i).toUInt8

def classOctets (name : String) : Octets :=
  let lower := span 97 122
  let upper := span 65 90
  let digits := span 48 57
  let punctuation := span 33 47 ++ span 58 64 ++ span 91 96 ++ span 123 126
  match name with
  | "lower" => lower
  | "upper" => upper
  | "alpha" => upper ++ lower
  | "digit" => digits
  | "alnum" => digits ++ upper ++ lower
  | "space" => span 9 13 ++ [32]
  | "blank" => [9, 32]
  | "punct" => punctuation
  | "cntrl" => span 0 31 ++ [127]
  | "print" => span 32 126
  | "graph" => span 33 126
  | "xdigit" => digits ++ span 65 70 ++ span 97 102
  | _ => []

/-- A set as it is written, with escapes read. The number bounds the length. -/
def readOctets : Nat → List Char → Octets
  | 0, _ => []
  | _, [] => []
  | fuel + 1, '[' :: ':' :: rest =>
    let name := rest.takeWhile (· != ':')
    match rest.drop name.length with
    | ':' :: ']' :: more => classOctets (String.ofList name) ++ readOctets fuel more
    | _ => 91 :: readOctets fuel (':' :: rest)
  | fuel + 1, c :: rest =>
    let (octets, rest) : Octets × List Char :=
      match c, rest with
      | '\\', d :: more =>
        if isOctal d then
          let (b, more) := octal (d :: more)
          ([b], more)
        else (((escapedOctet? d).map fun b => [b]).getD (octetsOf (String.singleton d)), more)
      | _, _ => (octetsOf (String.singleton c), rest)
    match octets, rest with
    | [first], '-' :: last :: more =>
      if last = '\\' then octets ++ readOctets fuel rest
      else
        match octetsOf (String.singleton last) with
        | [last] => span first last ++ readOctets fuel more
        | _ => octets ++ readOctets fuel rest
    | _, _ => octets ++ readOctets fuel rest

def octetSet (s : String) : Octets := readOctets (s.length + 1) s.toList

/-- All octets but those of a set. -/
def complement (set : Octets) : Octets := (span 0 255).filter fun b => !set.contains b

/-- Replaces the octets of a set by those at the same places of another, which goes on with its last
octet. Where an octet is in the set twice, its last place counts. -/
def translated (set onto : Octets) (bytes : Octets) : Octets :=
  let pairs := (set.zipIdx.map fun p => (p.1, (onto[p.2]?).getD (onto.getLast?.getD p.1))).reverse
  bytes.map fun b => (pairs.lookup b).getD b

def removed (set : Octets) (bytes : Octets) : Octets := bytes.filter fun b => !set.contains b

/-- Of every run of one octet of the set, the first one. -/
def squeezed (set : Octets) : Option UInt8 → Octets → Octets
  | _, [] => []
  | last?, b :: rest =>
    if last? = some b ∧ set.contains b then squeezed set last? rest
    else b :: squeezed set (some b) rest

end CommandDeck.Filter
