import CommandDeck.Bench.Filter.Translation

/-!
# Regular expressions

Expressions over octets and what they match. The match of an expression is the leftmost one and of those
at its place a longest one.
-/

namespace CommandDeck.Filter

/-- A place between two octets, at the beginning of a text or at its end. -/
inductive Place where
  | lineStart
  | lineEnd
  | textStart
  | textEnd
  | wordStart
  | wordEnd
  | wordEdge
  | noWordEdge
  deriving DecidableEq

inductive Regex where
  | nothing
  | octet (b : UInt8)
  | any
  | set (octets : Octets)
  /-- One octet that is not in the set. -/
  | other (octets : Octets)
  | place (p : Place)
  | group (number : Nat) (r : Regex)
  | sequence (first second : Regex)
  | either (first second : Regex)
  /-- At least `least` times and at most `most?` times. -/
  | repetition (r : Regex) (least : Nat) (most? : Option Nat)
  /-- What the group with this number has matched, once more. -/
  | again (number : Nat)

/-- How an expression is searched for: whether capital letters count as small ones, and, where a text is
more than one line, the octet that ends a line. -/
structure SearchMode where
  ignoreCase : Bool
  lineEnd? : Option UInt8

/-- What has been matched: the octets before, the last one first, those that follow, and the texts of the
groups. -/
structure MatchState where
  before : Octets
  rest : Octets
  groups : List (Nat × Octets)

def wordOctets : Octets := classOctets "alnum" ++ [95]

def Place.isHere (mode : SearchMode) (s : MatchState) : Place → Bool
  | lineStart => s.before.isEmpty || (mode.lineEnd?.isSome && s.before.head? == mode.lineEnd?)
  | lineEnd => s.rest.isEmpty || (mode.lineEnd?.isSome && s.rest.head? == mode.lineEnd?)
  | textStart => s.before.isEmpty
  | textEnd => s.rest.isEmpty
  | wordStart => !s.before.head?.any wordOctets.contains && s.rest.head?.any wordOctets.contains
  | wordEnd => s.before.head?.any wordOctets.contains && !s.rest.head?.any wordOctets.contains
  | wordEdge => s.before.head?.any wordOctets.contains != s.rest.head?.any wordOctets.contains
  | noWordEdge => s.before.head?.any wordOctets.contains == s.rest.head?.any wordOctets.contains

namespace Regex

/-- Matches an expression and then what comes after it. The number bounds the depth. -/
def run (mode : SearchMode) : Nat → Regex → MatchState → (MatchState → Option MatchState) →
    Option MatchState
  | 0, _, _, _ => none
  | fuel + 1, r, s, next =>
    let lower (b : UInt8) : UInt8 := if mode.ignoreCase && 65 ≤ b && b ≤ 90 then b + 32 else b
    let isAmong (octets : Octets) (c : UInt8) : Bool :=
      octets.contains c || (mode.ignoreCase && octets.any fun b => lower b == lower c)
    let one (p : UInt8 → Bool) : Option MatchState :=
      match s.rest with
      | b :: rest => if p b then next ⟨b :: s.before, rest, s.groups⟩ else none
      | [] => none
    match r with
    | .nothing => next s
    | .octet b => one fun c => lower b == lower c
    | .any => one fun c => mode.lineEnd? != some c
    | .set octets => one (isAmong octets)
    | .other octets => one fun c => !isAmong octets c && mode.lineEnd? != some c
    | .place p => if p.isHere mode s then next s else none
    | .group n r =>
      run mode fuel r s fun t =>
        let length := s.rest.length - t.rest.length
        next { t with groups := (n, s.rest.take length) :: t.groups }
    | .sequence a b => run mode fuel a s fun t => run mode fuel b t next
    | .either a b => (run mode fuel a s next).orElse fun _ => run mode fuel b s next
    | .repetition r least most? =>
      let more : Option MatchState :=
        if most? = some 0 then none
        else run mode fuel r s fun t =>
          if t.rest.length = s.rest.length ∧ least = 0 then none
          else run mode fuel (.repetition r (least - 1) (most?.map (· - 1))) t next
      if 0 < least then more else more.orElse fun _ => next s
    | .again n =>
      let text := ((s.groups.find? fun g => g.1 == n).map (·.2)).getD []
      if (s.rest.take text.length).map lower = text.map lower then
        next ⟨(s.rest.take text.length).reverse ++ s.before, s.rest.drop text.length, s.groups⟩
      else none

def isSingle : Regex → Bool
  | .octet _ => true
  | .any => true
  | .set _ => true
  | .other _ => true
  | _ => false

/-- The first match is also the longest one: nothing is left to choice but how often an octet is
repeated. -/
def isSteady : Regex → Bool
  | .either _ _ => false
  | .repetition r _ _ => r.isSingle
  | .sequence a b => a.isSteady && b.isSteady
  | .group _ r => r.isSteady
  | _ => true

/-- The match at the place at hand: the matched text and the state after it. -/
def matchHere (r : Regex) (mode : SearchMode) (before rest : Octets) : Option (Octets × MatchState) :=
  let attempt (isWanted : MatchState → Bool) : Option MatchState :=
    run mode (40 * rest.length + 200) r ⟨before, rest, []⟩ fun t =>
      if isWanted t then some t else none
  (attempt fun _ => true).map fun t =>
    let longer? : Option MatchState :=
      if r.isSteady then none
      else (List.range t.rest.length).findSome? fun n => attempt fun u => u.rest.length == n
    let t := longer?.getD t
    (rest.take (rest.length - t.rest.length), t)

/-- The first match from the place at hand on: the text before it that is passed over, the matched text
and the state after it. -/
def search (r : Regex) (mode : SearchMode) (before : Octets) :
    Octets → Option (Octets × Octets × MatchState)
  | [] => (r.matchHere mode before []).map fun t => ([], t)
  | b :: rest =>
    match r.matchHere mode before (b :: rest) with
    | some t => some ([], t)
    | none => (search r mode (b :: before) rest).map fun f => (b :: f.1, f.2)

def isFound (r : Regex) (mode : SearchMode) (line : Octets) : Bool :=
  (r.search mode [] line).isSome

def groupCount : Regex → Nat
  | .group _ r => r.groupCount + 1
  | .sequence a b => a.groupCount + b.groupCount
  | .either a b => a.groupCount + b.groupCount
  | .repetition r _ _ => r.groupCount
  | _ => 0

def ofOctets : Octets → Regex
  | [] => .nothing
  | [b] => .octet b
  | b :: rest => .sequence (.octet b) (ofOctets rest)

end Regex

end CommandDeck.Filter
