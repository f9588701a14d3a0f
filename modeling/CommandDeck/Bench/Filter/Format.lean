import CommandDeck.Bench.Filter.Translation

/-!
# Writing arguments in a format

A format is a text with marks after backslashes and with conversions after percent signs, each of which
writes an argument. It is used again until the arguments are used up.
-/

namespace CommandDeck.Filter

def markedOctet? (c : Char) : Option UInt8 := if c = 'e' then some 27 else escapedOctet? c

/-- A count in a conversion: none, a number, or the next argument. -/
inductive Count where
  | none
  | number (n : Nat)
  | argument
  deriving DecidableEq

structure Conversion where
  left : Bool
  zeros : Bool
  plus : Bool
  blank : Bool
  marked : Bool
  width : Count
  precision : Count
  letter : Char
  deriving DecidableEq

inductive FormatItem where
  | octets (s : Octets)
  | convert (c : Conversion)
  /-- A percent sign without a letter. -/
  | incomplete
  /-- Nothing is written after this. -/
  | stop

/-- What is wrong with an argument or a conversion. -/
inductive FormatFault where
  | notNumeric (argument : String)
  | notWhollyNumeric (argument : String)
  | badDirective (directive : String)
  deriving DecidableEq

/-- What has been written, the arguments that are left, the faults, and whether to stop. -/
structure Written where
  octets : Octets
  arguments : List String
  faults : List FormatFault
  stopped : Bool

def takeCount : List Char → Count × List Char
  | '*' :: rest => (.argument, rest)
  | s =>
    let digits := s.takeWhile Text.isDigit
    if digits.isEmpty then (.none, s)
    else (.number (digits.foldl (fun n c => n * 10 + Text.digitValue c) 0), s.drop digits.length)

def takeConversion (s : List Char) : Option (Conversion × List Char) :=
  let flags := s.takeWhile fun c => c == '-' || c == '0' || c == '+' || c == ' ' || c == '#'
  let (width, rest) := takeCount (s.drop flags.length)
  let (precision, rest) : Count × List Char := match rest with
    | '.' :: more =>
      let (count, more) := takeCount more
      (if count = .none then .number 0 else count, more)
    | _ => (.none, rest)
  match rest with
  | c :: more =>
    some (⟨flags.contains '-', flags.contains '0', flags.contains '+', flags.contains ' ',
      flags.contains '#', width, precision, c⟩, more)
  | [] => none

/-- The items of a format. The number bounds the length. -/
def formatItems : Nat → List Char → List FormatItem
  | 0, _ => []
  | _, [] => []
  | fuel + 1, '\\' :: c :: rest =>
    if isOctal c then
      let (b, rest) := octal (c :: rest)
      .octets [b] :: formatItems fuel rest
    else if c = 'c' then [.stop]
    else
      match markedOctet? c with
      | some b => .octets [b] :: formatItems fuel rest
      | none => .octets (92 :: octetsOf (String.singleton c)) :: formatItems fuel rest
  | fuel + 1, '%' :: '%' :: rest => .octets [37] :: formatItems fuel rest
  | fuel + 1, '%' :: rest =>
    match takeConversion rest with
    | some (c, rest) => .convert c :: formatItems fuel rest
    | none => [.incomplete]
  | fuel + 1, c :: rest => .octets (octetsOf (String.singleton c)) :: formatItems fuel rest

/-- The octets of a text with marks after backslashes: letters, octal digits of which a zero at the
beginning does not count, and `c`, which ends the text. Answers whether it has come. The number bounds
the length. -/
def unescaped : Nat → List Char → Octets × Bool
  | 0, _ => ([], false)
  | _, [] => ([], false)
  | fuel + 1, '\\' :: c :: rest =>
    if c = 'c' then ([], true)
    else
      let (octets, rest) : Octets × List Char :=
        if isOctal c then
          let (b, rest) := octal (if c = '0' then rest else c :: rest)
          ([b], rest)
        else
          match markedOctet? c with
          | some b => ([b], rest)
          | none => (92 :: octetsOf (String.singleton c), rest)
      let (more, stopped) := unescaped fuel rest
      (octets ++ more, stopped)
  | fuel + 1, c :: rest =>
    let (more, stopped) := unescaped fuel rest
    (octetsOf (String.singleton c) ++ more, stopped)

def unescape (s : String) : Octets × Bool := unescaped s.length s.toList

/-- The integer that the beginning of a text means, in base eight or sixteen where it begins so, and
what follows it. -/
def takeInteger (s : List Char) : Option Int × List Char :=
  let s := s.dropWhile fun c => c == ' ' || c == '\t' || c == '\n'
  let (negative, body) : Bool × List Char := match s with
    | '-' :: rest => (true, rest)
    | '+' :: rest => (false, rest)
    | _ => (false, s)
  let value (base : Nat) (digits : List Char) : Int :=
    let n := digits.foldl (fun n c => n * base + (Text.hexValue? c).getD 0) 0
    if negative then -(n : Int) else n
  let hex (rest : List Char) : Option Int × List Char :=
    let digits := rest.takeWhile fun c => (Text.hexValue? c).isSome
    if digits.isEmpty then (some 0, 'x' :: rest) else (some (value 16 digits), rest.drop digits.length)
  match body with
  | '0' :: 'x' :: rest => hex rest
  | '0' :: 'X' :: rest => hex rest
  | '0' :: rest =>
    let digits := rest.takeWhile isOctal
    (some (value 8 digits), rest.drop digits.length)
  | _ =>
    let digits := body.takeWhile Text.isDigit
    if digits.isEmpty then (none, s) else (some (value 10 digits), body.drop digits.length)

/-- The integer that an argument means, and what is wrong with it. After a quote the first character
counts. -/
def integerOf (argument : String) : Int × List FormatFault :=
  match argument.toList with
  | '"' :: c :: _ => (c.toNat, [])
  | '\'' :: c :: _ => (c.toNat, [])
  | [] => (0, [])
  | cs =>
    match takeInteger cs with
    | (some i, []) => (i, [])
    | (some i, _) => (i, [.notWhollyNumeric argument])
    | (none, _) => (0, [.notNumeric argument])

def padded (left : Bool) (width : Nat) (s : Octets) : Octets :=
  let fill := List.replicate (width - s.length) 32
  if left then s ++ fill else fill ++ s

def digitsIn (base : Nat) (capitals : Bool) (n : Nat) : Octets :=
  (Nat.toDigits base n).map fun c => (if capitals then c.toUpper else c).toNat.toUInt8

def writeInteger (c : Conversion) (width : Nat) (left : Bool) (precision? : Option Nat) (i : Int) :
    Octets :=
  let signed : Bool := c.letter == 'd' || c.letter == 'i'
  let magnitude : Nat := if signed then i.natAbs else (i % 18446744073709551616).toNat
  let digits : Octets :=
    if c.letter = 'o' then digitsIn 8 false magnitude
    else if c.letter = 'x' then digitsIn 16 false magnitude
    else if c.letter = 'X' then digitsIn 16 true magnitude
    else digitsIn 10 false magnitude
  let digits := if precision? = some 0 ∧ magnitude = 0 then [] else digits
  let digits := List.replicate (precision?.getD 0 - digits.length) 48 ++ digits
  let sign : Octets :=
    if signed then if i < 0 then [45] else if c.plus then [43] else if c.blank then [32] else []
    else if c.marked ∧ magnitude ≠ 0 then
      if c.letter = 'x' then [48, 120] else if c.letter = 'X' then [48, 88]
      else if c.letter = 'o' ∧ digits.head? ≠ some 48 then [48] else []
    else []
  let body := sign ++ digits
  if c.zeros ∧ left = false ∧ precision? = none then
    sign ++ List.replicate (width - body.length) 48 ++ digits
  else padded left width body

/-- A count, of which a number below zero turns the side. -/
def readCount (c : Count) (arguments : List String) :
    Option Int × List String × List FormatFault :=
  match c with
  | .none => (none, arguments, [])
  | .number n => (some n, arguments, [])
  | .argument =>
    match arguments with
    | [] => (some 0, [], [])
    | a :: rest =>
      let (i, faults) := integerOf a
      (some i, rest, faults)

def convert (c : Conversion) (arguments : List String) : Written :=
  let (width, arguments, faults) := readCount c.width arguments
  let (precision, arguments, more) := readCount c.precision arguments
  let faults := faults ++ more
  let w := (width.getD 0).natAbs
  let left : Bool := c.left || width.any (· < 0)
  let precision? : Option Nat := precision.bind fun p => if p < 0 then none else some p.toNat
  let argument := arguments.headD ""
  let rest := arguments.tail
  if c.letter = 's' then
    let s := octetsOf argument
    ⟨padded left w ((precision?.map s.take).getD s), rest, faults, false⟩
  else if c.letter = 'b' then
    let (s, stopped) := unescape argument
    ⟨padded left w ((precision?.map s.take).getD s), rest, faults, stopped⟩
  else if c.letter = 'c' then ⟨padded left w ((octetsOf argument).take 1), rest, faults, false⟩
  else if "diouxX".toList.contains c.letter then
    let (i, more) := integerOf argument
    ⟨writeInteger c w left precision? i, rest, faults ++ more, false⟩
  else ⟨[], arguments, faults ++ [.badDirective ("%" ++ String.singleton c.letter)], true⟩

def formatOnce : List FormatItem → List String → Written
  | [], arguments => ⟨[], arguments, [], false⟩
  | .stop :: _, arguments => ⟨[], arguments, [], true⟩
  | .incomplete :: _, arguments => ⟨[], arguments, [.badDirective "%"], true⟩
  | .octets s :: rest, arguments =>
    let w := formatOnce rest arguments
    { w with octets := s ++ w.octets }
  | .convert c :: rest, arguments =>
    let first := convert c arguments
    if first.stopped then first
    else
      let w := formatOnce rest first.arguments
      { w with octets := first.octets ++ w.octets, faults := first.faults ++ w.faults }

/-- The items of a format used again and again until the arguments are used up. -/
def formatAll (items : List FormatItem) : Nat → List String → Octets × List FormatFault
  | 0, _ => ([], [])
  | fuel + 1, arguments =>
    let w := formatOnce items arguments
    if w.stopped || w.arguments.isEmpty || w.arguments.length = arguments.length then
      (w.octets, w.faults)
    else
      let (octets, faults) := formatAll items fuel w.arguments
      (w.octets ++ octets, w.faults ++ faults)

def formatted (format : String) (arguments : List String) : Octets × List FormatFault :=
  formatAll (formatItems format.length format.toList) (arguments.length + 1) arguments

end CommandDeck.Filter
