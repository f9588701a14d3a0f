import CommandDeck.Bench.Filter.RegexText

/-!
# Scripts that edit lines

A script is a sequence of commands. Each is a letter after the lines it is for, and before what it needs:
a text, a label, an expression with what is to be put in its place. A script is read octet by octet, each
one as the character of its code.
-/

namespace CommandDeck.Filter

/-- An expression and how it is searched for. -/
structure Search where
  expression : Regex
  mode : SearchMode

/-- A line, or a kind of lines. -/
inductive LineMark where
  | number (n : Nat)
  | last
  /-- A line in which something is found: without an expression, what was searched for last. -/
  | found (search? : Option Search)
  /-- Every line that is a number of steps away from the first one. -/
  | every (first step : Nat)

/-- The end of a range of lines: a line, so many lines after the first, or the next multiple. -/
inductive RangeEnd where
  | mark (m : LineMark)
  | further (lines : Nat)
  | multiple (n : Nat)

inductive LineChoice where
  | all
  | one (m : LineMark)
  | range (first : LineMark) (last : RangeEnd)

inductive LetterCase where
  | upper
  | lower
  deriving DecidableEq

/-- How letters are changed: the first one, and all others. -/
structure CaseChange where
  first : Option LetterCase
  all : Option LetterCase

/-- A part of what is put in the place of a match: a text and the text of a group, of which the one with
the number zero is the match. -/
structure ReplacementPart where
  lead : Octets
  change : CaseChange
  group? : Option Nat

/-- When a command goes on at another place. -/
inductive JumpCondition where
  | always
  | ifReplaced
  | unlessReplaced
  deriving DecidableEq

/-- What becomes of a match: the number of the first one that is replaced, whether those after it are,
and where the line is written if there is one. -/
structure ReplacementUse where
  number : Nat
  everywhere : Bool
  prints : Bool
  file? : Option Octets

inductive EditAction where
  | delete
  | print
  | quit (status : Nat) (silent : Bool)
  | number
  | advance
  | append (text : Octets)
  | insert (text : Octets)
  | change (text : Octets)
  | replace (search? : Option Search) (parts : List ReplacementPart) (use : ReplacementUse)
  | exchange (set onto : Octets)
  | clear
  /-- Keeps the line, for itself or after what is kept. -/
  | keep (further : Bool)
  /-- Brings what is kept back, for the line or after it. -/
  | fetch (further : Bool)
  | swap
  /-- Puts the next line after the line at hand. -/
  | join
  | printFirst
  | deleteFirst
  /-- Writes the line with every octet visible, in pieces of a width. -/
  | show (width? : Option Nat)
  | label (name : List Char)
  | jump (condition : JumpCondition) (name : List Char)
  | insertFile (name : Octets)
  | writeFile (name : Octets) (onlyFirst : Bool)
  /-- Writes the name of the input. -/
  | nameInput
  /-- The next so many commands are for the chosen lines. -/
  | block (size : Nat)
  | nothing

structure EditCommand where
  lines : LineChoice
  negated : Bool
  action : EditAction

structure EditScript where
  silent : Bool
  commands : List EditCommand

/-- What is wrong with a script. -/
inductive EditFault where
  | repeatedNot
  | strayComma
  | farFirst
  | openBrace
  | closedBrace
  | braceLines
  | labelLines
  | commentLines
  | oneLine
  | lineZero
  | junk
  | lacksText
  | lacksCommand
  | lacksLabel
  | lacksFile
  | openExpression
  | openReplacement
  | openExchange
  | unknownOption
  | repeatedPrint
  | repeatedEverywhere
  | repeatedNumber
  | zeroNumber
  | unequalLengths
  | newerVersion
  | unknownCommand (c : Char)
  | noGroup (n : Nat)
  | modeOfNothing
  | expression (f : RegexFault)

def EditFault.message : EditFault → String
  | repeatedNot => "multiple \x60!'s"
  | strayComma => "unexpected \x60,'"
  | farFirst => "invalid usage of +N or ~N as first address"
  | openBrace => "unmatched \x60\x7b'"
  | closedBrace => "unexpected \x60\x7d'"
  | braceLines => "\x60\x7d' doesn't want any addresses"
  | labelLines => ": doesn't want any addresses"
  | commentLines => "comments don't accept any addresses"
  | oneLine => "command only uses one address"
  | lineZero => "invalid usage of line address 0"
  | junk => "extra characters after command"
  | lacksText => "expected \\ after \x60a', \x60c' or \x60i'"
  | lacksCommand => "missing command"
  | lacksLabel => "\":\" lacks a label"
  | lacksFile => "missing filename in r/R/w/W commands"
  | openExpression => "unterminated address regex"
  | openReplacement => "unterminated \x60s' command"
  | openExchange => "unterminated \x60y' command"
  | unknownOption => "unknown option to \x60s'"
  | repeatedPrint => "multiple \x60p' options to \x60s' command"
  | repeatedEverywhere => "multiple \x60g' options to \x60s' command"
  | repeatedNumber => "multiple number options to \x60s' command"
  | zeroNumber => "number option to \x60s' command may not be zero"
  | unequalLengths => "strings for \x60y' command are different lengths"
  | newerVersion => "expected newer version of sed"
  | unknownCommand c =>
    "unknown command: \x60" ++ String.singleton (if c.toNat < 128 then c else Text.replacement) ++ "'"
  | noGroup n =>
    "invalid reference \\" ++ String.ofList (NumberLayout.digits n) ++ " on \x60s' command's RHS"
  | modeOfNothing => "cannot specify modifiers on empty regexp"
  | expression f => f.message

/-- What is wrong with a script, and how much of it had not been read. -/
structure EditObstacle where
  left : Nat
  fault : EditFault

/-- How a script is written and what it is for: whether its expressions have the extended form, and the
octet that ends a line. -/
structure EditForm where
  extended : Bool
  lineEnd : UInt8

namespace EditScript

/-- What is read from the beginning of a text, with what follows it. -/
abbrev Reading (α : Type) : Type := Except EditObstacle (α × List Char)

def obstacle {α : Type} (rest : List Char) (f : EditFault) : Except EditObstacle α :=
  .error ⟨rest.length, f⟩

def isBlank (c : Char) : Bool := c == ' ' || c == '\t'

def isSpace (c : Char) : Bool := isBlank c || ('\n' ≤ c && c ≤ '\r')

def skipBlanks (s : List Char) : List Char := s.dropWhile isBlank

/-- The number at the beginning of a text, which is zero without digits. -/
def takeNumber (s : List Char) : Nat × List Char :=
  let digits := s.takeWhile Text.isDigit
  (digits.foldl (fun n c => n * 10 + Text.digitValue c) 0, s.drop digits.length)

/-- The name of a place, which ends with a space, a semicolon or a brace. -/
def takeLabel (s : List Char) : List Char × List Char :=
  let s := skipBlanks s
  let name := s.takeWhile fun c => !isSpace c && c != ';' && c != '\x7d'
  (name, s.drop name.length)

/-- The name of a file, which goes up to the end of the line. -/
def takeFile (s : List Char) : Reading Octets :=
  let s := skipBlanks s
  let name := s.takeWhile (· != '\n')
  let rest := (s.drop name.length).drop 1
  if name.isEmpty then obstacle rest .lacksFile else .ok (name.map octetOf, rest)

/-- What follows the end of a command, which is a semicolon, the end of a line, a comment or a brace. -/
def endCommand (s : List Char) : Except EditObstacle (List Char) :=
  match skipBlanks s with
  | [] => .ok []
  | c :: rest =>
    if c = '\x7d' ∨ c = '#' then .ok (c :: rest)
    else if c = ';' ∨ c = '\n' then .ok rest
    else obstacle rest .junk

/-- The octet that digits in a base mean, of which there are at most so many. -/
def takeCode? (base most : Nat) (s : List Char) : Option (UInt8 × List Char) :=
  let digits := (s.take most).takeWhile fun c => (Text.hexValue? c).any (· < base)
  if digits.isEmpty then none
  else
    some ((digits.foldl (fun n c => n * base + (Text.hexValue? c).getD 0) 0).toUInt8,
      s.drop digits.length)

/-- The octet that a text after a backslash means, if it does mean one. -/
def takeEscape? : List Char → Option (UInt8 × List Char)
  | 'a' :: rest => some (7, rest)
  | 'f' :: rest => some (12, rest)
  | 'n' :: rest => some (10, rest)
  | 'r' :: rest => some (13, rest)
  | 't' :: rest => some (9, rest)
  | 'v' :: rest => some (11, rest)
  | 'c' :: c :: rest => some ((octetOf c.toUpper) ^^^ 0x40, rest)
  | 'd' :: rest => takeCode? 10 3 rest
  | 'o' :: rest => takeCode? 8 3 rest
  | 'x' :: rest => takeCode? 16 2 rest
  | _ => none

/-- A text in which escapes have been replaced by their octets. Other signs after a backslash keep it.
The number bounds the length. -/
def withOctets : Nat → List Char → List Char
  | 0, s => s
  | _, [] => []
  | fuel + 1, '\\' :: rest =>
    match takeEscape? rest, rest with
    | some (b, more), _ => Char.ofNat b.toNat :: withOctets fuel more
    | none, c :: more => '\\' :: c :: withOctets fuel more
    | none, [] => ['\\']
  | fuel + 1, c :: rest => c :: withOctets fuel rest

/-- A set in brackets from what follows the opening one, up to the closing one, and what follows it. -/
def takeBracket : Bool → Option Char → List Char → List Char × List Char
  | _, _, [] => ([], [])
  | isFirst, mark?, c :: rest =>
    let onward (isFirst : Bool) (mark? : Option Char) : List Char × List Char :=
      let (text, more) := takeBracket isFirst mark? rest
      (c :: text, more)
    match mark? with
    | some m => onward false (if c = m ∧ rest.head? = some ']' then none else mark?)
    | none =>
      if c = ']' ∧ isFirst = false then ([c], rest)
      else if c = '[' then
        onward false (rest.head?.filter fun m => m == ':' || m == '.' || m == '=')
      else onward (isFirst && c == '^') none

/-- The text up to a delimiter, and what follows it; or what is left where there is none on the line. A
delimiter after a backslash stands for itself. In an expression a set is not looked into. The number
bounds the length. -/
def delimited (isExpression : Bool) (delimiter : Char) :
    Nat → List Char → Except (List Char) (List Char × List Char)
  | 0, s => .error s
  | _, [] => .error []
  | _, ['\\'] => .error []
  | fuel + 1, '\\' :: c :: rest =>
    let text : List Char :=
      if isExpression ∧ c = 'n' then ['\n']
      else if c = '\n' ∨ (c = delimiter ∧ (isExpression ∨ c ≠ '&')) then [c]
      else ['\\', c]
    (delimited isExpression delimiter fuel rest).map fun r => (text ++ r.1, r.2)
  | fuel + 1, c :: rest =>
    if c = delimiter then .ok ([], rest)
    else if c = '\n' then .error (c :: rest)
    else if isExpression ∧ c = '[' then
      let (text, more) := takeBracket true none rest
      let line := text.takeWhile (· != '\n')
      if line.length < text.length then .error (text.drop line.length ++ more)
      else (delimited isExpression delimiter fuel more).map fun r => (c :: text ++ r.1, r.2)
    else (delimited isExpression delimiter fuel rest).map fun r => (c :: r.1, r.2)

/-- What a text searches for, or nothing if it is empty. -/
def search? (form : EditForm) (text : List Char) (ignoreCase byLines : Bool) (rest : List Char) :
    Except EditObstacle (Option Search) :=
  if text.isEmpty then
    if ignoreCase || byLines then obstacle rest .modeOfNothing else .ok none
  else
    match Regex.ofText form.extended (withOctets text.length text) with
    | .ok r => .ok (some ⟨r, ⟨ignoreCase, if byLines then some form.lineEnd else none⟩⟩)
    | .error f => obstacle rest (.expression f)

/-- The signs after an expression that tell how it is searched for. -/
def takeModes : List Char → Bool → Bool → Bool × Bool × List Char
  | [], ignoreCase, byLines => (ignoreCase, byLines, [])
  | c :: rest, ignoreCase, byLines =>
    if isBlank c then takeModes rest ignoreCase byLines
    else if c = 'I' then takeModes rest true byLines
    else if c = 'M' then takeModes rest ignoreCase true
    else (ignoreCase, byLines, c :: rest)

/-- A line, a kind of lines or the end of a range at the beginning of a text. -/
def takeMark (form : EditForm) (s : List Char) : Reading (Option RangeEnd) :=
  let expression (s : List Char) : Reading (Option RangeEnd) :=
    match s with
    | [] => obstacle [] .openExpression
    | delimiter :: rest =>
      match delimited true delimiter (rest.length + 1) rest with
      | .error left => obstacle left .openExpression
      | .ok (text, rest) =>
        let (ignoreCase, byLines, rest) := takeModes rest false false
        (search? form text ignoreCase byLines rest).map fun s? => (some (.mark (.found s?)), rest)
  match s with
  | '$' :: rest => .ok (some (.mark .last), rest)
  | '/' :: rest => expression ('/' :: rest)
  | '\\' :: rest => expression rest
  | '+' :: rest =>
    let (n, rest) := takeNumber (skipBlanks rest)
    .ok (some (.further n), rest)
  | '~' :: rest =>
    let (n, rest) := takeNumber (skipBlanks rest)
    .ok (some (.multiple n), rest)
  | c :: rest =>
    if !Text.isDigit c then .ok (none, c :: rest)
    else
      let (first, rest) := takeNumber (c :: rest)
      match skipBlanks rest with
      | '~' :: rest =>
        let (step, rest) := takeNumber (skipBlanks rest)
        .ok (some (.mark (if step = 0 then .number first else .every first step)), rest)
      | rest => .ok (some (.mark (.number first)), rest)
  | [] => .ok (none, [])

/-- The lines that a command is for. Line zero is only the beginning of a range up to something found. -/
def takeLines (form : EditForm) (s : List Char) : Reading LineChoice :=
  match takeMark form s with
  | .error e => .error e
  | .ok (none, rest) => .ok (.all, rest)
  | .ok (some (.further 0), rest) => .ok (.all, skipBlanks rest)
  | .ok (some (.multiple 0), rest) => .ok (.all, skipBlanks rest)
  | .ok (some (.further _), rest) => obstacle rest .farFirst
  | .ok (some (.multiple _), rest) => obstacle rest .farFirst
  | .ok (some (.mark first), rest) =>
    let isZero : Bool := match first with
      | .number n => n = 0
      | _ => false
    match skipBlanks rest with
    | ',' :: rest =>
      let rest := skipBlanks rest
      match takeMark form rest with
      | .error e => .error e
      | .ok (none, rest) => obstacle (rest.drop 1) .strayComma
      | .ok (some last, rest) =>
        let rest := skipBlanks rest
        let isFound : Bool := match last with
          | .mark (.found _) => true
          | _ => false
        if isZero && !isFound then obstacle (rest.drop 1) .lineZero
        else .ok (.range first last, rest)
    | rest => if isZero then obstacle (rest.drop 1) .lineZero else .ok (.one first, rest)

/-- A text up to the end of the line. A backslash keeps the end of a line in the text. The number bounds
the length. -/
def takeTextLine : Nat → List Char → Octets × List Char
  | 0, s => ([], s)
  | _, [] => ([10], [])
  | _, '\n' :: rest => ([10], rest)
  | fuel + 1, '\\' :: rest =>
    match takeEscape? rest, rest with
    | some (b, more), _ =>
      let (text, left) := takeTextLine fuel more
      (b :: text, left)
    | none, c :: more =>
      let (text, left) := takeTextLine fuel more
      (octetOf c :: text, left)
    | none, [] => ([10], [])
  | fuel + 1, c :: rest =>
    let (text, left) := takeTextLine fuel rest
    (octetOf c :: text, left)

/-- The text of a command that writes one, on its line or on the next one after a backslash. -/
def takeText (s : List Char) : Reading Octets :=
  match skipBlanks s with
  | [] => obstacle [] .lacksText
  | ['\\'] => .ok ([], [])
  | '\\' :: '\n' :: rest => .ok (takeTextLine (rest.length + 1) rest)
  | '\\' :: c :: rest =>
    let (text, left) := takeTextLine (rest.length + 1) rest
    .ok (octetOf c :: text, left)
  | s => .ok (takeTextLine (s.length + 1) s)

/-- The parts of a replacement, where `lead` has been read, the last octet first, `now` is how its
letters are changed and `later` how those are that follow. The number bounds the length. -/
def partsOf : Nat → Octets → CaseChange → CaseChange → List Char → List ReplacementPart
  | 0, lead, now, _, _ => [⟨lead.reverse, now, none⟩]
  | _, lead, now, _, [] => if lead.isEmpty then [] else [⟨lead.reverse, now, none⟩]
  | fuel + 1, lead, now, later, '&' :: rest =>
    ⟨lead.reverse, now, some 0⟩ :: partsOf fuel [] later later rest
  | fuel + 1, lead, now, later, '\\' :: rest =>
    match takeEscape? rest, rest with
    | some (b, more), _ => partsOf fuel (b :: lead) now later more
    | none, [] => [⟨(92 :: lead).reverse, now, none⟩]
    | none, c :: more =>
      let first (f : LetterCase) : List ReplacementPart :=
        ⟨lead.reverse, now, none⟩ :: partsOf fuel [] { later with first := some f } later more
      let all (a : Option LetterCase) : List ReplacementPart :=
        ⟨lead.reverse, now, none⟩ :: partsOf fuel [] ⟨none, a⟩ ⟨none, a⟩ more
      if Text.isDigit c then
        ⟨lead.reverse, now, some (Text.digitValue c)⟩ :: partsOf fuel [] later later more
      else if c = 'U' then all (some .upper)
      else if c = 'L' then all (some .lower)
      else if c = 'E' then all none
      else if c = 'u' then first .upper
      else if c = 'l' then first .lower
      else partsOf fuel (octetOf c :: lead) now later more
  | fuel + 1, lead, now, later, c :: rest => partsOf fuel (octetOf c :: lead) now later rest

/-- What follows a replacement: its use, and how the expression is searched for. -/
structure ReplacementOptions where
  everywhere : Bool
  prints : Bool
  number? : Option Nat
  ignoreCase : Bool
  byLines : Bool
  file? : Option Octets

/-- Reads what follows a replacement. The number bounds the length. -/
def takeOptions : Nat → ReplacementOptions → List Char → Reading ReplacementOptions
  | 0, o, s => .ok (o, s)
  | _, o, [] => .ok (o, [])
  | fuel + 1, o, c :: rest =>
    if c = 'i' ∨ c = 'I' then takeOptions fuel { o with ignoreCase := true } rest
    else if c = 'm' ∨ c = 'M' then takeOptions fuel { o with byLines := true } rest
    else if c = 'p' then
      if o.prints then obstacle rest .repeatedPrint
      else takeOptions fuel { o with prints := true } rest
    else if c = 'g' then
      if o.everywhere then obstacle rest .repeatedEverywhere
      else takeOptions fuel { o with everywhere := true } rest
    else if Text.isDigit c then
      if o.number?.isSome then obstacle rest .repeatedNumber
      else
        let (n, rest) := takeNumber (c :: rest)
        if n = 0 then obstacle rest .zeroNumber
        else takeOptions fuel { o with number? := some n } rest
    else if c = 'w' then (takeFile rest).map fun r => ({ o with file? := some r.1 }, r.2)
    else if isBlank c then takeOptions fuel o rest
    else if c = '\x7d' ∨ c = '#' then .ok (o, c :: rest)
    else if c = '\n' ∨ c = ';' then .ok (o, rest)
    else if c = '\r' ∧ rest.head? = some '\n' then .ok (o, rest.drop 1)
    else obstacle rest .unknownOption

/-- The command that replaces what is found, from what follows its letter. -/
def takeReplacement (form : EditForm) (s : List Char) : Reading EditAction :=
  match s with
  | [] => obstacle [] .openReplacement
  | delimiter :: rest =>
    match delimited true delimiter (rest.length + 1) rest with
    | .error left => obstacle left .openReplacement
    | .ok (pattern, rest) =>
      match delimited false delimiter (rest.length + 1) rest with
      | .error left => obstacle left .openReplacement
      | .ok (text, rest) =>
        let parts := partsOf (text.length + 1) [] ⟨none, none⟩ ⟨none, none⟩ text
        match takeOptions (rest.length + 1) ⟨false, false, none, false, false, none⟩ rest with
        | .error e => .error e
        | .ok (o, rest) =>
          match search? form pattern o.ignoreCase o.byLines rest with
          | .error e => .error e
          | .ok search =>
            let most := (parts.filterMap (·.group?)).foldl max 0
            if search.any fun s => s.expression.groupCount < most then obstacle rest (.noGroup most)
            else
              .ok (.replace search parts ⟨o.number?.getD 1, o.everywhere, o.prints, o.file?⟩, rest)

/-- The octets of one side of an exchange. A backslash stands before itself or an escape. The number
bounds the length. -/
def exchangeOctets? : Nat → List Char → Option Octets
  | 0, _ => none
  | _, [] => some []
  | fuel + 1, '\\' :: '\\' :: rest => (exchangeOctets? fuel rest).map (92 :: ·)
  | fuel + 1, '\\' :: rest =>
    match takeEscape? rest with
    | some (b, more) => (exchangeOctets? fuel more).map (b :: ·)
    | none => none
  | fuel + 1, c :: rest => (exchangeOctets? fuel rest).map (octetOf c :: ·)

/-- The command that exchanges octets, from what follows its letter. -/
def takeExchange (s : List Char) : Reading EditAction :=
  match s with
  | [] => obstacle [] .openExchange
  | delimiter :: rest =>
    match delimited false delimiter (rest.length + 1) rest with
    | .error left => obstacle left .openExchange
    | .ok (set, rest) =>
      match delimited false delimiter (rest.length + 1) rest with
      | .error left => obstacle left .openExchange
      | .ok (onto, rest) =>
        match exchangeOctets? (set.length + 1) set, exchangeOctets? (onto.length + 1) onto with
        | some a, some b =>
          if a.length = b.length then (endCommand rest).map fun rest => (.exchange a b, rest)
          else obstacle rest .unequalLengths
        | _, _ => obstacle rest .unequalLengths

def version : List Nat := [4, 9]

/-- A version that is not later than the one known here. -/
def isKnownVersion (name : List Char) : Bool :=
  let numbers := (Text.splitAt '.' name).map fun part =>
    if part.isEmpty then none else RegexText.numberOf? part
  numbers.all Option.isSome && !(version < numbers.filterMap id)

/-- The action whose letter has been read. A letter whose action takes nothing else is the end of it. -/
def takeAction (form : EditForm) (ranged : Bool) (c : Char) (rest : List Char) : Reading EditAction :=
  let plain (a : EditAction) : Reading EditAction := (endCommand rest).map fun rest => (a, rest)
  let numbered (make : Option Nat → EditAction) : Reading EditAction :=
    match skipBlanks rest with
    | d :: more =>
      if Text.isDigit d then
        let (n, more) := takeNumber (d :: more)
        (endCommand more).map fun rest => (make (some n), rest)
      else plain (make none)
    | [] => plain (make none)
  let text (make : Octets → EditAction) : Reading EditAction :=
    (takeText rest).map fun r => (make r.1, r.2)
  let jump (condition : JumpCondition) : Reading EditAction :=
    let (name, rest) := takeLabel rest
    .ok (.jump condition name, rest)
  let file (make : Octets → EditAction) : Reading EditAction :=
    (takeFile rest).map fun r => (make r.1, r.2)
  match c with
  | 'd' => plain .delete
  | 'p' => plain .print
  | '=' => plain .number
  | 'n' => plain .advance
  | 'z' => plain .clear
  | 'h' => plain (.keep false)
  | 'H' => plain (.keep true)
  | 'g' => plain (.fetch false)
  | 'G' => plain (.fetch true)
  | 'x' => plain .swap
  | 'N' => plain .join
  | 'P' => plain .printFirst
  | 'D' => plain .deleteFirst
  | 'F' => plain .nameInput
  | 'q' => if ranged then obstacle rest .oneLine else numbered fun n? => .quit (n?.getD 0) false
  | 'Q' => if ranged then obstacle rest .oneLine else numbered fun n? => .quit (n?.getD 0) true
  | 'l' => numbered .show
  | 'a' => text .append
  | 'i' => text .insert
  | 'c' => text .change
  | 's' => takeReplacement form rest
  | 'y' => takeExchange rest
  | 'b' => jump .always
  | 't' => jump .ifReplaced
  | 'T' => jump .unlessReplaced
  | 'r' => file .insertFile
  | 'w' => file fun name => .writeFile name false
  | 'W' => file fun name => .writeFile name true
  | 'v' =>
    let (name, rest) := takeLabel rest
    if name.isEmpty || isKnownVersion name then .ok (.nothing, rest) else obstacle rest .newerVersion
  | c => obstacle rest (.unknownCommand c)

/-- The commands up to the end or a closing brace, and whether there was one. The number bounds their
count. -/
def takeCommands (form : EditForm) : Nat → Bool → List Char → Reading (List EditCommand × Bool)
  | 0, _, s => .ok (([], false), s)
  | fuel + 1, inBlock, s =>
    match s.dropWhile fun c => isSpace c || c == ';' with
    | [] => .ok (([], false), [])
    | s =>
      match takeLines form s with
      | .error e => .error e
      | .ok (lines, rest) =>
        let isFree : Bool := match lines with
          | .all => true
          | _ => false
        let ranged : Bool := match lines with
          | .range _ _ => true
          | _ => false
        let (negated, rest) : Bool × List Char := match rest with
          | '!' :: more => (true, skipBlanks more)
          | _ => (false, rest)
        match rest with
        | [] => obstacle [] .lacksCommand
        | c :: rest =>
          let onward (commands : List EditCommand) (rest : List Char) :
              Reading (List EditCommand × Bool) :=
            (takeCommands form fuel inBlock rest).map fun r => ((commands ++ r.1.1, r.1.2), r.2)
          if c = '!' ∧ negated then obstacle rest .repeatedNot
          else if c = '#' then
            if isFree then onward [] (rest.dropWhile (· != '\n')) else obstacle rest .commentLines
          else if c = '\x7d' then
            if !inBlock then obstacle rest .closedBrace
            else if !isFree then obstacle rest .braceLines
            else (endCommand rest).map fun rest => (([], true), rest)
          else if c = '\x7b' then
            match takeCommands form fuel true rest with
            | .error e => .error e
            | .ok ((_, false), _) => obstacle rest .openBrace
            | .ok ((body, true), rest) => onward (⟨lines, negated, .block body.length⟩ :: body) rest
          else if c = ':' then
            let (name, rest) := takeLabel rest
            if !isFree then obstacle rest .labelLines
            else if name.isEmpty then obstacle rest .lacksLabel
            else onward [⟨lines, negated, .label name⟩] rest
          else
            match takeAction form ranged c rest with
            | .error e => .error e
            | .ok (action, rest) => onward [⟨lines, negated, action⟩] rest

def place? (name : List Char) (commands : List EditCommand) : Option Nat :=
  commands.findIdx? fun c => match c.action with
    | .label n => n == name
    | _ => false

/-- The label that a jump goes to and that is nowhere, the last one of them. -/
def lacking? (commands : List EditCommand) : Option (List Char) :=
  commands.reverse.findSome? fun c => match c.action with
    | .jump _ name => if name.isEmpty || (place? name commands).isSome then none else some name
    | _ => none

/-- Reads a script. One whose first line is a number sign and an n does not write lines by itself. -/
def ofText (form : EditForm) (s : List Char) : Except EditObstacle EditScript :=
  match takeCommands form (s.length + 1) false s with
  | .error e => .error e
  | .ok ((commands, _), _) => .ok ⟨s.take 2 = ['#', 'n'] ∧ (s.drop 2).head?.all (· = '\n'), commands⟩

end EditScript

end CommandDeck.Filter
