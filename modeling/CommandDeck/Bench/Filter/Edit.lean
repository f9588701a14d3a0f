import CommandDeck.Bench.Filter.EditScript

/-!
# Editing lines

The commands of a script are carried out on every line of an input. The lines are written in the end
unless that is left to the commands. A last line that lacks its end is written without one.
-/

namespace CommandDeck.Filter

def LetterCase.apply (c : LetterCase) (b : UInt8) : UInt8 :=
  match c with
  | upper => if 97 ≤ b ∧ b ≤ 122 then b - 32 else b
  | lower => if 65 ≤ b ∧ b ≤ 90 then b + 32 else b

def CaseChange.apply (change : CaseChange) (text : Octets) : Octets :=
  let all (b : UInt8) : UInt8 := (change.all.map fun c => c.apply b).getD b
  match change.first, text with
  | some f, b :: rest => f.apply b :: rest.map all
  | _, _ => text.map all

/-- What is put in the place of a match with its groups. A change of a first letter that has met no
letter is left to the next part. -/
def fillIn (found : Octets) (groups : List (Nat × Octets)) :
    Option LetterCase → List ReplacementPart → Octets
  | _, [] => []
  | waiting, p :: rest =>
    let change : CaseChange := { p.change with first := p.change.first.or waiting }
    let lead := change.apply p.lead
    let onward (change : CaseChange) (n : Nat) : Octets :=
      let text := if n = 0 then found else ((groups.find? fun g => g.1 == n).map (·.2)).getD []
      lead ++ change.apply text ++
        fillIn found groups (if text.isEmpty && p.change.first.isSome then change.first else none) rest
    match p.group? with
    | none => lead ++ fillIn found groups none rest
    | some n => onward (if p.lead.isEmpty then change else { change with first := none }) n

/-- A line with matches replaced, and whether there was one. The first number bounds the matches, the
second one tells how many are passed over. -/
def replaced (search : Search) (everywhere : Bool) (parts : List ReplacementPart) :
    Nat → Nat → Bool → Octets → Octets → Octets × Bool
  | 0, _, _, _, rest => (rest, false)
  | fuel + 1, passed, afterMatch, before, rest =>
    match search.expression.search search.mode before rest with
    | none => (rest, false)
    | some (skipped, found, state) =>
      let stuck : Bool := found.isEmpty && skipped.isEmpty && afterMatch
      let onward (s : Octets) (afterMatch : Bool) (passed : Nat) : Octets × Bool :=
        match found, state.rest with
        | [], b :: more =>
          let (tail, any) := replaced search everywhere parts fuel passed false (b :: state.before) more
          (s ++ b :: tail, any)
        | [], [] => (s, false)
        | _, rest =>
          let (tail, any) := replaced search everywhere parts fuel passed afterMatch state.before rest
          (s ++ tail, any)
      if stuck then onward skipped true passed
      else if 0 < passed then onward (skipped ++ found) true (passed - 1)
      else
        let text := skipped ++ fillIn found state.groups none parts
        if everywhere then ((onward text true 0).1, true) else (text ++ state.rest, true)

def shownOctet (b : UInt8) : Octets :=
  let digit (n : Nat) : UInt8 := (48 + n % 8).toUInt8
  let letter? : Option Char :=
    if b = 92 then some '\\'
    else if b = 7 then some 'a'
    else if b = 8 then some 'b'
    else if b = 12 then some 'f'
    else if b = 10 then some 'n'
    else if b = 13 then some 'r'
    else if b = 9 then some 't'
    else if b = 11 then some 'v'
    else none
  match letter? with
  | some c => [92, octetOf c]
  | none =>
    if 32 ≤ b ∧ b < 127 then [b]
    else [92, digit (b.toNat / 64), digit (b.toNat / 8), digit b.toNat]

/-- A line made visible, in pieces that with the sign for their end have a width. Zero means any width. -/
def shownLine (width : Nat) (line : Octets) : Octets :=
  let put (done : Octets × Nat) (b : UInt8) : Octets × Nat :=
    let text := shownOctet b
    if 0 < width ∧ width < done.2 + text.length + 1 then
      (done.1 ++ [92, 10] ++ text, text.length)
    else (done.1 ++ text, done.2 + text.length)
  (line.foldl put ([], 0)).1 ++ [36, 10]

/-- A line without its end, and whether it has one. -/
structure EditLine where
  text : Octets
  isEnded : Bool

/-- What surrounds an edit: the octet that ends a line, the width of visible lines, the name of the
input, and the contents of files. -/
structure EditSetting where
  lineEnd : UInt8
  width : Nat
  name : Octets
  files : List (Octets × Octets)

/-- The state of an edit: the line at hand, its number, what is kept, what is to be written after the
line, the lines that are left, what has been written and whether its last line lacks its end, what has
been written to files, the commands whose ranges are open with the lines at which they end, or with none
where a mark ends them, whether something has been replaced in the line, and what was searched for last. -/
structure EditState where
  line : EditLine
  number : Nat
  kept : EditLine
  after : Octets
  left : List EditLine
  written : Octets
  lacksEnd : Bool
  toFiles : List (Octets × Octets)
  ranges : List (Nat × Option Nat)
  hasReplaced : Bool
  last? : Option Search

/-- How the commands for a line end. -/
inductive EditEnd where
  | done
  | deleted
  /-- The commands are to begin again with the line at hand. -/
  | again
  | finished (status : Nat) (silent : Bool)
  /-- What was searched for last is asked for, and nothing was. -/
  | noSearch

namespace EditState

def isLast (s : EditState) : Bool := s.left.isEmpty

/-- What an expression means, which without one is what was searched for last, and the state that keeps
it. -/
def recalled (s : EditState) (search? : Option Search) : Option (Search × EditState) :=
  (search?.or s.last?).map fun search => (search, { s with last? := some search })

/-- Whether the line at hand is meant, and the state then. -/
def holds (s : EditState) : LineMark → Option (Bool × EditState)
  | .number n => some (s.number == n, s)
  | .last => some (s.isLast, s)
  | .found search? =>
    (s.recalled search?).map fun r => (r.1.expression.isFound r.1.mode s.line.text, r.2)
  | .every first step => some (first ≤ s.number && (s.number - first) % step == 0, s)

/-- Whether a command with a number is for the line at hand, and the state then. -/
def chosen (s : EditState) (index : Nat) : LineChoice → Option (Bool × EditState)
  | .all => some (true, s)
  | .one m => s.holds m
  | .range first last =>
    let closed (s : EditState) : EditState := { s with ranges := s.ranges.filter fun r => r.1 != index }
    let opened (s : EditState) (line? : Option Nat) : EditState :=
      { closed s with ranges := (index, line?) :: (closed s).ranges }
    match s.ranges.lookup index with
    | some (some limit) =>
      some (decide (s.number ≤ limit), if s.number < limit then s else closed s)
    | some none =>
      match last with
      | .mark m => (s.holds m).map fun r => (true, if r.1 then closed r.2 else r.2)
      | _ => some (true, closed s)
    | none =>
      (s.holds first).map fun r =>
        let upTo (line : Nat) : EditState := if line ≤ s.number then r.2 else opened r.2 (some line)
        if r.1 then
          (true, match last with
            | .mark (.number n) => upTo n
            | .mark _ => opened r.2 none
            | .further n => upTo (s.number + n)
            | .multiple n => upTo (if n = 0 then 0 else (s.number + n - 1) / n * n))
        else (false, r.2)

def write (s : EditState) (text : Octets) (lineEnd : UInt8) : EditState :=
  if text.isEmpty then s
  else { s with
    written := s.written ++ (if s.lacksEnd then [lineEnd] else []) ++ text
    lacksEnd := false }

def writeLine (s : EditState) (line : EditLine) (lineEnd : UInt8) : EditState :=
  { s with
    written := s.written ++ (if s.lacksEnd then [lineEnd] else []) ++ line.text ++
      (if line.isEnded then [lineEnd] else [])
    lacksEnd := !line.isEnded }

def writeTo (s : EditState) (name : Octets) (line : EditLine) (lineEnd : UInt8) : EditState :=
  let text := line.text ++ (if line.isEnded then [lineEnd] else [])
  if name = octetsOf "/dev/stdout" then { s with written := s.written ++ text }
  else
    let before := (s.toFiles.lookup name).getD []
    { s with toFiles := (s.toFiles.filter fun f => f.1 != name) ++ [(name, before ++ text)] }

def close (s : EditState) (silent : Bool) (lineEnd : UInt8) : EditState :=
  { (if silent then s else s.writeLine s.line lineEnd).write s.after lineEnd with after := [] }

def next? (s : EditState) : Option EditState :=
  match s.left with
  | [] => none
  | line :: left =>
    some { s with line := line, number := s.number + 1, left := left, hasReplaced := false }

/-- Carries out an action on the line at hand, unless it goes to another place. -/
def act (setting : EditSetting) (silent : Bool) (closes : Bool) (s : EditState) :
    EditAction → EditState × Option EditEnd
  | .delete => (s, some .deleted)
  | .print => (s.writeLine s.line setting.lineEnd, none)
  | .quit status hidden => (s, some (.finished status hidden))
  | .number => (s.write (natOctets s.number ++ [10]) setting.lineEnd, none)
  | .advance =>
    if s.isLast then (s, some .done)
    else
      match (s.close silent setting.lineEnd).next? with
      | some s => (s, none)
      | none => (s, some .done)
  | .append text => ({ s with after := s.after ++ text }, none)
  | .insert text => (s.write text setting.lineEnd, none)
  | .change text => (if closes then s.write text setting.lineEnd else s, some .deleted)
  | .replace search? parts use =>
    match s.recalled search? with
    | none => (s, some .noSearch)
    | some (search, s) =>
      let (text, any) :=
        replaced search use.everywhere parts (s.line.text.length + 2) (use.number - 1) false []
          s.line.text
      if any then
        let s := { s with line := { s.line with text := text }, hasReplaced := true }
        let s := if use.prints then s.writeLine s.line setting.lineEnd else s
        (match use.file? with
          | some name => s.writeTo name s.line setting.lineEnd
          | none => s, none)
      else (s, none)
  | .exchange set onto =>
    ({ s with line := { s.line with text := translated set onto s.line.text } }, none)
  | .clear => ({ s with line := { s.line with text := [] } }, none)
  | .keep further =>
    ({ s with kept :=
        if further then ⟨s.kept.text ++ setting.lineEnd :: s.line.text, s.line.isEnded⟩ else s.line },
      none)
  | .fetch further =>
    ({ s with line :=
        if further then ⟨s.line.text ++ setting.lineEnd :: s.kept.text, s.kept.isEnded⟩ else s.kept },
      none)
  | .swap => ({ s with line := s.kept, kept := s.line }, none)
  | .join =>
    match ({ s.write s.after setting.lineEnd with after := [] } : EditState).next? with
    | none => (s, some .done)
    | some t =>
      ({ t with line := { t.line with text := s.line.text ++ setting.lineEnd :: t.line.text } }, none)
  | .printFirst =>
    (s.writeLine ⟨s.line.text.takeWhile (· != setting.lineEnd), true⟩ setting.lineEnd, none)
  | .deleteFirst =>
    match s.line.text.dropWhile (· != setting.lineEnd) with
    | [] => (s, some .deleted)
    | _ :: rest => ({ s with line := { s.line with text := rest } }, some .again)
  | .show width? => (s.write (shownLine (width?.getD setting.width) s.line.text) setting.lineEnd, none)
  | .insertFile name => ({ s with after := s.after ++ (setting.files.lookup name).getD [] }, none)
  | .writeFile name onlyFirst =>
    let line : EditLine :=
      if onlyFirst then ⟨s.line.text.takeWhile (· != setting.lineEnd), true⟩ else s.line
    (s.writeTo name line setting.lineEnd, none)
  | .nameInput => (s.write (setting.name ++ [10]) setting.lineEnd, none)
  | .label _ => (s, none)
  | .jump _ _ => (s, none)
  | .block _ => (s, none)
  | .nothing => (s, none)

/-- Whether a jump is made, and the state then. -/
def jumps (s : EditState) : JumpCondition → Bool × EditState
  | .always => (true, s)
  | .ifReplaced => (s.hasReplaced, { s with hasReplaced := false })
  | .unlessReplaced => (!s.hasReplaced, { s with hasReplaced := false })

/-- Carries out commands on the line at hand. The first number bounds how many, the second one is the
number of the first of them. -/
def perform (setting : EditSetting) (silent : Bool) (script : List EditCommand) :
    Nat → Nat → List EditCommand → EditState → EditState × EditEnd
  | 0, _, _, s => (s, .done)
  | _, _, [], s => (s, .done)
  | fuel + 1, index, c :: rest, s =>
    let onward (s : EditState) : EditState × EditEnd :=
      perform setting silent script fuel (index + 1) rest s
    match s.chosen index c.lines with
    | none => (s, .noSearch)
    | some (isChosen, s) =>
      if isChosen = c.negated then
        match c.action with
        | .block size => perform setting silent script fuel (index + 1 + size) (rest.drop size) s
        | _ => onward s
      else
        match c.action with
        | .jump condition name =>
          let (isMade, s) := s.jumps condition
          if isMade then
            match EditScript.place? name script with
            | some place => perform setting silent script fuel place (script.drop place) s
            | none => (s, .done)
          else onward s
        | action =>
          let closes : Bool := match c.lines with
            | .range _ _ => c.negated || (s.ranges.lookup index).isNone
            | _ => true
          match s.act setting silent closes action with
          | (s, none) => onward s
          | (s, some ending) => (s, ending)

/-- The number of commands that are carried out on one line at most. -/
def longestRun : Nat := 1000000

/-- How an edit ends: with a status, or where what was searched for last is asked for and nothing was. -/
inductive Outcome where
  | status (n : Nat)
  | noSearch

/-- Edits the line at hand and those that are left. The number bounds the lines. -/
def run (setting : EditSetting) (silent : Bool) (script : List EditCommand) :
    Nat → EditState → EditState × Outcome
  | 0, s => (s, .status 0)
  | fuel + 1, s =>
    let onward (s : EditState) : EditState × Outcome :=
      match s.next? with
      | some s => run setting silent script fuel s
      | none => (s, .status 0)
    match s.perform setting silent script longestRun 0 script with
    | (s, .done) => onward (s.close silent setting.lineEnd)
    | (s, .deleted) => onward (s.close true setting.lineEnd)
    | (s, .again) => run setting silent script fuel (s.close true setting.lineEnd)
    | (s, .finished status true) => (s, .status status)
    | (s, .finished status false) =>
      let s := s.close silent setting.lineEnd
      (if s.lacksEnd then { s with written := s.written ++ [setting.lineEnd] } else s, .status status)
    | (s, .noSearch) => (s, .noSearch)

end EditState

namespace EditScript

def filesRead (script : EditScript) : List Octets :=
  script.commands.filterMap fun c => match c.action with
    | .insertFile name => some name
    | _ => none

/-- The files that a script writes, even if it writes nothing to them. -/
def filesWritten (script : EditScript) : List Octets :=
  script.commands.filterMap fun c => match c.action with
    | .writeFile name _ => some name
    | .replace _ _ use => use.file?
    | _ => none

/-- The ranges that are open before the first line, which are those from line zero. -/
def openRanges (script : EditScript) : List (Nat × Option Nat) :=
  script.commands.zipIdx.filterMap fun p => match p.1.lines with
    | .range (.number 0) _ => some (p.2, none)
    | _ => none

end EditScript

/-- The lines of some inputs, one after the other. Only the last one can lack its end. -/
def editLinesOf (lineEnd : UInt8) (inputs : List Octets) : List EditLine :=
  let lines := inputs.flatMap (Text.pieces lineEnd)
  lines.zipIdx.map fun p =>
    let text := p.1.takeWhile (· != lineEnd)
    ⟨text, p.2 + 1 < lines.length || text.length < p.1.length⟩

/-- What a script makes of some inputs: what it writes, also to files, and how it ends. -/
def edited (setting : EditSetting) (silent : Bool) (script : EditScript) (inputs : List Octets) :
    Octets × List (Octets × Octets) × EditState.Outcome :=
  let files := script.filesWritten.eraseDups.map fun name => (name, [])
  match editLinesOf setting.lineEnd inputs with
  | [] => ([], files, .status 0)
  | first :: left =>
    let fuel := 2 * inputs.flatten.length + 2
    let (s, outcome) := EditState.run setting (silent || script.silent) script.commands fuel
      ⟨first, 1, ⟨[], true⟩, [], left, [], false, files, script.openRanges, false, none⟩
    (s.written, s.toFiles, outcome)

end CommandDeck.Filter
