import CommandDeck.Toml.Scalar

/-!
# Reading a settings file

A file is a sequence of lines: assignments and headers of tables. Keys can be written with dots,
which descend into tables. No key may be given twice: a table that stands under a header, inline or
as an array is complete and is not extended, and only a table that a longer header or a dotted key
brought about may still get a header or more dotted keys of its own.
-/

namespace CommandDeck.Toml

/-- How a table came about. -/
inductive TableOrigin where
  | implied
  | dotted
  | header
  deriving DecidableEq

/-- A document under construction: a complete value, a table that may be extended, or an array of
tables of which the last may be. -/
inductive Node where
  | value (v : Value)
  | table (origin : TableOrigin) (members : List (String × Node))
  | tables (items : List (List (String × Node)))

/-- The members of a table, in the order in which they came. -/
abbrev Members := List (String × Node)

namespace Members

def find? (ms : Members) (key : String) : Option Node := (List.find? (fun m => m.1 == key) ms).map (·.2)

/-- Puts a node under a key, in the place of the one that is there. -/
def put (ms : Members) (key : String) (node : Node) : Members :=
  if ms.any fun m => m.1 == key then ms.map fun m => if m.1 == key then (key, node) else m
  else ms ++ [(key, node)]

/-- Changes the members of the last of an array of tables. -/
def changeLast (f : Members → Option Members) : List Members → Option (List Members)
  | [] => none
  | [ms] => (f ms).map fun ms => [ms]
  | ms :: rest => (changeLast f rest).map fun rest => ms :: rest

/-- Takes a key out and puts a node under it at the end. -/
def putLast (ms : Members) (key : String) (node : Node) : Members :=
  ms.filter (fun m => m.1 != key) ++ [(key, node)]

/-- Assigns a value to a key with dots. A table that a longer header brought about, and the last of an
array of tables, can be passed through, but get no key of their own in this way. -/
def assign (v : Value) : List String → Members → Option Members
  | [], _ => none
  | [key], ms =>
    match ms.find? key with
    | none => some (ms ++ [(key, .value v)])
    | some _ => none
  | key :: keys, ms =>
    match ms.find? key with
    | none => (assign v keys []).map fun inner => ms ++ [(key, .table .dotted inner)]
    | some (.table .dotted inner) =>
      (assign v keys inner).map fun inner => ms.put key (.table .dotted inner)
    | some (.table .implied inner) =>
      if keys.length ≤ 1 then none
      else (assign v keys inner).map fun inner => ms.put key (.table .implied inner)
    | some (.tables items) =>
      if keys.length ≤ 1 then none
      else (changeLast (assign v keys) items).map fun items => ms.put key (.tables items)
    | some _ => none

/-- Opens the table of a header. A table that a longer header brought about moves to the end of the
table it stands in. -/
def openTable : List String → Members → Option Members
  | [], ms => some ms
  | [key], ms =>
    match ms.find? key with
    | none => some (ms ++ [(key, .table .header [])])
    | some (.table .implied inner) => some (ms.putLast key (.table .header inner))
    | some _ => none
  | key :: keys, ms =>
    match ms.find? key with
    | none => (openTable keys []).map fun inner => ms ++ [(key, .table .implied inner)]
    | some (.table origin inner) =>
      (openTable keys inner).map fun inner => ms.put key (.table origin inner)
    | some (.tables items) =>
      (changeLast (openTable keys) items).map fun items => ms.put key (.tables items)
    | some (.value _) => none

/-- Begins a new table in the array of tables of a header. -/
def openItem : List String → Members → Option Members
  | [], ms => some ms
  | [key], ms =>
    match ms.find? key with
    | none => some (ms ++ [(key, .tables [[]])])
    | some (.tables items) => some (ms.put key (.tables (items ++ [[]])))
    | some _ => none
  | key :: keys, ms =>
    match ms.find? key with
    | none => (openItem keys []).map fun inner => ms ++ [(key, .table .implied inner)]
    | some (.table origin inner) =>
      (openItem keys inner).map fun inner => ms.put key (.table origin inner)
    | some (.tables items) =>
      (changeLast (openItem keys) items).map fun items => ms.put key (.tables items)
    | some (.value _) => none

/-- Changes the members of the table under a header that has been opened. -/
def within (f : Members → Option Members) : List String → Members → Option Members
  | [], ms => f ms
  | key :: keys, ms =>
    match ms.find? key with
    | some (.table origin inner) =>
      (within f keys inner).map fun inner => ms.put key (.table origin inner)
    | some (.tables items) =>
      (changeLast (within f keys) items).map fun items => ms.put key (.tables items)
    | _ => none

end Members

mutual

def Node.toValue : Node → Value
  | .value v => v
  | .table _ members => .table (membersToValues members)
  | .tables items => .array (tablesToValues items)

def membersToValues : List (String × Node) → List (String × Value)
  | [] => []
  | (key, node) :: rest => (key, node.toValue) :: membersToValues rest

def tablesToValues : List (List (String × Node)) → List Value
  | [] => []
  | members :: rest => .table (membersToValues members) :: tablesToValues rest

end

def isBareKeyChar (c : Char) : Bool := c.isAlphanum || c == '_' || c == '-'

def keyPart? : Scan String
  | '"' :: rest => basicTail rest [] rest
  | '\'' :: rest => literalTail [] rest
  | s =>
    let word := s.takeWhile isBareKeyChar
    if word.isEmpty then none else some (String.ofList word, s.dropWhile isBareKeyChar)

/-- The parts of a key, of which there are at most so many, with blanks around the dots. -/
def keyParts? : Nat → Scan (List String)
  | 0, _ => none
  | parts + 1, s =>
    match keyPart? (skipBlanks s) with
    | none => none
    | some (part, rest) =>
      match skipBlanks rest with
      | '.' :: rest => (keyParts? parts rest).map fun r => (part :: r.1, r.2)
      | rest => some ([part], rest)

/-- The arrays and tables that may be opened inside each other, and the parts that a key may have. -/
def nestingLimit : Nat := 80

def key? : Scan (List String) := keyParts? nestingLimit

/-- The text after a comment, up to the line break. -/
def skipComment? (s : List Char) : Option (List Char) :=
  match s.dropWhile isPrintable with
  | [] => some []
  | rest => (lineBreak? rest).map fun _ => rest

/-- The text after blanks, line breaks and comments. -/
def skipLines? : List Char → List Char → Option (List Char)
  | [], s => some s
  | _ :: budget, s =>
    match skipBlanks s with
    | [] => some []
    | '#' :: rest => (skipComment? rest).bind (skipLines? budget)
    | s =>
      match lineBreak? s with
      | some rest => skipLines? budget rest
      | none => some s

def items? (value? : Scan Value) : List Char → List Value → Scan (List Value)
  | [], _, _ => none
  | _ :: budget, before, s =>
    match skipLines? s s with
    | none => none
    | some (']' :: rest) => some (before.reverse, rest)
    | some s =>
      match value? s with
      | none => none
      | some (v, rest) =>
        match skipLines? rest rest with
        | some (',' :: rest) => items? value? budget (v :: before) rest
        | some (']' :: rest) => some ((v :: before).reverse, rest)
        | _ => none

/-- A member of an inline table. There may be line breaks on both sides of the equals sign. -/
def inlineMember? (value? : Scan Value) : Scan (List String × Value) := fun s =>
  match key? s with
  | none => none
  | some (keys, rest) =>
    match skipLines? rest rest with
    | some ('=' :: rest) =>
      match skipLines? rest rest with
      | none => none
      | some rest => (value? rest).map fun r => ((keys, r.1), r.2)
    | _ => none

/-- The members of an inline table up to its closing brace. -/
def inlineMembers? (value? : Scan Value) : List Char → Members → Scan Members
  | [], _, _ => none
  | _ :: budget, ms, s =>
    match skipLines? s s with
    | none => none
    | some ('\x7d' :: rest) => some (ms, rest)
    | some s =>
      match inlineMember? value? s with
      | none => none
      | some ((keys, v), rest) =>
        match Members.assign v keys ms with
        | none => none
        | some ms =>
          match skipLines? rest rest with
          | some (',' :: rest) => inlineMembers? value? budget ms rest
          | some ('\x7d' :: rest) => some (ms, rest)
          | _ => none

/-- Reads a value in which `levels` arrays and tables may be opened inside each other. -/
def value? : Nat → Scan Value
  | levels, s =>
    match s with
    | '"' :: _ => (string? s).map fun r => (.string r.1, r.2)
    | '\'' :: _ => (string? s).map fun r => (.string r.1, r.2)
    | '[' :: rest =>
      match levels with
      | 0 => none
      | levels + 1 => (items? (value? levels) rest [] rest).map fun r => (.array r.1, r.2)
    | '\x7b' :: rest =>
      match levels with
      | 0 => none
      | levels + 1 =>
        (inlineMembers? (value? levels) rest [] rest).map fun r =>
          (.table (membersToValues r.1), r.2)
    | s => bareValue? s

/-- The end of a line after an assignment or a header. -/
def endLine? (s : List Char) : Option (List Char) :=
  match skipBlanks s with
  | [] => some []
  | '#' :: rest => skipComment? rest
  | s => (lineBreak? s).map fun _ => s

/-- A document under construction and the header that the next assignment stands under. -/
structure Progress where
  root : Members
  header : List String

def line? (p : Progress) : Scan Progress
  | '[' :: '[' :: rest =>
    match key? rest with
    | some (keys, ']' :: ']' :: rest) =>
      (Members.openItem keys p.root).map fun root => (⟨root, keys⟩, rest)
    | _ => none
  | '[' :: rest =>
    match key? rest with
    | some (keys, ']' :: rest) =>
      (Members.openTable keys p.root).map fun root => (⟨root, keys⟩, rest)
    | _ => none
  | s =>
    match key? s with
    | some (keys, '=' :: rest) =>
      match value? nestingLimit (skipBlanks rest) with
      | some (v, rest) =>
        (Members.within (Members.assign v keys) p.header p.root).map fun root =>
          (⟨root, p.header⟩, rest)
      | none => none
    | _ => none

def lines? : List Char → Progress → List Char → Option Progress
  | budget, p, s =>
    match budget, skipLines? s s with
    | _, none => none
    | _, some [] => some p
    | [], some _ => none
    | _ :: budget, some s =>
      match line? p s with
      | none => none
      | some (p, rest) =>
        match endLine? rest with
        | none => none
        | some rest => lines? budget p rest

/-- The members of a settings file, or `none` if it does not follow the grammar. A byte order mark at
its beginning does not count. -/
def ofText? (text : String) : Option (List (String × Value)) :=
  let s := match text.toList with
    | c :: rest => if c.toNat = 0xFEFF then rest else c :: rest
    | [] => []
  (lines? s ⟨[], []⟩ s).map fun p => membersToValues p.root

end CommandDeck.Toml
