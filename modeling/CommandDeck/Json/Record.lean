import CommandDeck.Json.Skip

/-!
# Records

A record is written as an object, or as the list of its members in their order. In an object the
members come in any order, each at most once, and members that the record does not know are passed
over. When the object ends, the first required member that did not come is missing. In a list only
members at the end may be left out, and only those with a default.

Reading starts from a blank record and puts in each member as it comes.
-/

namespace CommandDeck.Json

/-- What a member may do without: nothing, its place in an object, or its place in a list too. -/
inductive Presence where
  | required
  | optional
  | defaulted
  deriving DecidableEq

/-- A member of the record `σ`: its name, when it may be left out, and how its value is put in. -/
structure Member (σ : Type) where
  name : String
  presence : Presence
  put : Reader (σ → σ)

/-- A member that is read by `read` and put in by `set`. -/
def Member.of {σ α : Type} (name : String) (presence : Presence) (read : Reader α)
    (set : σ → α → σ) : Member σ :=
  ⟨name, presence, fun levels s => (read levels s).map fun r => ((set · r.1), r.2)⟩

/-- The layout of a record: what it is called in messages, its members in order, and the record
before any of them is put in. -/
structure RecordLayout (σ : Type) where
  title : String
  members : List (Member σ)
  blank : σ

namespace RecordLayout

variable {σ : Type}

/-- A record under construction and the names of the members put in, the last first. -/
structure Progress (σ : Type) where
  record : σ
  seen : List String

/-- Reads the rest of a member whose key has been read. -/
def putMember (layout : RecordLayout σ) (progress : Progress σ) (key : String) :
    Reader (Progress σ) := fun levels s =>
  match layout.members.find? fun m => m.name == key with
  | none =>
    match colon s with
    | .error e => .error e
    | .ok s => (skipValue s).map fun rest => (progress, rest)
  | some m =>
    if progress.seen.contains key then .error (.duplicateField key)
    else match afterColon m.put levels s with
      | .error e => .error e
      | .ok (change, rest) => .ok (⟨change progress.record, key :: progress.seen⟩, rest)

/-- The first required member that is not among `seen`. -/
def missing? (layout : RecordLayout σ) (seen : List String) : Option String :=
  (layout.members.find? fun m => m.presence == .required && !seen.contains m.name).map (·.name)

/-- Reads what follows the opening brace of an object. -/
def ofObject (layout : RecordLayout σ) : Reader σ := fun levels s =>
  match membersTail layout.putMember ⟨layout.blank, []⟩ levels s with
  | .error e => .error e
  | .ok (progress, rest) =>
    match layout.missing? progress.seen with
    | some name => .error (.missingField name)
    | none => .ok (progress.record, rest)

/-- The members `left` as items of a list, from the text after the bracket or the last item. -/
def itemsInto (expected : String) :
    List (Member σ) → Nat → σ → Reader σ
  | [], _, record, _, s => .ok (record, s)
  | m :: left, index, record, levels, s =>
    match nextItem? (index == 0) s with
    | .error e => .error e
    | .ok none =>
      if m.presence = .defaulted then itemsInto expected left (index + 1) record levels s
      else .error (.invalidLength index expected)
    | .ok (some s) =>
      match m.put levels s with
      | .error e => .error e
      | .ok (change, s) => itemsInto expected left (index + 1) (change record) levels s

/-- Reads what follows the opening bracket of a list. -/
def ofList (layout : RecordLayout σ) : Reader σ := fun levels s =>
  let expected := layout.title ++ " with " ++
    String.ofList (NumberLayout.digits layout.members.length) ++ " elements"
  match itemsInto expected layout.members 0 layout.blank levels s with
  | .error e => .error e
  | .ok (record, s) => (endList s).map fun rest => (record, rest)

def read (layout : RecordLayout σ) : Reader σ := fun levels =>
  atValue fun c rest =>
    if c = '\x7b' then oneLevelDown layout.ofObject levels rest
    else if c = '[' then oneLevelDown layout.ofList levels rest
    else wrongKind layout.title c rest

end RecordLayout

/-- The names of an enumeration, each with its value. It is written as a string, or as an object with
the name as its only key and `null` as its value. -/
def variant {α : Type} (known : List (String × α)) : Reader α := fun levels s =>
  let named (name : String) : Except ReadError α :=
    match known.find? fun k => k.1 == name with
    | some k => .ok k.2
    | none => .error (.unknownVariant name (known.map (·.1)))
  match skipSpace s with
  | [] => .error (.unfinished .value)
  | '"' :: rest =>
    match readString rest with
    | .error e => .error e
    | .ok (name, rest) => (named name).map fun a => (a, rest)
  | '\x7b' :: rest =>
    let inner : Reader α := fun _ s =>
      match skipSpace s with
      | [] => .error (.unfinished .object)
      | '\x7d' :: _ => .error .expectedValue
      | '"' :: rest =>
        match readString rest with
        | .error e => .error e
        | .ok (name, rest) =>
          match named name with
          | .error e => .error e
          | .ok a =>
            match (colon rest).bind (atValue fun c rest =>
              if c = 'n' then (readNullTail rest).map fun s => ((), s)
              else wrongKind "unit" c rest) with
            | .error e => .error e
            | .ok (_, rest) =>
              match skipSpace rest with
              | [] => .error (.unfinished .object)
              | '\x7d' :: rest => .ok (a, rest)
              | _ => .error .expectedValue
      | _ => .error .keyNotString
    oneLevelDown inner levels rest
  | _ => .error .expectedValue

end CommandDeck.Json
