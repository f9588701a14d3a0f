import Mathlib.Logic.Relation
import CommandDeck.Proofs.Json.Members

/-!
# Rearranged documents

A schema says where in a document the records stand and which members they have. A document is
rearranged when the members of one of its records are put in another order, or when a member that the
record does not know is inserted, and it is faulty where a record has a member twice or lacks one that
it needs. A reader that follows a schema makes the same of rearranged documents and refuses the faulty
ones; lists and records follow their schemas when their items and members do.
-/

namespace CommandDeck.Json

/-- Where the records of a document stand: nowhere in a leaf, in each item of a list, and in a record
itself, which has the members `names` and needs those that are `needed`. -/
inductive Schema where
  | leaf
  | list (item : Schema)
  | record (names needed : List String) (inner : String → Schema)

/-- The schemas of the members of a record. -/
def Schema.inner : Schema → String → Schema
  | .record _ _ inner => inner
  | _ => fun _ => .leaf

/-- The second tree is the first with the members of one record in another order or with one more member
that the record does not know. -/
inductive Rearranges : Schema → Tree → Tree → Prop where
  | permute {names needed : List String} {inner : String → Schema}
      {members members' : List (Quoted × Tree)} (order : members.Perm members') :
      Rearranges (.record names needed inner) (.object members) (.object members')
  | insert {names needed : List String} {inner : String → Schema} {before after : List (Quoted × Tree)}
      {key : Quoted} {value : Tree} {name : String} (content : key.content? = some name)
      (unknown : name ∉ names) :
      Rearranges (.record names needed inner) (.object (before ++ after))
        (.object (before ++ (key, value) :: after))
  | member {names needed : List String} {inner : String → Schema} {before after : List (Quoted × Tree)}
      {key : Quoted} {t t' : Tree} {name : String} (content : key.content? = some name)
      (known : name ∈ names) (one : Rearranges (inner name) t t') :
      Rearranges (.record names needed inner) (.object (before ++ (key, t) :: after))
        (.object (before ++ (key, t') :: after))
  | place {names needed : List String} {inner : String → Schema} {before after : List Tree} {t t' : Tree}
      {name : String} (here : names[before.length]? = some name)
      (one : Rearranges (inner name) t t') :
      Rearranges (.record names needed inner) (.array (before ++ t :: after))
        (.array (before ++ t' :: after))
  | item {inner : Schema} {before after : List Tree} {t t' : Tree} (one : Rearranges inner t t') :
      Rearranges (.list inner) (.array (before ++ t :: after)) (.array (before ++ t' :: after))

/-- Some record has one of its members twice or lacks one that it needs. -/
inductive Faulty : Schema → Tree → Prop where
  | twice {names needed : List String} {inner : String → Schema}
      {before between after : List (Quoted × Tree)} {key key' : Quoted} {value value' : Tree}
      {name : String} (known : name ∈ names) (first : key.content? = some name)
      (second : key'.content? = some name) :
      Faulty (.record names needed inner)
        (.object (before ++ (key, value) :: (between ++ (key', value') :: after)))
  | lacking {names needed : List String} {inner : String → Schema} {members : List (Quoted × Tree)}
      {name : String} (wanted : name ∈ needed) (absent : ∀ m ∈ members, m.1.content? ≠ some name) :
      Faulty (.record names needed inner) (.object members)
  | member {names needed : List String} {inner : String → Schema} {before after : List (Quoted × Tree)}
      {key : Quoted} {t : Tree} {name : String} (content : key.content? = some name)
      (known : name ∈ names) (one : Faulty (inner name) t) :
      Faulty (.record names needed inner) (.object (before ++ (key, t) :: after))
  | place {names needed : List String} {inner : String → Schema} {before after : List Tree} {t : Tree}
      {name : String} (here : names[before.length]? = some name) (one : Faulty (inner name) t) :
      Faulty (.record names needed inner) (.array (before ++ t :: after))
  | item {inner : Schema} {before after : List Tree} {t : Tree} (one : Faulty inner t) :
      Faulty (.list inner) (.array (before ++ t :: after))

/-- The reader makes the same of rearranged trees and nothing of faulty ones. -/
structure Follows {α : Type} (n : Nat) (read : Reader α) (schema : Schema) : Prop
    extends ReadsTrees n read where
  stable : ∀ {t t' : Tree}, Rearranges schema t t' → decode read t' = decode read t
  refuses : ∀ {t : Tree}, Faulty schema t → decode read t = none

section Values

variable {α β : Type} {n : Nat} {read : Reader α} {read' : Reader β} {schema : Schema}

theorem ReadsTrees.leaf (h : ReadsTrees n read) : Follows n read .leaf where
  toReadsTrees := h
  stable := nofun
  refuses := nofun

theorem Follows.mono {k : Nat} (h : Follows n read schema) (le : n ≤ k) (room : k ≤ nestingLimit) :
    Follows k read schema where
  room := room
  denotes := fun enough => h.denotes (Nat.le_trans le enough)
  sound := h.sound
  stable := h.stable
  refuses := h.refuses

/-- However often a tree is rearranged, the same is made of it. -/
theorem Follows.rearranged (h : Follows n read schema) {t t' : Tree}
    (steps : Relation.ReflTransGen (Rearranges schema) t t') : decode read t' = decode read t := by
  induction steps with
  | refl => rfl
  | tail _ one ih => rw [h.stable one, ih]

theorem Follows.through {g : α → Option β} (h : Follows n read schema)
    (through : Through read g read') : Follows n read' schema where
  toReadsTrees := h.toReadsTrees.through through
  stable := fun rearranged => by
    rw [through.decode_eq, through.decode_eq, h.stable rearranged]
  refuses := fun faulty => by
    rw [through.decode_eq, h.refuses faulty]
    rfl

/-- The word `null` is no record and no list. -/
theorem Rearranges.present {t t' : Tree} (h : Rearranges schema t t') :
    t ≠ .scalar .null ∧ t' ≠ .scalar .null := by
  cases h <;> exact ⟨nofun, nofun⟩

theorem Faulty.present {t : Tree} (h : Faulty schema t) : t ≠ .scalar .null := by
  cases h <;> exact nofun

theorem Follows.optional (h : Follows n read schema) : Follows n (optional read) schema where
  toReadsTrees := h.toReadsTrees.optional
  stable := fun {t t'} rearranged => by
    obtain ⟨first, second⟩ := rearranged.present
    rw [h.decode_optional, h.decode_optional, optionalValue_of_ne first, optionalValue_of_ne second,
      h.stable rearranged]
  refuses := fun {t} faulty => by
    rw [h.decode_optional, optionalValue_of_ne faulty.present, h.refuses faulty]
    rfl

theorem Follows.list (h : Follows n read schema) (room : n + 1 ≤ nestingLimit) :
    Follows (n + 1) (list read) (.list schema) where
  toReadsTrees := h.toReadsTrees.list room
  stable := fun {t t'} rearranged => by
    rw [h.decode_list room, h.decode_list room]
    cases rearranged with
    | item one => simp only [listValue, List.mapM_append, List.mapM_cons, h.stable one]
  refuses := fun {t} faulty => by
    rw [h.decode_list room]
    cases faulty with
    | @item _ before after t one =>
      simp only [listValue, List.mapM_append, List.mapM_cons, h.refuses one]
      cases before.mapM (decode read) <;> rfl

end Values

section Records

variable {σ α β : Type} {n : Nat} {read : Reader α} {read' : Reader β} {set : σ → α → σ}
  {set' : σ → β → σ} {name name' : String} {presence presence' : Presence}

theorem through_member (name : String) (presence : Presence) (read : Reader α) (set : σ → α → σ) :
    Through read (fun a => some (set · a)) (Member.of name presence read set).put := by
  intro levels s
  rw [Member.of, toOption_map]
  cases (read levels s).toOption <;> rfl

theorem Follows.member {schema : Schema} (h : Follows n read schema) :
    Follows n (Member.of name presence read set).put schema :=
  h.through (through_member name presence read set)

/-- Members commute when they set different parts of the record. -/
theorem Member.commutes_of (apart : ∀ r a b, set (set' r b) a = set' (set r a) b) :
    (Member.of name presence read set).Commutes (Member.of name' presence' read' set') := by
  intro t t' c c' made made' r
  rw [(through_member name presence read set).decode_eq] at made
  rw [(through_member name' presence' read' set').decode_eq] at made'
  obtain ⟨a, -, same⟩ := Option.bind_eq_some_iff.mp made
  obtain ⟨b, -, same'⟩ := Option.bind_eq_some_iff.mp made'
  cases same
  cases same'
  exact apart r a b

end Records

section Records

variable {σ : Type} {n : Nat} {layout : RecordLayout σ} {names needed : List String}
  {inner : String → Schema}

/-- A record follows its schema when its members follow theirs and make their changes in any order. -/
theorem Follows.record (each : ∀ m ∈ layout.members, Follows n m.put (inner m.name))
    (commute : layout.members.Pairwise Member.Commutes)
    (known : layout.members.map (·.name) = names) (required : layout.required = needed)
    (room : n + 1 ≤ nestingLimit) : Follows (n + 1) layout.read (.record names needed inner) where
  toReadsTrees := RecordLayout.readsTrees (fun m mem => (each m mem).toReadsTrees) room
  stable := fun {t t'} rearranged => by
    subst known required
    have value := RecordLayout.decode_record (fun m mem => (each m mem).toReadsTrees) room
    rw [value, value]
    cases rearranged with
    | permute order => exact RecordLayout.ofMembers_perm commute order
    | insert content unknown =>
      exact RecordLayout.ofMembers_insert commute (RecordLayout.change?_unknown content unknown) _ _
    | member content known one =>
      obtain ⟨m, mem, rfl, brought⟩ := RecordLayout.change?_known content known
      refine RecordLayout.ofMembers_congr ?_ _ _
      rw [brought, brought, (each m mem).stable one]
    | place here one =>
      refine RecordLayout.placed_congr (fun m place => ?_) _
      rw [List.getElem?_map, place] at here
      cases here
      exact (each m (List.mem_of_getElem? place)).stable one
  refuses := fun {t} faulty => by
    subst known required
    rw [RecordLayout.decode_record (fun m mem => (each m mem).toReadsTrees) room]
    cases faulty with
    | twice known first second => exact RecordLayout.ofMembers_twice known first second _ _ _
    | lacking wanted absent => exact RecordLayout.ofMembers_lacking wanted absent
    | member content known one =>
      obtain ⟨m, mem, rfl, brought⟩ := RecordLayout.change?_known content known
      refine RecordLayout.ofMembers_refused (m := (_, _)) ?_ List.mem_append_cons_self
      rw [brought, (each m mem).refuses one]
      rfl
    | place here one =>
      refine RecordLayout.placed_refused (fun m place => ?_) _
      rw [List.getElem?_map, place] at here
      cases here
      exact (each m (List.mem_of_getElem? place)).refuses one

end Records

end CommandDeck.Json
