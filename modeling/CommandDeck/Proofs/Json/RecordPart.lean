import CommandDeck.Proofs.Json.Rearrangement
import CommandDeck.Proofs.Json.WrittenTree

/-!
# Parts of records

What a tree holds under the name of a member is found by the member's key in an object and in the
member's place in an array. When a member sets a part of a record and the members change the record in any
order, that part is what is made of the tree held under its name.
-/

namespace CommandDeck.Json

namespace RecordLayout

variable {σ : Type} (layout : RecordLayout σ) (name : String)

/-- The tree of a record holds `v` under the name of one of its members. -/
inductive Holds (v : Tree) : Tree → Prop where
  | member {members : List (Quoted × Tree)} {key : Quoted} (mem : (key, v) ∈ members)
      (content : key.content? = some name) : Holds v (.object members)
  | place {items : List Tree} {k : Nat} (here : (layout.members.map (·.name))[k]? = some name)
      (item : items[k]? = some v) : Holds v (.array items)

/-- The tree of a record holds a list with `v` at the place `k` under the name. -/
def HoldsItem (k : Nat) (v t : Tree) : Prop :=
  ∃ items, layout.Holds name (.array items) t ∧ items[k]? = some v

variable {layout} {name}

/-- A written object holds what its members are written as. -/
theorem holds_tree {v : Value} {members : List (String × Value)} (mem : (name, v) ∈ members) :
    layout.Holds name v.tree (Value.object members).tree := by
  rw [Value.tree, Value.memberTrees_eq]
  exact .member (List.mem_map.mpr ⟨_, mem, rfl⟩) (Quoted.content?_of name)

theorem holdsItem_tree {items : List Value} {v : Value} {k : Nat} {members : List (String × Value)}
    (mem : (name, .array items) ∈ members) (item : items[k]? = some v) :
    layout.HoldsItem name k v.tree (Value.object members).tree := by
  refine ⟨_, holds_tree mem, ?_⟩
  rw [Value.itemTrees_eq, List.getElem?_map, item, Option.map_some]

end RecordLayout

section Members

variable {σ α : Type}

/-- The member sets this part of the record to what is read. -/
def Member.Sets (m : Member σ) (read : Reader α) (part : σ → α) : Prop :=
  ∀ (t : Tree) (c : σ → σ), decode m.put t = some c →
    ∃ a, decode read t = some a ∧ ∀ r, part (c r) = a

variable {name : String} {presence : Presence} {read : Reader α} {set : σ → α → σ}

theorem Member.sets_of {part : σ → α} (same : ∀ r a, part (set r a) = a) :
    (Member.of name presence read set).Sets read part := by
  intro t c made
  rw [(through_member name presence read set).decode_eq] at made
  obtain ⟨a, value, change⟩ := Option.bind_eq_some_iff.mp made
  cases change
  exact ⟨a, value, fun r => same r a⟩

end Members

namespace RecordLayout

variable {σ α : Type} {layout : RecordLayout σ} {name : String} {read : Reader α} {part : σ → α}

/-- The member of this name sets the part, and members change the record in any order. -/
structure Owns (layout : RecordLayout σ) (name : String) (read : Reader α) (part : σ → α) : Prop where
  commute : layout.members.Pairwise Member.Commutes
  known : name ∈ layout.members.map (·.name)
  sets : ∀ m ∈ layout.members, m.name = name → m.Sets read part

/-- The member at a place of the layout owns the part that it sets. -/
theorem owns_at (k : Nat) {presence : Presence} {set : σ → α → σ}
    (here : layout.members[k]? = some (.of name presence read set))
    (distinct : (layout.members.map (·.name)).Nodup)
    (commute : layout.members.Pairwise Member.Commutes) (same : ∀ r a, part (set r a) = a) :
    layout.Owns name read part := by
  have mem := List.mem_of_getElem? here
  refine ⟨commute, List.mem_map.mpr ⟨_, mem, rfl⟩, fun m own named => ?_⟩
  rw [List.inj_on_of_nodup_map distinct own mem named]
  exact Member.sets_of same

/-! ### Objects -/

theorem applied_commutes {changes : List (String × (σ → σ))} {change : σ → σ}
    (each : ∀ c ∈ changes, ∀ r, c.2 (change r) = change (c.2 r)) (r : σ) :
    applied changes (change r) = change (applied changes r) := by
  induction changes generalizing r with
  | nil => rfl
  | cons c changes ih =>
    obtain ⟨one, others⟩ := List.forall_mem_cons.mp each
    change applied changes (c.2 (change r)) = change (applied changes (c.2 r))
    rw [one, ih others]

theorem ofMembers_held (owns : layout.Owns name read part) {members : List (Quoted × Tree)} {r : σ}
    (made : layout.ofMembers members = some r) {key : Quoted} {v : Tree} (mem : (key, v) ∈ members)
    (content : key.content? = some name) : decode read v = some (part r) := by
  obtain ⟨accepts, -, rfl⟩ := ofMembers_eq_some.mp made
  obtain ⟨change, brought⟩ := accepts.brings owns.known mem content
  obtain ⟨-, m, own, named, put⟩ := change?_some brought
  obtain ⟨a, value, sets⟩ := owns.sets m own named _ _ put
  have listed : (name, change) ∈ layout.changes members :=
    List.mem_filterMap.mpr ⟨(key, v), mem, by rw [brought]; rfl⟩
  -- the changes after this one belong to other members, so this one might as well be the last
  obtain ⟨before, after, parts⟩ := List.append_of_mem listed
  have once := accepts.once
  rw [parts, List.map_append, List.map_cons] at once
  have single := (List.nodup_cons.mp (List.nodup_append.mp once).2.1).1
  have later : ∀ c ∈ after, ∀ r, c.2 (change r) = change (c.2 r) := by
    intro c mem
    have other : c.1 ≠ name := fun same => single (List.mem_map.mpr ⟨c, mem, same⟩)
    have among : c ∈ layout.changes members := by
      rw [parts]
      exact List.mem_append_right _ (List.mem_cons_of_mem _ mem)
    exact changes_commute owns.commute among listed other
  have last : applied (layout.changes members) layout.blank =
      change (applied after (applied before layout.blank)) := by
    rw [← applied_commutes later, parts, applied, List.foldl_append, List.foldl_cons]
    rfl
  rw [value, last, sets]

/-! ### Arrays -/

theorem placed_commutes {left : List (Member σ)} {change : σ → σ}
    (each : ∀ m ∈ left, ∀ t c, decode m.put t = some c → ∀ r, c (change r) = change (c r))
    {items : List Tree} {record r : σ} (made : placed left items (change record) = some r) :
    ∃ r', r = change r' := by
  induction left generalizing items record with
  | nil =>
    cases items with
    | nil =>
      cases made
      exact ⟨record, rfl⟩
    | cons t items => cases made
  | cons m left ih =>
    obtain ⟨one, others⟩ := List.forall_mem_cons.mp each
    cases items with
    | nil =>
      rw [placed] at made
      split at made
      · exact ih others made
      · cases made
    | cons t items =>
      obtain ⟨c, put, made⟩ := Option.bind_eq_some_iff.mp made
      rw [one t c put] at made
      exact ih others made

theorem placed_held {left : List (Member σ)} (commute : left.Pairwise Member.Commutes)
    (sets : ∀ m ∈ left, m.name = name → m.Sets read part) {items : List Tree} {record r : σ}
    (made : placed left items record = some r) {k : Nat} {v : Tree}
    (here : (left.map (·.name))[k]? = some name) (item : items[k]? = some v) :
    decode read v = some (part r) := by
  induction left generalizing items record k with
  | nil => cases here
  | cons m left ih =>
    obtain ⟨first, commute⟩ := List.pairwise_cons.mp commute
    obtain ⟨own, sets⟩ := List.forall_mem_cons.mp sets
    cases items with
    | nil => cases item
    | cons t items =>
      obtain ⟨change, put, rest⟩ := Option.bind_eq_some_iff.mp made
      cases k with
      | zero =>
        cases here
        cases item
        obtain ⟨a, value, sets⟩ := own rfl _ _ put
        obtain ⟨r', rfl⟩ := placed_commutes
          (fun m' mem t c put' r => (first m' mem put put' r).symm) rest
        rw [value, sets]
      | succ k => exact ih commute sets rest here item

/-! ### Both forms -/

/-- The part of a record is what is made of the tree held under the name of the member that sets it. -/
theorem Owns.held (owns : layout.Owns name read part) {t v : Tree} {r : σ}
    (made : layout.recordValue t = some r) (holds : layout.Holds name v t) :
    decode read v = some (part r) := by
  cases holds with
  | member mem content => exact ofMembers_held owns made mem content
  | place here item => exact placed_held owns.commute owns.sets made here item

theorem exists_item {f : Tree → Option α} {items : List Tree} {kept : List α}
    (made : items.mapM f = some kept) {k : Nat} {t : Tree} (item : items[k]? = some t) :
    ∃ a, kept[k]? = some a ∧ f t = some a := by
  induction items generalizing kept k with
  | nil => cases item
  | cons first items ih =>
    rw [List.mapM_cons] at made
    obtain ⟨a, one, more⟩ := Option.bind_eq_some_iff.mp made
    obtain ⟨others, rest, same⟩ := Option.bind_eq_some_iff.mp more
    cases same
    cases k with
    | zero =>
      cases item
      exact ⟨a, rfl, one⟩
    | succ k => exact ih rest item

/-- When the part is a list, each of its items is what is made of the tree at its place. -/
theorem Owns.held_item {part : σ → List α} (owns : layout.Owns name (list read) part) {n : Nat}
    (reads : ReadsTrees n read) (room : n + 1 ≤ nestingLimit) {t v : Tree} {r : σ} {k : Nat}
    (made : layout.recordValue t = some r) (holds : layout.HoldsItem name k v t) :
    ∃ a, (part r)[k]? = some a ∧ decode read v = some a := by
  obtain ⟨items, holds, item⟩ := holds
  have value := owns.held made holds
  rw [reads.decode_list room] at value
  exact exists_item value item

end RecordLayout

end CommandDeck.Json
