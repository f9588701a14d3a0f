import Mathlib.Data.List.Nodup
import Mathlib.Data.List.Pairwise
import CommandDeck.Proofs.Json.RecordTree

/-!
# Members of records

An object is a record when none of its members is refused or comes twice and no required one is missing:
then the members have changed the blank record one after the other. When the changes of different
members commute, their order does not matter, and members that the record does not know never do.
-/

namespace CommandDeck.Json

/-- The changes of the two members can be made in either order. -/
def Member.Commutes {σ : Type} (m m' : Member σ) : Prop :=
  ∀ {t t' : Tree} {c c' : σ → σ}, decode m.put t = some c → decode m'.put t' = some c' →
    ∀ r, c (c' r) = c' (c r)

instance (σ : Type) : Std.Symm (@Member.Commutes σ) where
  symm _ _ h _ _ _ _ made made' r := (h made' made r).symm

namespace RecordLayout

variable {σ : Type} (layout : RecordLayout σ)

/-! ### What an object comes to -/

/-- What a member brings: `none` when it is refused, and then nothing when the record does not know it,
or its name and what it changes. -/
def change? (m : Quoted × Tree) : Option (Option (String × (σ → σ))) :=
  m.1.content?.bind fun key =>
    match layout.members.find? fun member => member.name == key with
    | none => some none
    | some member => (decode member.put m.2).map fun change => some (key, change)

/-- The changes that the members bring, in their order. -/
def changes (members : List (Quoted × Tree)) : List (String × (σ → σ)) :=
  members.filterMap fun m => (layout.change? m).join

/-- No member is refused, and none comes twice or is among those seen before. -/
structure Accepts (members : List (Quoted × Tree)) (seen : List String) : Prop where
  readable : ∀ m ∈ members, (layout.change? m).isSome = true
  once : ((layout.changes members).map (·.1)).Nodup
  fresh : ∀ c ∈ layout.changes members, c.1 ∉ seen

variable {layout}

theorem putKeyed_eq (p : Progress σ) (m : Quoted × Tree) :
    putKeyed layout.putValue p m =
      (layout.change? m).bind fun c? =>
        match c? with
        | none => some p
        | some c => if c.1 ∈ p.seen then none else some ⟨c.2 p.record, c.1 :: p.seen⟩ := by
  rw [putKeyed, change?]
  cases m.1.content? with
  | none => rfl
  | some key =>
    dsimp only [Option.bind_some]
    rw [putValue]
    cases layout.members.find? fun member => member.name == key with
    | none => rfl
    | some member =>
      simp only [List.contains_iff_mem]
      generalize decode member.put m.2 = change?
      cases change? with
      | none =>
        rw [Option.map_none, Option.map_none]
        split <;> rfl
      | some change => rfl

theorem accepts_nil (seen : List String) : layout.Accepts [] seen where
  readable := fun _ h => nomatch h
  once := List.nodup_nil
  fresh := fun _ h => nomatch h

theorem accepts_cons_none {m : Quoted × Tree} {members : List (Quoted × Tree)} {seen : List String}
    (unknown : layout.change? m = some none) :
    layout.Accepts (m :: members) seen ↔ layout.Accepts members seen := by
  have same : layout.changes (m :: members) = layout.changes members := by
    simp [changes, unknown]
  constructor
  · intro h
    refine ⟨fun _ mem => h.readable _ (List.mem_cons_of_mem _ mem), ?_, ?_⟩
    · exact same ▸ h.once
    · exact same ▸ h.fresh
  · intro h
    refine ⟨List.forall_mem_cons.mpr ⟨by rw [unknown]; rfl, h.readable⟩, ?_, ?_⟩
    · exact same.symm ▸ h.once
    · exact same.symm ▸ h.fresh

theorem accepts_cons_some {m : Quoted × Tree} {members : List (Quoted × Tree)} {seen : List String}
    {c : String × (σ → σ)} (known : layout.change? m = some (some c)) :
    layout.Accepts (m :: members) seen ↔ c.1 ∉ seen ∧ layout.Accepts members (c.1 :: seen) := by
  have same : layout.changes (m :: members) = c :: layout.changes members := by
    simp [changes, known]
  constructor
  · intro h
    have once := same ▸ h.once
    obtain ⟨first, fresh⟩ := List.forall_mem_cons.mp (same ▸ h.fresh)
    obtain ⟨single, once⟩ := List.nodup_cons.mp once
    refine ⟨first, fun _ mem => h.readable _ (List.mem_cons_of_mem _ mem), once, fun c' mem => ?_⟩
    rw [List.mem_cons, not_or]
    exact ⟨fun equal => single (List.mem_map.mpr ⟨c', mem, equal⟩), fresh c' mem⟩
  · rintro ⟨first, h⟩
    refine ⟨List.forall_mem_cons.mpr ⟨by rw [known]; rfl, h.readable⟩, ?_, ?_⟩
    · rw [same, List.map_cons, List.nodup_cons]
      refine ⟨fun mem => ?_, h.once⟩
      obtain ⟨c', mem, equal⟩ := List.mem_map.mp mem
      exact h.fresh c' mem (List.mem_cons.mpr (.inl equal))
    · rw [same, List.forall_mem_cons]
      exact ⟨first, fun c' mem seen => h.fresh c' mem (List.mem_cons_of_mem _ seen)⟩

theorem changes_cons_none {m : Quoted × Tree} (unknown : layout.change? m = some none)
    (members : List (Quoted × Tree)) : layout.changes (m :: members) = layout.changes members := by
  simp [changes, unknown]

theorem changes_cons_some {m : Quoted × Tree} {c : String × (σ → σ)}
    (known : layout.change? m = some (some c)) (members : List (Quoted × Tree)) :
    layout.changes (m :: members) = c :: layout.changes members := by
  simp [changes, known]

/-- The record after some changes. -/
def applied (changes : List (String × (σ → σ))) (record : σ) : σ :=
  changes.foldl (fun r c => c.2 r) record

theorem foldlM_putKeyed {members : List (Quoted × Tree)} {p q : Progress σ} :
    members.foldlM (putKeyed layout.putValue) p = some q ↔
      layout.Accepts members p.seen ∧
        q = ⟨applied (layout.changes members) p.record,
          ((layout.changes members).map (·.1)).reverse ++ p.seen⟩ := by
  -- The names seen so far grow with every change, so the progress is general.
  induction members generalizing p with
  | nil =>
    constructor
    · intro h
      cases h
      exact ⟨accepts_nil _, rfl⟩
    · rintro ⟨-, rfl⟩
      rfl
  | cons m members ih =>
    rw [List.foldlM_cons, putKeyed_eq]
    cases brought : layout.change? m with
    | none =>
      constructor
      · nofun
      · rintro ⟨accepts, -⟩
        have readable := accepts.readable m List.mem_cons_self
        rw [brought] at readable
        cases readable
    | some c? =>
      cases c? with
      | none =>
        rw [accepts_cons_none brought, changes_cons_none brought]
        exact ih
      | some c =>
        rw [accepts_cons_some brought, changes_cons_some brought]
        by_cases seen : c.1 ∈ p.seen
        · constructor
          · intro h
            simp [seen] at h
          · rintro ⟨⟨fresh, -⟩, -⟩
            exact absurd seen fresh
        · have next := ih (p := ⟨c.2 p.record, c.1 :: p.seen⟩)
          simp only [Option.bind_eq_bind, Option.bind_some, if_neg seen, next]
          simp [seen, applied]

theorem missing?_isNone_iff {keys : List String} :
    (layout.missing? keys).isNone = true ↔ ∀ name ∈ layout.required, name ∈ keys := by
  rw [Option.isNone_iff_eq_none]
  refine ⟨fun none name mem => ?_, missing?_eq_none⟩
  obtain ⟨m, filtered, rfl⟩ := List.mem_map.mp mem
  obtain ⟨member, wanted⟩ := List.mem_filter.mp filtered
  rw [missing?, Option.map_eq_none_iff, List.find?_eq_none] at none
  have found := none m member
  simpa [wanted] using found

/-- An object is a record exactly when no member is refused or comes twice and none is missing, and
then each has changed the record in turn. -/
theorem ofMembers_eq_some {members : List (Quoted × Tree)} {r : σ} :
    layout.ofMembers members = some r ↔
      layout.Accepts members [] ∧
        (∀ name ∈ layout.required, name ∈ (layout.changes members).map (·.1)) ∧
        r = applied (layout.changes members) layout.blank := by
  rw [ofMembers, Option.bind_eq_some_iff]
  constructor
  · rintro ⟨p, folded, done⟩
    obtain ⟨accepts, rfl⟩ := foldlM_putKeyed.mp folded
    split at done
    · rename_i complete
      cases done
      refine ⟨accepts, ?_, rfl⟩
      simpa using missing?_isNone_iff.mp complete
    · cases done
  · rintro ⟨accepts, complete, rfl⟩
    refine ⟨_, foldlM_putKeyed.mpr ⟨accepts, rfl⟩, if_pos ?_⟩
    exact missing?_isNone_iff.mpr (by simpa using complete)

theorem change?_some {m : Quoted × Tree} {c : String × (σ → σ)}
    (h : layout.change? m = some (some c)) :
    m.1.content? = some c.1 ∧
      ∃ member ∈ layout.members, member.name = c.1 ∧ decode member.put m.2 = some c.2 := by
  obtain ⟨key, content, brought⟩ := Option.bind_eq_some_iff.mp h
  split at brought
  · cases brought
  · rename_i member found
    obtain ⟨change, made, same⟩ := Option.map_eq_some_iff.mp brought
    cases same
    have name := List.find?_some found
    exact ⟨content, member, List.mem_of_find?_eq_some found, by simpa using name, made⟩

theorem mem_changes {members : List (Quoted × Tree)} {c : String × (σ → σ)}
    (h : c ∈ layout.changes members) : ∃ m ∈ members, layout.change? m = some (some c) := by
  obtain ⟨m, mem, brought⟩ := List.mem_filterMap.mp h
  exact ⟨m, mem, Option.join_eq_some_iff.mp brought⟩

section Order

variable (commute : layout.members.Pairwise Member.Commutes) {members members' : List (Quoted × Tree)}

include commute

/-- The changes of different members can be made in either order. -/
theorem changes_commute {c c' : String × (σ → σ)} (first : c ∈ layout.changes members)
    (second : c' ∈ layout.changes members) (different : c.1 ≠ c'.1) (r : σ) :
    c.2 (c'.2 r) = c'.2 (c.2 r) := by
  obtain ⟨_, -, brought⟩ := mem_changes first
  obtain ⟨_, -, brought'⟩ := mem_changes second
  obtain ⟨-, m, mem, name, made⟩ := change?_some brought
  obtain ⟨-, m', mem', name', made'⟩ := change?_some brought'
  have apart : m ≠ m' := fun same => different (by rw [← name, ← name', same])
  exact commute.forall mem mem' apart made made' r

theorem applied_perm (order : members.Perm members')
    (once : ((layout.changes members).map (·.1)).Nodup) (r : σ) :
    applied (layout.changes members') r = applied (layout.changes members) r := by
  refine ((order.filterMap _).foldl_eq' ?_ r).symm
  intro c first c' second r
  by_cases same : c.1 = c'.1
  · rw [List.inj_on_of_nodup_map once first second same]
  · exact changes_commute commute second first (Ne.symm same) r

/-- The order of the members does not matter. -/
theorem ofMembers_perm (order : members.Perm members') :
    layout.ofMembers members' = layout.ofMembers members := by
  have forward : ∀ {members members' : List (Quoted × Tree)} {r : σ}, members.Perm members' →
      layout.ofMembers members = some r → layout.ofMembers members' = some r := by
    intro members members' r order h
    obtain ⟨accepts, complete, rfl⟩ := ofMembers_eq_some.mp h
    -- What is accepted and what is missing depends only on which members there are.
    have changes : (layout.changes members).Perm (layout.changes members') := order.filterMap _
    refine ofMembers_eq_some.mpr ⟨⟨?_, ?_, ?_⟩, ?_, ?_⟩
    · exact fun m mem => accepts.readable m (order.mem_iff.mpr mem)
    · exact (changes.map _).nodup_iff.mp accepts.once
    · exact fun c mem => accepts.fresh c (changes.mem_iff.mpr mem)
    · exact fun name mem => (changes.map _).mem_iff.mp (complete name mem)
    · exact (applied_perm commute order accepts.once _).symm
  ext r
  exact ⟨forward order.symm, forward order⟩

/-- A member that the record does not know is passed over. -/
theorem ofMembers_insert {m : Quoted × Tree} (unknown : layout.change? m = some none)
    (before after : List (Quoted × Tree)) :
    layout.ofMembers (before ++ m :: after) = layout.ofMembers (before ++ after) := by
  rw [ofMembers_perm commute List.perm_middle.symm]
  ext r
  rw [ofMembers_eq_some, ofMembers_eq_some, accepts_cons_none unknown, changes_cons_none unknown]

end Order

theorem ofMembers_congr {m m' : Quoted × Tree} (same : layout.change? m' = layout.change? m)
    (before after : List (Quoted × Tree)) :
    layout.ofMembers (before ++ m' :: after) = layout.ofMembers (before ++ m :: after) := by
  simp only [ofMembers, List.foldlM_append, List.foldlM_cons, putKeyed_eq, same]

theorem ofMembers_refused {m : Quoted × Tree} (refused : layout.change? m = none)
    {members : List (Quoted × Tree)} (mem : m ∈ members) : layout.ofMembers members = none := by
  rw [Option.eq_none_iff_forall_ne_some]
  intro r h
  have readable := (ofMembers_eq_some.mp h).1.readable m mem
  rw [refused] at readable
  cases readable

theorem ofMembers_lacking {name : String} (wanted : name ∈ layout.required)
    {members : List (Quoted × Tree)} (absent : ∀ m ∈ members, m.1.content? ≠ some name) :
    layout.ofMembers members = none := by
  rw [Option.eq_none_iff_forall_ne_some]
  intro r h
  obtain ⟨c, mem, rfl⟩ := List.mem_map.mp ((ofMembers_eq_some.mp h).2.1 name wanted)
  obtain ⟨m, mem, brought⟩ := mem_changes mem
  exact absent m mem (change?_some brought).1

/-- A key that names a member brings what the member makes of the value. -/
theorem change?_known {key : Quoted} {name : String} (content : key.content? = some name)
    (known : name ∈ layout.members.map (·.name)) :
    ∃ member ∈ layout.members, member.name = name ∧ ∀ value, layout.change? (key, value) =
      (decode member.put value).map fun change => some (name, change) := by
  obtain ⟨m, mem, named⟩ := List.mem_map.mp known
  cases found : layout.members.find? fun member => member.name == name with
  | none => exact absurd named (by simpa using List.find?_eq_none.mp found m mem)
  | some member =>
    refine ⟨member, List.mem_of_find?_eq_some found, by simpa using List.find?_some found, ?_⟩
    intro value
    rw [change?, content, Option.bind_some, found]

/-- A key that names no member brings nothing. -/
theorem change?_unknown {m : Quoted × Tree} {name : String} (content : m.1.content? = some name)
    (unknown : name ∉ layout.members.map (·.name)) : layout.change? m = some none := by
  have none : layout.members.find? (fun member => member.name == name) = none := by
    rw [List.find?_eq_none]
    intro member mem same
    exact unknown (List.mem_map.mpr ⟨member, mem, by simpa using same⟩)
  rw [change?, content, Option.bind_some, none]

/-- A member that is not refused brings its change. -/
theorem Accepts.brings {members : List (Quoted × Tree)} {seen : List String}
    (h : layout.Accepts members seen) {name : String} (known : name ∈ layout.members.map (·.name))
    {m : Quoted × Tree} (mem : m ∈ members) (content : m.1.content? = some name) :
    ∃ change, layout.change? m = some (some (name, change)) := by
  obtain ⟨member, -, -, brought⟩ := change?_known content known
  have readable := h.readable m mem
  rw [brought m.2, Option.isSome_map] at readable
  obtain ⟨change, made⟩ := Option.isSome_iff_exists.mp readable
  exact ⟨change, by rw [brought m.2, made, Option.map_some]⟩

theorem ofMembers_twice {name : String} (known : name ∈ layout.members.map (·.name))
    {m m' : Quoted × Tree} (first : m.1.content? = some name) (second : m'.1.content? = some name)
    (before between after : List (Quoted × Tree)) :
    layout.ofMembers (before ++ m :: (between ++ m' :: after)) = none := by
  rw [Option.eq_none_iff_forall_ne_some]
  intro r h
  have accepts := (ofMembers_eq_some.mp h).1
  obtain ⟨_, one⟩ := accepts.brings known (m := m) (by simp) first
  obtain ⟨_, other⟩ := accepts.brings known (m := m') (by simp) second
  have once := (List.nodup_append.mp (by simpa [changes, one, other] using accepts.once)).2.1
  exact (List.nodup_cons.mp once).1 (by simp)

/-! ### What an array comes to -/

theorem placed_congr {t t' : Tree} {before after : List Tree} {left : List (Member σ)}
    (same : ∀ m, left[before.length]? = some m → decode m.put t' = decode m.put t) (record : σ) :
    placed left (before ++ t' :: after) record = placed left (before ++ t :: after) record := by
  induction before generalizing left record with
  | nil =>
    cases left with
    | nil => rfl
    | cons m left => rw [List.nil_append, List.nil_append, placed, placed, same m rfl]
  | cons b before ih =>
    cases left with
    | nil => rfl
    | cons m left =>
      rw [List.cons_append, List.cons_append, placed, placed]
      congr 1
      funext change
      exact ih (fun m' here => same m' (by simpa using here)) _

theorem placed_refused {t : Tree} {before after : List Tree} {left : List (Member σ)}
    (refused : ∀ m, left[before.length]? = some m → decode m.put t = none) (record : σ) :
    placed left (before ++ t :: after) record = none := by
  induction before generalizing left record with
  | nil =>
    cases left with
    | nil => rfl
    | cons m left =>
      rw [List.nil_append, placed, refused m rfl]
      rfl
  | cons b before ih =>
    cases left with
    | nil => rfl
    | cons m left =>
      rw [List.cons_append, placed]
      cases decode m.put b with
      | none => rfl
      | some change => exact ih (fun m' here => refused m' (by simpa using here)) _

end RecordLayout

end CommandDeck.Json
