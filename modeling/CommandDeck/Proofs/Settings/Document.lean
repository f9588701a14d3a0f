import CommandDeck.Proofs.Toml.Assignment
import CommandDeck.Settings

/-!
# Settings read back from their text

The text of settings has a line for every key that is given, and each line is read as the value of its
key. The members of the file, put one after the other into empty settings, are the settings again.
-/

namespace CommandDeck

namespace SettingKey

theorem ofName?_name (k : SettingKey) : ofName? k.name = some k := by
  cases k <;> decide

theorem name_injective {k l : SettingKey} (h : k.name = l.name) : k = l := by
  have same := (ofName?_name k).symm.trans ((congrArg ofName? h).trans (ofName?_name l))
  exact Option.some.inj same

theorem isBareKey_name (k : SettingKey) : Toml.IsBareKey k.name := by
  cases k <;> exact ⟨by decide, List.all_eq_true.mp rfl⟩

theorem mem_all (k : SettingKey) : k ∈ all := by
  cases k <;> decide

theorem nodup_all : all.Nodup := by decide

end SettingKey

namespace Settings

open Toml (Denotes assignment)

/-- The delays fit 64 bits, as those of settings do that are set or read. -/
def Bounded (s : Settings) : Prop :=
  ∀ delay? ∈ [s.syncDelay?, s.resolveDelay?, s.bridgeDelay?, s.payloadDelay?],
    ∀ n ∈ delay?, n ≤ millisLimit

instance (s : Settings) : Decidable s.Bounded :=
  inferInstanceAs (Decidable (∀ delay? ∈ [s.syncDelay?, s.resolveDelay?, s.bridgeDelay?,
    s.payloadDelay?], ∀ n ∈ delay?, n ≤ millisLimit))

/-- The value of a key in a settings file. -/
def value? (s : Settings) : SettingKey → Option Toml.Value
  | .account => s.account?.map .string
  | .syncDelay => s.syncDelay?.map fun (n : Nat) => .integer n
  | .resolveDelay => s.resolveDelay?.map fun (n : Nat) => .integer n
  | .bridgeDelay => s.bridgeDelay?.map fun (n : Nat) => .integer n
  | .payloadDelay => s.payloadDelay?.map fun (n : Nat) => .integer n
  | .seedDemo => s.seedDemo?.map .boolean
  | .manifests => s.manifests?.map fun paths => .array (paths.map .string)

/-- The settings without the value of a key. -/
def without (s : Settings) : SettingKey → Settings
  | .account => { s with account? := none }
  | .syncDelay => { s with syncDelay? := none }
  | .resolveDelay => { s with resolveDelay? := none }
  | .bridgeDelay => { s with bridgeDelay? := none }
  | .payloadDelay => { s with payloadDelay? := none }
  | .seedDemo => { s with seedDemo? := none }
  | .manifests => { s with manifests? := none }

/-- The members of a settings file that come from some of the keys. -/
def members (s : Settings) (keys : List SettingKey) : List (String × Toml.Value) :=
  keys.filterMap fun k => (s.value? k).map fun v => (k.name, v)

/-- Settings are known by the values of their keys. -/
theorem ext_value? {s t : Settings} (h : ∀ k, s.value? k = t.value? k) : s = t := by
  have delay : Function.Injective fun n : Nat => Toml.Value.integer n :=
    fun a b e => Int.ofNat.inj (Toml.Value.integer.inj e)
  have text : Function.Injective Toml.Value.string := fun a b => Toml.Value.string.inj
  have paths : Function.Injective fun l : List String => Toml.Value.array (l.map .string) :=
    fun a b e => List.map_injective_iff.mpr text (Toml.Value.array.inj e)
  cases s
  cases t
  rw [mk.injEq]
  exact ⟨Option.map_injective text (h .account), Option.map_injective delay (h .syncDelay),
    Option.map_injective delay (h .resolveDelay), Option.map_injective delay (h .bridgeDelay),
    Option.map_injective delay (h .payloadDelay),
    Option.map_injective (fun a b => Toml.Value.boolean.inj) (h .seedDemo),
    Option.map_injective paths (h .manifests)⟩

theorem value?_without (s : Settings) {k l : SettingKey} (other : l ≠ k) :
    (s.without k).value? l = s.value? l := by
  cases k <;> cases l <;> first | rfl | exact absurd rfl other

theorem value?_of_without {s t : Settings} {k l : SettingKey} (same : t.without k = s.without k)
    (other : l ≠ k) : t.value? l = s.value? l := by
  rw [← value?_without t other, same, value?_without s other]

theorem bounded_iff {s : Settings} :
    s.Bounded ↔ ∀ k (n : Nat), s.value? k = some (.integer n) → n ≤ millisLimit := by
  simp only [Bounded, List.forall_mem_cons]
  constructor
  · rintro ⟨sync, resolve, bridge, payload, -⟩ k n value
    cases k with
    | account | seedDemo | manifests =>
      obtain ⟨a, -, e⟩ := Option.map_eq_some_iff.mp value
      cases e
    | syncDelay =>
      obtain ⟨m, given, e⟩ := Option.map_eq_some_iff.mp value
      cases e
      exact sync n given
    | resolveDelay =>
      obtain ⟨m, given, e⟩ := Option.map_eq_some_iff.mp value
      cases e
      exact resolve n given
    | bridgeDelay =>
      obtain ⟨m, given, e⟩ := Option.map_eq_some_iff.mp value
      cases e
      exact bridge n given
    | payloadDelay =>
      obtain ⟨m, given, e⟩ := Option.map_eq_some_iff.mp value
      cases e
      exact payload n given
  · intro h
    exact ⟨fun n given => h .syncDelay n (congrArg (Option.map _) given),
      fun n given => h .resolveDelay n (congrArg (Option.map _) given),
      fun n given => h .bridgeDelay n (congrArg (Option.map _) given),
      fun n given => h .payloadDelay n (congrArg (Option.map _) given), fun _ h => nomatch h⟩

/-! ### The text -/

theorem denotes_boolText (b : Bool) : Denotes (boolText b).toList (.boolean b) := by
  cases b with
  | true => exact Toml.denotes_true
  | false => exact Toml.denotes_false

theorem denotes_writeList (paths : List String) :
    Denotes (writeList paths) (.array (paths.map .string)) := by
  match paths with
  | [] => exact Toml.denotes_noItems
  | [path] => exact Toml.denotes_oneItem path
  | first :: second :: more => exact Toml.denotes_itemLines (first :: second :: more)

/-- Two readings of a setting: as a text and as the value that the text denotes. -/
theorem denotes_map {α : Type} {write : α → List Char} {value : α → Toml.Value}
    (h : ∀ a, Denotes (write a) (value a)) (a? : Option α) :
    (a?.map value = none ∧ a?.map write = none) ∨
      ∃ v w, a?.map value = some v ∧ a?.map write = some w ∧ Denotes w v := by
  cases a? with
  | none => exact .inl ⟨rfl, rfl⟩
  | some a => exact .inr ⟨value a, write a, rfl, rfl, h a⟩

/-- A key that is given is written as its value. -/
theorem writeValue?_denotes (s : Settings) (k : SettingKey) :
    (s.value? k = none ∧ s.writeValue? k = none) ∨
      ∃ v w, s.value? k = some v ∧ s.writeValue? k = some w ∧ Denotes w v := by
  cases k with
  | account => exact denotes_map Toml.denotes_string _
  | syncDelay => exact denotes_map Toml.denotes_integer _
  | resolveDelay => exact denotes_map Toml.denotes_integer _
  | bridgeDelay => exact denotes_map Toml.denotes_integer _
  | payloadDelay => exact denotes_map Toml.denotes_integer _
  | seedDemo => exact denotes_map denotes_boolText _
  | manifests => exact denotes_map denotes_writeList _

theorem lines?_writeLines (s : Settings) {keys : List SettingKey} (nodup : keys.Nodup)
    {root : Toml.Members} (fresh : ∀ k ∈ keys, root.find? k.name = none) (budget : List Char)
    (long : (keys.flatMap s.writeLine).length ≤ budget.length) :
    Toml.lines? budget ⟨root, []⟩ (keys.flatMap s.writeLine) =
      some ⟨root ++ (s.members keys).map fun m => (m.1, .value m.2), []⟩ := by
  induction keys generalizing root budget with
  | nil => simp [members, Toml.lines?_nil]
  | cons k keys ih =>
    obtain ⟨other, nodup⟩ := List.nodup_cons.mp nodup
    obtain ⟨absent, fresh⟩ := List.forall_mem_cons.mp fresh
    rw [List.flatMap_cons] at long ⊢
    rcases s.writeValue?_denotes k with ⟨noValue, noText⟩ | ⟨v, w, value, text, denotes⟩
    · have line : s.writeLine k = [] := by simp only [writeLine, noText]
      have skipped : s.members (k :: keys) = s.members keys := by simp [members, noValue]
      rw [line, List.nil_append] at long ⊢
      rw [skipped]
      exact ih nodup fresh budget long
    · have line : s.writeLine k = assignment k.name w := by simp only [writeLine, text, assignment]
      have taken : s.members (k :: keys) = (k.name, v) :: s.members keys := by simp [members, value]
      rw [line, List.length_append] at long
      have nonempty : 0 < (assignment k.name w).length := by
        simp only [assignment, List.length_append, List.length_cons]
        omega
      obtain ⟨b, budget, rfl⟩ := List.exists_cons_of_length_pos (l := budget) (by omega)
      rw [List.length_cons] at long
      have fresh' : ∀ l ∈ keys, (root ++ [(k.name, .value v)] : Toml.Members).find? l.name = none := by
        intro l hl
        have distinct : k.name ≠ l.name := fun e => other (SettingKey.name_injective e ▸ hl)
        have before := fresh l hl
        simp only [Toml.Members.find?, Option.map_eq_none_iff] at before ⊢
        simp [List.find?_append, before, distinct]
      rw [line, Toml.lines?_assignment k.isBareKey_name denotes absent, ih nodup fresh' _ (by omega),
        taken, List.map_cons, List.append_assoc, List.singleton_append]

theorem membersToValues_map (ms : List (String × Toml.Value)) :
    Toml.membersToValues (ms.map fun m => (m.1, .value m.2)) = ms := by
  induction ms with
  | nil => rfl
  | cons m ms ih => rw [List.map_cons, Toml.membersToValues, ih, Toml.Node.toValue]

theorem writeLines_head (s : Settings) (keys : List SettingKey) :
    ∀ c ∈ (keys.flatMap s.writeLine).head?, Toml.isBareKeyChar c = true := by
  induction keys with
  | nil => exact fun c h => nomatch h
  | cons k keys ih =>
    rw [List.flatMap_cons, writeLine]
    split
    · obtain ⟨c, more, parts, word⟩ := k.isBareKey_name.exists_head
      rw [parts]
      rintro d ⟨⟩
      exact word
    · exact ih

theorem ofText?_toText (s : Settings) : Toml.ofText? s.toText = some (s.members SettingKey.all) := by
  have unmarked : ∀ c ∈ (SettingKey.all.flatMap s.writeLine).head?, c.toNat ≠ 0xFEFF := by
    intro c hc mark
    have word := s.writeLines_head SettingKey.all c hc
    exact Toml.ne_of_isBareKeyChar (d := '\uFEFF') word rfl (Char.toNat_inj.mp mark)
  have fresh : ∀ k ∈ SettingKey.all, Toml.Members.find? [] k.name = none := fun _ _ => rfl
  have lines := s.lines?_writeLines SettingKey.nodup_all fresh (SettingKey.all.flatMap s.writeLine)
    (Nat.le_refl _)
  rw [Toml.ofText?, toText, String.toList_ofList]
  revert unmarked lines
  cases SettingKey.all.flatMap s.writeLine with
  | nil =>
    intro _ lines
    simp only [lines, Option.map_some, List.nil_append, membersToValues_map]
  | cons c rest =>
    intro unmarked lines
    simp only [if_neg (unmarked c rfl), lines, Option.map_some, List.nil_append,
      membersToValues_map]

/-! ### The members -/

theorem textValues_map (texts : List String) :
    textValues (texts.map .string) = .ok texts := by
  induction texts with
  | nil => rfl
  | cons s texts ih => rw [List.map_cons, textValues, textValue, ih]; rfl

theorem millisValue_integer {n : Nat} (bounded : n ≤ millisLimit) :
    millisValue (.integer n) = .ok n := by
  rw [millisValue, if_pos ⟨Int.natCast_nonneg n, Int.ofNat_le.mpr bounded⟩, Int.toNat_natCast]

/-- The value of a key of settings is taken into other settings, and no other key changes. -/
theorem putValue_value? {s : Settings} (bounded : s.Bounded) {k : SettingKey} {v : Toml.Value}
    (value : s.value? k = some v) (acc : Settings) :
    ∃ t, acc.putValue k v = .ok t ∧ t.value? k = some v ∧ t.without k = acc.without k := by
  cases k with
  | account =>
    obtain ⟨a, -, rfl⟩ := Option.map_eq_some_iff.mp value
    exact ⟨_, rfl, rfl, rfl⟩
  | syncDelay | resolveDelay | bridgeDelay | payloadDelay =>
    obtain ⟨n, -, rfl⟩ := Option.map_eq_some_iff.mp value
    have read := millisValue_integer (bounded_iff.mp bounded _ n value)
    exact ⟨_, congrArg (Except.map _) read, rfl, rfl⟩
  | seedDemo =>
    obtain ⟨b, -, rfl⟩ := Option.map_eq_some_iff.mp value
    exact ⟨_, rfl, rfl, rfl⟩
  | manifests =>
    obtain ⟨paths, -, rfl⟩ := Option.map_eq_some_iff.mp value
    exact ⟨_, congrArg (Except.map _) (textValues_map paths), rfl, rfl⟩

/-- Some settings have the values of others for the keys at which those have any, as far as they are among
the given ones, and elsewhere those from before. -/
def Filled (s : Settings) (keys : List SettingKey) (before after : Settings) : Prop :=
  ∀ l, after.value? l = if l ∈ keys then (s.value? l).or (before.value? l) else before.value? l

namespace Filled

variable {s before next after : Settings} {k : SettingKey} {keys : List SettingKey}

theorem nil (s before : Settings) : Filled s [] before before := fun l => by simp

theorem skip (none : s.value? k = none) (h : Filled s keys before after) :
    Filled s (k :: keys) before after := by
  intro l
  rw [h l]
  by_cases first : l = k
  · subst first
    simp [none]
  · simp [first]

theorem take {v : Toml.Value} (value : s.value? k = some v) (own : next.value? k = some v)
    (others : next.without k = before.without k) (h : Filled s keys next after) :
    Filled s (k :: keys) before after := by
  intro l
  rw [h l]
  by_cases first : l = k
  · subst first
    simp [value, own]
  · simp [first, value?_of_without others first]

/-- Settings that were empty are the others when all keys are filled. -/
theorem eq (h : Filled s SettingKey.all empty after) : after = s := by
  refine ext_value? fun k => ?_
  rw [h k, if_pos k.mem_all]
  cases k <;> exact Option.or_none

end Filled

/-- Settings into which the members of some keys are put have these values, and for the other keys
those from before. -/
theorem putMembers_members {s : Settings} (bounded : s.Bounded) (keys : List SettingKey)
    (acc : Settings) : ∃ t, acc.putMembers (s.members keys) = .ok t ∧ Filled s keys acc t := by
  induction keys generalizing acc with
  | nil => exact ⟨acc, rfl, .nil s acc⟩
  | cons k keys ih =>
    cases value : s.value? k with
    | none =>
      have skipped : s.members (k :: keys) = s.members keys := by simp [members, value]
      obtain ⟨t, put, filled⟩ := ih acc
      exact ⟨t, skipped ▸ put, filled.skip value⟩
    | some v =>
      have taken : s.members (k :: keys) = (k.name, v) :: s.members keys := by simp [members, value]
      obtain ⟨next, putFirst, own, others⟩ := putValue_value? bounded value acc
      obtain ⟨t, put, filled⟩ := ih next
      refine ⟨t, ?_, filled.take value own others⟩
      rw [taken, putMembers, k.ofName?_name]
      simp only [putFirst, put]

/-- The text of settings is read as these settings. -/
theorem ofText_toText {s : Settings} (bounded : s.Bounded) : ofText s.toText = .ok s := by
  obtain ⟨t, put, filled⟩ := putMembers_members bounded SettingKey.all empty
  rw [ofText, ofText?_toText]
  simp only [put, filled.eq]

/-! ### Settings that are read or changed -/

/-- One settings come from others by a value for a key, a delay one that fits 64 bits. -/
structure Changes (s : Settings) (k : SettingKey) (t : Settings) : Prop where
  others : t.without k = s.without k
  fits : ∀ n : Nat, t.value? k = some (.integer n) → n ≤ millisLimit

theorem Changes.bounded {s t : Settings} {k : SettingKey} (h : s.Changes k t)
    (bounded : s.Bounded) : t.Bounded := by
  refine bounded_iff.mpr fun l n value => ?_
  by_cases same : l = k
  · subst same
    exact h.fits n value
  · exact bounded_iff.mp bounded l n ((value?_of_without h.others same).symm.trans value)

theorem map_ok {ε α β : Type} {f : α → β} {x : Except ε α} {b : β} (h : x.map f = .ok b) :
    ∃ a, x = .ok a ∧ f a = b := by
  cases x with
  | error e => cases h
  | ok a => exact ⟨a, rfl, Except.ok.inj h⟩

theorem millisValue_le {v : Toml.Value} {n : Nat} (h : millisValue v = .ok n) : n ≤ millisLimit := by
  cases v with
  | integer i =>
    rw [millisValue] at h
    split at h
    · cases h
      omega
    · split at h <;> cases h
  | _ => cases h

theorem millisOfText?_le {text : String} {n : Nat} (h : millisOfText? text = some n) :
    n ≤ millisLimit := by
  simp only [millisOfText?, Option.ite_none_left_eq_some, Option.ite_none_right_eq_some,
    Option.some.injEq] at h
  obtain ⟨-, fits, rfl⟩ := h
  exact fits

theorem putValue_changes {s t : Settings} {k : SettingKey} {v : Toml.Value}
    (h : s.putValue k v = .ok t) : s.Changes k t := by
  cases k with
  | account | seedDemo | manifests =>
    obtain ⟨a, -, rfl⟩ := map_ok h
    exact ⟨rfl, fun n e => nomatch e⟩
  | syncDelay | resolveDelay | bridgeDelay | payloadDelay =>
    obtain ⟨n, read, rfl⟩ := map_ok h
    exact ⟨rfl, fun m e => by cases e; exact millisValue_le read⟩

theorem set_changes {s t : Settings} {k : SettingKey} {text : String} (h : s.set k text = .ok t) :
    s.Changes k t := by
  cases k with
  | account | manifests =>
    cases h
    exact ⟨rfl, fun n e => nomatch e⟩
  | seedDemo =>
    simp only [set] at h
    split at h
    · cases h
      exact ⟨rfl, fun n e => nomatch e⟩
    · split at h
      · cases h
        exact ⟨rfl, fun n e => nomatch e⟩
      · cases h
  | syncDelay | resolveDelay | bridgeDelay | payloadDelay =>
    simp only [set] at h
    split at h
    · rename_i n read
      cases h
      exact ⟨rfl, fun m e => by cases e; exact millisOfText?_le read⟩
    · cases h

theorem putMembers_bounded {s t : Settings} (bounded : s.Bounded)
    {ms : List (String × Toml.Value)} (h : s.putMembers ms = .ok t) : t.Bounded := by
  induction ms generalizing s with
  | nil =>
    cases h
    exact bounded
  | cons m ms ih =>
    rw [putMembers] at h
    split at h
    · split at h
      · cases h
      · exact ih bounded h
    · split at h
      · cases h
      · exact ih ((putValue_changes ‹_›).bounded bounded) h

/-- Delays that are read fit 64 bits. -/
theorem ofText_bounded {text : String} {s : Settings} (h : ofText text = .ok s) : s.Bounded := by
  have bounded : empty.Bounded := by decide
  unfold ofText at h
  split at h
  · cases h
  · split at h
    · cases h
    · cases h
      exact putMembers_bounded bounded ‹_›

/-- Setting a key by its name is setting this key, and changes the value of no other. -/
theorem setNamed_changes {s t : Settings} {name text : String} (h : s.setNamed name text = .ok t) :
    ∃ k : SettingKey, k.name = name ∧ s.set k text = .ok t ∧ s.Changes k t := by
  unfold setNamed at h
  split at h
  · rename_i k found
    have same : k.name = name := by simpa using List.find?_some found
    exact ⟨k, same, h, set_changes h⟩
  · cases h

end Settings

end CommandDeck
