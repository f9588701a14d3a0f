import CommandDeck.Proofs.Settings.Document
import CommandDeck.Proofs.Storage.Path
import CommandDeck.Proofs.Text.Trim

/-!
# Settings by their texts

A setting can be given by a text and is shown as one. The text that is shown is the plain form of the
one that was given: the number without signs and zeros before it, the list without spaces around its
items and without empty ones. Given again, it gives the same value. So settings that came about by
setting keys, one after the other, are rebuilt from what they show.
-/

namespace CommandDeck

/-! ### Texts of numbers and lists -/

theorem millisOfText?_natText {n : Nat} (fits : n ≤ millisLimit) :
    millisOfText? (natText n) = some n := by
  have digits : ∀ c ∈ NumberLayout.digits n, Text.isDigit c = true :=
    fun _ => NumberLayout.isDigit_of_mem_digits
  have filled : ∀ c ∈ NumberLayout.digits n, isBlank c = false := by
    intro c mem
    have range := Toml.isDigit_toNat (digits c mem)
    simp only [isBlank, Bool.or_eq_false_iff, Bool.and_eq_false_iff, decide_eq_false_iff_not,
      beq_eq_false_iff_ne]
    omega
  have value : (NumberLayout.digits n).foldl (fun n c => n * 10 + Text.digitValue c) 0 = n := by
    simp only [Nat.mul_comm _ 10]
    exact Nat.ofDigitChars_eq_foldl.symm.trans (NumberLayout.ofDigitChars_digits n)
  have whole := Text.trim_of_bare (Text.bare_of_filled filled)
  have all := List.all_eq_true.mpr digits
  obtain ⟨c, more, parts, digit⟩ := NumberLayout.exists_digit n
  rw [millisOfText?, natText, String.toList_ofList, whole]
  rw [parts] at all value ⊢
  split
  · rename_i e
    exact absurd (List.cons.inj e).1 (Json.ne_of_isDigit digit rfl)
  · simp only [List.isEmpty_cons, all, Bool.not_true, Bool.or_self, Bool.false_eq_true, if_false,
      value, if_pos fits]

/-- A part of a list as the text of the list gives it. -/
structure IsItem (s : String) : Prop where
  nonempty : s.toList ≠ []
  trimmed : Text.trim s.toList = s.toList
  undivided : ',' ∉ s.toList

theorem isItem_of_mem_listOfText {text item : String} (h : item ∈ listOfText text) :
    IsItem item := by
  simp only [listOfText, List.mem_filterMap, List.mem_map] at h
  obtain ⟨_, ⟨part, mem, rfl⟩, kept⟩ := h
  split at kept
  · cases kept
  · rename_i nonempty
    cases kept
    constructor
    · simpa using nonempty
    · rw [String.toList_ofList, Text.trim_trim]
    · rw [String.toList_ofList]
      exact fun comma => Text.not_mem_of_mem_splitAt mem (Text.mem_of_mem_trim comma)

/-- Items are the parts of the text in which they stand with commas between them. -/
theorem listOfText_intercalate {items : List String} (each : ∀ item ∈ items, IsItem item) :
    listOfText (",".intercalate items) = items := by
  have kept : ∀ part ∈ items.map String.toList,
      (if (Text.trim part).isEmpty then none else some (String.ofList (Text.trim part))) =
        some (String.ofList part) := by
    intro part mem
    obtain ⟨item, hitem, rfl⟩ := List.mem_map.mp mem
    have is := each item hitem
    rw [is.trimmed, if_neg (by simpa using is.nonempty)]
  by_cases empty : items = []
  · subst empty
    rfl
  · have parts : Text.splitAt ',' (",".intercalate items).toList = items.map String.toList := by
      rw [String.toList_intercalate]
      refine Text.splitAt_intercalate (by simpa using empty) fun part mem => ?_
      obtain ⟨item, hitem, rfl⟩ := List.mem_map.mp mem
      exact (each item hitem).undivided
    rw [listOfText, parts, List.filterMap_map, Function.comp_def, List.filterMap_congr kept,
      List.filterMap_eq_map', List.map_map]
    simp [Function.comp_def]

/-- The text of a list that was given as a text is another text of the list. -/
theorem listOfText_shown (text : String) :
    listOfText (",".intercalate (listOfText text)) = listOfText text :=
  listOfText_intercalate fun _ => isItem_of_mem_listOfText

namespace SettingKey

/-- The value that a text gives to a key, if it gives one. -/
def said? (key : SettingKey) (text : String) : Option Toml.Value :=
  match key with
  | .account => some (.string text)
  | .syncDelay | .resolveDelay | .bridgeDelay | .payloadDelay =>
    (millisOfText? text).map fun (n : Nat) => .integer n
  | .seedDemo =>
    if text = "true" then some (.boolean true)
    else if text = "false" then some (.boolean false)
    else none
  | .manifests => some (.array ((listOfText text).map .string))

end SettingKey

namespace Settings

variable {s t : Settings} {k l : SettingKey} {text : String} {v : Toml.Value}

/-! ### Setting one key -/

/-- A text that says something is taken: the key gets the value, and no other key changes. -/
theorem exists_set (s : Settings) (said : k.said? text = some v) :
    ∃ t, s.set k text = .ok t ∧ t.value? k = some v ∧ t.without k = s.without k := by
  cases k with
  | account | manifests =>
    cases said
    exact ⟨_, rfl, rfl, rfl⟩
  | syncDelay | resolveDelay | bridgeDelay | payloadDelay =>
    obtain ⟨n, read, rfl⟩ := Option.map_eq_some_iff.mp said
    simp only [set, read]
    exact ⟨_, rfl, rfl, rfl⟩
  | seedDemo =>
    simp only [SettingKey.said?] at said
    simp only [set]
    split at said
    · rename_i yes
      cases said
      rw [if_pos yes]
      exact ⟨_, rfl, rfl, rfl⟩
    · rename_i yes
      split at said
      · rename_i no
        cases said
        rw [if_neg yes, if_pos no]
        exact ⟨_, rfl, rfl, rfl⟩
      · cases said

theorem set_unsaid (s : Settings) (unsaid : k.said? text = none) :
    s.set k text = .error (.invalidValue k text) := by
  cases k with
  | account | manifests => cases unsaid
  | syncDelay | resolveDelay | bridgeDelay | payloadDelay =>
    simp only [set, Option.map_eq_none_iff.mp unsaid]
  | seedDemo =>
    simp only [SettingKey.said?] at unsaid
    simp only [set]
    split at unsaid
    · cases unsaid
    · rename_i yes
      split at unsaid
      · cases unsaid
      · rename_i no
        rw [if_neg yes, if_neg no]

theorem set_ok (h : s.set k text = .ok t) :
    ∃ v, k.said? text = some v ∧ t.value? k = some v ∧ t.without k = s.without k := by
  cases said : k.said? text with
  | none =>
    rw [set_unsaid s said] at h
    cases h
  | some v =>
    obtain ⟨u, done, value, others⟩ := exists_set s said
    rw [h] at done
    cases done
    exact ⟨v, rfl, value, others⟩

/-- The value that a text gave is shown as a text that gives it too. -/
theorem said?_shown (said : k.said? text = some v) (value : t.value? k = some v) :
    ∃ shown, t.get? k = some shown ∧ k.said? shown = some v := by
  cases k with
  | account =>
    obtain ⟨a, given, same⟩ := Option.map_eq_some_iff.mp value
    exact ⟨a, given, congrArg some same⟩
  | syncDelay | resolveDelay | bridgeDelay | payloadDelay =>
    obtain ⟨n, read, rfl⟩ := Option.map_eq_some_iff.mp said
    obtain ⟨m, given, same⟩ := Option.map_eq_some_iff.mp value
    obtain rfl : m = n := Int.ofNat.inj (Toml.Value.integer.inj same)
    refine ⟨natText m, congrArg (Option.map natText) given, ?_⟩
    rw [SettingKey.said?, millisOfText?_natText (millisOfText?_le read), Option.map_some]
  | seedDemo =>
    obtain ⟨b, given, rfl⟩ := Option.map_eq_some_iff.mp value
    refine ⟨boolText b, congrArg (Option.map boolText) given, ?_⟩
    cases b <;> rfl
  | manifests =>
    cases said
    obtain ⟨paths, given, same⟩ := Option.map_eq_some_iff.mp value
    have strings : Function.Injective Toml.Value.string := fun _ _ => Toml.Value.string.inj
    obtain rfl : paths = listOfText text :=
      List.map_injective_iff.mpr strings (Toml.Value.array.inj same)
    refine ⟨_, congrArg (Option.map _) given, ?_⟩
    rw [SettingKey.said?, listOfText_shown]

theorem get?_without (s : Settings) (other : l ≠ k) : (s.without k).get? l = s.get? l := by
  cases k <;> cases l <;> first | rfl | exact absurd rfl other

theorem get?_of_without (same : t.without k = s.without k) (other : l ≠ k) :
    t.get? l = s.get? l := by
  rw [← get?_without t other, same, get?_without s other]

theorem get?_eq_none_iff (s : Settings) (k : SettingKey) : s.get? k = none ↔ s.value? k = none := by
  cases k with
  | account => exact Option.map_eq_none_iff.symm
  | _ => exact Option.map_eq_none_iff.trans Option.map_eq_none_iff.symm

/-- Settings are known by the value of one key and the others. -/
theorem ext_without (value : s.value? k = t.value? k) (others : s.without k = t.without k) :
    s = t := by
  refine ext_value? fun l => ?_
  by_cases same : l = k
  · rw [same, value]
  · exact value?_of_without others same

/-- The text that a key shows after it was set changes nothing when it is set again. -/
theorem set_shown (h : s.set k text = .ok t) :
    ∃ shown, t.get? k = some shown ∧ t.set k shown = .ok t := by
  obtain ⟨v, said, value, -⟩ := set_ok h
  obtain ⟨shown, show_, again⟩ := said?_shown said value
  obtain ⟨u, done, value', others⟩ := exists_set t again
  have same : u = t := ext_without (value'.trans value.symm) others
  exact ⟨shown, show_, same ▸ done⟩

/-! ### Runs -/

/-- The settings after a key has been set by its name, or as they were where that fails. -/
def after (s : Settings) (name text : String) : Settings :=
  match s.setNamed name text with
  | .ok t => t
  | .error _ => s

/-- The settings after calls that set keys by their names. -/
def run (s : Settings) (calls : List (String × String)) : Settings :=
  calls.foldl (fun s call => s.after call.1 call.2) s

/-- Every value is one that a text can give. -/
def Sayable (s : Settings) : Prop := ∀ k v, s.value? k = some v → ∃ text, k.said? text = some v

theorem value?_empty (k : SettingKey) : empty.value? k = none := by
  cases k <;> rfl

theorem sayable_empty : empty.Sayable := by
  intro k v value
  rw [value?_empty] at value
  cases value

theorem Sayable.after (h : s.Sayable) (name text : String) : (s.after name text).Sayable := by
  unfold Settings.after
  cases done : s.setNamed name text with
  | error e => exact h
  | ok t =>
    obtain ⟨k, -, set, -⟩ := setNamed_changes done
    obtain ⟨v, said, value, others⟩ := set_ok set
    intro l w has
    by_cases same : l = k
    · subst same
      exact ⟨text, said.trans (value.symm.trans has)⟩
    · exact h l w ((value?_of_without others same).symm.trans has)

theorem Sayable.run (h : s.Sayable) (calls : List (String × String)) : (s.run calls).Sayable := by
  induction calls generalizing s with
  | nil => exact h
  | cons call rest ih => exact ih (h.after call.1 call.2)

theorem isEmpty_iff (s : Settings) : s.isEmpty = true ↔ s = empty := by
  simp only [isEmpty, List.all_eq_true, Option.isNone_iff_eq_none, get?_eq_none_iff]
  constructor
  · intro none
    refine ext_value? fun k => ?_
    rw [none k k.mem_all, value?_empty]
  · rintro rfl k -
    exact value?_empty k

/-- The texts of some of the keys. -/
def shownBy (s : Settings) (keys : List SettingKey) : List (SettingKey × String) :=
  keys.filterMap fun k => (s.get? k).map fun text => (k, text)

theorem exists_setShown (sayable : s.Sayable) (keys : List SettingKey) (acc : Settings) :
    ∃ t, (s.shownBy keys).foldlM (fun t p => t.setNamed p.1.name p.2) acc = .ok t ∧
      Filled s keys acc t := by
  induction keys generalizing acc with
  | nil => exact ⟨acc, rfl, .nil s acc⟩
  | cons k keys ih =>
    cases value : s.value? k with
    | none =>
      have hidden := (get?_eq_none_iff s k).mpr value
      have skipped : s.shownBy (k :: keys) = s.shownBy keys := by simp [shownBy, hidden]
      obtain ⟨t, done, filled⟩ := ih acc
      exact ⟨t, skipped ▸ done, filled.skip value⟩
    | some v =>
      obtain ⟨text, said⟩ := sayable k v value
      obtain ⟨shown, show_, again⟩ := said?_shown said value
      have taken : s.shownBy (k :: keys) = (k, shown) :: s.shownBy keys := by simp [shownBy, show_]
      obtain ⟨next, first, own, others⟩ := exists_set acc again
      have named : acc.setNamed k.name shown = .ok next := by
        simp only [setNamed, k.ofName?_name, first]
      obtain ⟨t, done, filled⟩ := ih next
      refine ⟨t, ?_, filled.take value own others⟩
      rw [taken, List.foldlM_cons]
      simp only [named]
      exact done

/-- Setting a key by a text changes nothing where it fails. Where it is done, no other key shows another
text, and the one that the key shows changes nothing when it is set again. Settings that came about in
this way are empty exactly when they are those from which they came, and they are rebuilt when every text
that they show is set in empty ones. -/
theorem shown_texts_are_fixed :
    (∀ (s : Settings) (name text : String),
      (∀ e, s.setNamed name text = .error e → s.after name text = s) ∧
      ∀ t, s.setNamed name text = .ok t →
        s.after name text = t ∧
        (∀ other, other ≠ name → t.getNamed? other = s.getNamed? other) ∧
        ∃ shown, t.getNamed? name = some shown ∧ t.setNamed name shown = .ok t) ∧
    ∀ calls,
      let s := empty.run calls
      (s.isEmpty = true ↔ s = empty) ∧
      s.values.foldlM (fun t p => t.setNamed p.1.name p.2) empty = .ok s := by
  refine ⟨fun s name text => ⟨?_, ?_⟩, fun calls => ⟨isEmpty_iff _, ?_⟩⟩
  · intro e refused
    rw [after, refused]
  · intro t done
    refine ⟨by rw [after, done], ?_, ?_⟩
    · intro other different
      obtain ⟨k, rfl, -, changes⟩ := setNamed_changes done
      unfold getNamed?
      cases found : SettingKey.ofName? other with
      | none => rfl
      | some l =>
        have named : l.name = other := by simpa using List.find?_some found
        exact get?_of_without changes.others fun same => different (same ▸ named.symm)
    · obtain ⟨k, rfl, set, -⟩ := setNamed_changes done
      obtain ⟨shown, show_, again⟩ := set_shown set
      refine ⟨shown, ?_, ?_⟩
      · rw [getNamed?, k.ofName?_name, Option.bind_some, show_]
      · simp only [setNamed, k.ofName?_name, again]
  · obtain ⟨t, done, filled⟩ := exists_setShown (sayable_empty.run calls) SettingKey.all empty
    rw [filled.eq] at done
    exact done

/-- Texts with signs, zeros, spaces and commas that are not shown, among calls that fail. -/
theorem untidy_texts_are_fixed :
    let calls := [("manifests", " a.json ,, b c.json ,"), ("sync-delay-ms", " +007 "),
      ("seed-demo", "yes"), ("colour", "red"), ("account", "")]
    let s := empty.run calls
    let t := { s with resolveDelay? := some 0 }
    s.values = [(.account, ""), (.syncDelay, "7"), (.manifests, "a.json,b c.json")] ∧
      s.values.foldlM (fun t p => t.setNamed p.1.name p.2) empty = .ok s ∧
      s.after "seed-demo" "no" = s ∧
      s.setNamed "resolve-delay-ms" "\t+00\n" = .ok t ∧
      t.getNamed? "manifests" = s.getNamed? "manifests" ∧
      ∃ shown, t.getNamed? "resolve-delay-ms" = some shown ∧
        t.setNamed "resolve-delay-ms" shown = .ok t := by
  intro calls s t
  have set : s.setNamed "resolve-delay-ms" "\t+00\n" = .ok t := rfl
  have refused := (shown_texts_are_fixed.1 s "seed-demo" "no").1 _ rfl
  obtain ⟨-, others, shown⟩ := (shown_texts_are_fixed.1 s "resolve-delay-ms" "\t+00\n").2 t set
  exact ⟨by decide, (shown_texts_are_fixed.2 calls).2, refused, set, others _ (by decide), shown⟩

end Settings

end CommandDeck
