import CommandDeck.Json.Record
import CommandDeck.Proofs.Json.Reading

/-!
# Written records read back

An object is read when each of its members is: `Steps` says what its members make of the state in
turn. For a record the state is the record under construction, so that `Puts` speaks of records alone.
A record is read from an object in which no key comes twice, each key is known, and no required member
is missing, whatever the order of the members.
-/

namespace CommandDeck.Json

section Objects

variable {σ : Type} {n : Nat} {step : σ → String → Reader σ}

/-- What `step` makes of one member, from the colon on. -/
def StepReads (n : Nat) (step : σ → String → Reader σ) (p : σ) (key : String) (v : Value)
    (q : σ) : Prop :=
  ∀ sp : Spacing, sp.IsBlank → ∀ depth levels, n ≤ levels → ∀ rest, Ends rest →
    step p key levels (':' :: (sp.afterColon ++ (v.write sp depth ++ rest))) = .ok (q, rest)

/-- Reading the members in turn takes the first state to the second. -/
inductive Steps (n : Nat) (step : σ → String → Reader σ) : σ → List (String × Value) → σ → Prop where
  | nil (p : σ) : Steps n step p [] p
  | cons {p q r : σ} {key : String} {v : Value} {ms : List (String × Value)}
      (one : StepReads n step p key v q) (others : Steps n step q ms r) :
      Steps n step p ((key, v) :: ms) r

theorem afterColon_to {α : Type} (read : Reader α) (levels : Nat) (s : List Char) :
    afterColon read levels (':' :: s) = read levels s := by
  have mark : skipSpace (':' :: s) = ':' :: s := skipSpace_cons rfl s
  simp only [afterColon, colon, mark]

theorem nextKey?_first {before : List Char} (blank : Blank before) (s : List Char) :
    nextKey? true (before ++ '"' :: s) = .ok (some s) := by
  have quote : skipSpace (before ++ '"' :: s) = '"' :: s := skipSpace_to blank rfl s
  simp only [nextKey?, quote]
  rfl

theorem nextKey?_next {before : List Char} (blank : Blank before) (s : List Char) :
    nextKey? false (',' :: (before ++ '"' :: s)) = .ok (some s) := by
  have comma : skipSpace (',' :: (before ++ '"' :: s)) = ',' :: (before ++ '"' :: s) :=
    skipSpace_cons rfl _
  have quote : skipSpace (before ++ '"' :: s) = '"' :: s := skipSpace_to blank rfl s
  simp only [nextKey?, comma, quote]
  rfl

theorem nextKey?_close (first : Bool) {before : List Char} (blank : Blank before)
    (s : List Char) : nextKey? first (before ++ '\x7d' :: s) = .ok none := by
  have brace : skipSpace (before ++ '\x7d' :: s) = '\x7d' :: s := skipSpace_to blank rfl s
  simp only [nextKey?, brace, if_true]

theorem length_le_writeMembers (sp : Spacing) (depth : Nat) (ms : List (String × Value)) :
    ms.length ≤ (Value.writeMembers sp depth ms).length := by
  induction ms with
  | nil => exact Nat.zero_le _
  | cons m ms ih =>
    simp only [Value.writeMembers, List.length_cons, List.length_append]
    omega

theorem ends_writeMembers {sp : Spacing} (spacing : sp.IsBlank) (depth outer : Nat)
    (ms : List (String × Value)) (rest : List Char) :
    Ends (Value.writeMembers sp depth ms ++ (sp.lineBreak outer ++ '\x7d' :: rest)) := by
  cases ms with
  | nil =>
    change Ends (sp.lineBreak outer ++ '\x7d' :: rest)
    exact ends_blank (spacing.lineBreak outer) (ends_cons.mpr (by decide))
  | cons m ms => exact ends_cons.mpr (by decide)

/-- The members after the first are read one by one, and the brace is passed. -/
theorem membersFrom_writeMembers {p q : σ} {ms : List (String × Value)}
    (each : Steps n step p ms q) {sp : Spacing} (spacing : sp.IsBlank) (depth outer : Nat)
    {levels : Nat} (enough : n ≤ levels) (budget : List Char) (room : ms.length < budget.length)
    (rest : List Char) :
    membersFrom step levels budget false p
        (Value.writeMembers sp depth ms ++ (sp.lineBreak outer ++ '\x7d' :: rest)) =
      .ok (q, rest) := by
  induction each generalizing budget with
  | nil p =>
    cases budget with
    | nil => cases room
    | cons _ budget =>
      have brace : skipSpace (sp.lineBreak outer ++ '\x7d' :: rest) = '\x7d' :: rest :=
        skipSpace_to (spacing.lineBreak outer) rfl rest
      rw [Value.writeMembers, List.nil_append, membersFrom,
        nextKey?_close false (spacing.lineBreak outer)]
      simp only [brace, List.drop_one, List.tail_cons]
  | @cons p q r key v ms one _ ih =>
    cases budget with
    | nil => cases room
    | cons _ budget =>
      have put := one sp spacing depth levels enough _
        (ends_writeMembers spacing depth outer ms rest)
      simp only [Value.writeMembers, List.cons_append, List.append_assoc, writeString_append,
        membersFrom, nextKey?_next (spacing.lineBreak depth), readString_escaped, put]
      exact ih budget (Nat.lt_of_succ_lt_succ room)

theorem membersTail_write {p q : σ} {ms : List (String × Value)} (each : Steps n step p ms q)
    {sp : Spacing} (spacing : sp.IsBlank) (depth : Nat) {levels : Nat} (enough : n ≤ levels)
    (rest : List Char) :
    ∃ s, Value.write sp depth (.object ms) ++ rest = '\x7b' :: s ∧
      membersTail step p levels s = .ok (q, rest) := by
  cases each with
  | nil =>
    have closed := nextKey?_close true blank_nil rest
    have brace : skipSpace ('\x7d' :: rest) = '\x7d' :: rest := skipSpace_cons rfl rest
    rw [List.nil_append] at closed
    refine ⟨'\x7d' :: rest, rfl, ?_⟩
    simp only [membersTail, membersFrom, closed, brace, List.drop_one, List.tail_cons]
  | @cons _ q' _ key v ms one others =>
    let after := Value.writeMembers sp (depth + 1) ms ++ (sp.lineBreak depth ++ '\x7d' :: rest)
    let member := ':' :: (sp.afterColon ++ (v.write sp (depth + 1) ++ after))
    have text : Value.write sp depth (.object ((key, v) :: ms)) ++ rest =
        '\x7b' :: (sp.lineBreak (depth + 1) ++ '"' ::
          (key.toList.flatMap escapedChar ++ '"' :: member)) := by
      simp [Value.write, writeString, member, after]
    refine ⟨_, text, ?_⟩
    have put : step p key levels member = .ok (q', after) :=
      one sp spacing (depth + 1) levels enough after
        (ends_writeMembers spacing (depth + 1) depth ms rest)
    obtain ⟨d, budget, longer⟩ := List.exists_cons_of_length_pos
      (l := sp.lineBreak (depth + 1) ++ '"' :: (key.toList.flatMap escapedChar ++ '"' :: member))
      (by simp only [List.length_append, List.length_cons]; omega)
    have room : ms.length < budget.length := by
      have size := congrArg List.length longer
      have short := length_le_writeMembers sp (depth + 1) ms
      simp only [List.length_append, List.length_cons, member, after] at size
      omega
    have later := membersFrom_writeMembers others spacing (depth + 1) depth enough budget room rest
    rw [membersTail]
    nth_rewrite 1 [longer]
    simp only [membersFrom, nextKey?_first (spacing.lineBreak (depth + 1)), readString_escaped, put]
    exact later

end Objects

theorem reads_optional {α : Type} {n : Nat} {read : Reader α} {v : Value} {a : α}
    (h : Reads n read v a) (present : v ≠ .null) : Reads n (optional read) v (some a) := by
  intro sp spacing depth levels enough before rest blank ends
  obtain ⟨c, tail, parts, starts⟩ := write_starts v sp depth
  have value := h sp spacing depth levels enough before rest blank ends
  rw [parts, List.cons_append] at value ⊢
  rw [optional, skipSpace_to blank starts.visible]
  split
  · rename_i same
    exact absurd (List.cons.inj same).1 (starts.letter present)
  · rw [value]
    rfl

theorem reads_variant {α : Type} {known : List (String × α)} {name : String} {k : String × α}
    (found : (known.find? fun k => k.1 == name) = some k) :
    Reads 0 (variant known) (.string name) k.2 := by
  intro sp _ depth levels _ before rest blank _
  have quote : skipSpace (before ++ '"' :: (name.toList.flatMap escapedChar ++ '"' :: rest)) =
      '"' :: (name.toList.flatMap escapedChar ++ '"' :: rest) := skipSpace_to blank rfl _
  rw [Value.write, writeString_append]
  simp only [variant, quote, readString_escaped, found]
  rfl

namespace RecordLayout

variable {σ : Type} {layout : RecordLayout σ} {n : Nat}

/-- Putting in the members in turn makes the second record of the first. -/
inductive Puts (layout : RecordLayout σ) (n : Nat) : σ → List (String × Value) → σ → Prop where
  | nil (r : σ) : Puts layout n r [] r
  | cons {r r' : σ} {m : Member σ} {change : σ → σ} {key : String} {v : Value}
      {ms : List (String × Value)} (known : (layout.members.find? fun m => m.name == key) = some m)
      (one : Reads n m.put v change) (others : Puts layout n (change r) ms r') :
      Puts layout n r ((key, v) :: ms) r'

theorem stepReads_putMember {m : Member σ} {change : σ → σ} {key : String} {v : Value}
    (known : (layout.members.find? fun m => m.name == key) = some m)
    (one : Reads n m.put v change) (r : σ) {seen : List String} (fresh : key ∉ seen) :
    StepReads n layout.putMember ⟨r, seen⟩ key v ⟨change r, key :: seen⟩ := by
  intro sp spacing depth levels enough rest ends
  have put := one sp spacing depth levels enough sp.afterColon rest spacing.afterColon ends
  have unseen : seen.contains key = false := by simpa using fresh
  simp only [putMember, known, unseen, afterColon_to, put, Bool.false_eq_true, if_false]

/-- When no key comes twice, the members are put in one after the other. -/
theorem Puts.steps {r r' : σ} {ms : List (String × Value)} (h : Puts layout n r ms r')
    {seen : List String} (keys : (ms.map (·.1)).Nodup) (fresh : ∀ m ∈ ms, m.1 ∉ seen) :
    Steps n layout.putMember ⟨r, seen⟩ ms ⟨r', (ms.map (·.1)).reverse ++ seen⟩ := by
  induction h generalizing seen with
  | nil => exact .nil _
  | @cons r r' m change key v ms known one _ ih =>
    obtain ⟨once, keys⟩ := List.nodup_cons.mp keys
    have freshLater : ∀ other ∈ ms, other.1 ∉ key :: seen := by
      intro other mem
      rw [List.mem_cons, not_or]
      refine ⟨?_, fresh other (List.mem_cons_of_mem _ mem)⟩
      rintro rfl
      exact once (List.mem_map.mpr ⟨other, mem, rfl⟩)
    have later := ih keys freshLater
    refine .cons (stepReads_putMember known one r (fresh _ List.mem_cons_self)) ?_
    simpa using later

/-- The names of the members that may not be left out. -/
def required (layout : RecordLayout σ) : List String :=
  (layout.members.filter fun m => m.presence == .required).map (·.name)

theorem missing?_eq_none {keys : List String} (complete : ∀ name ∈ layout.required, name ∈ keys) :
    layout.missing? keys = none := by
  rw [missing?, Option.map_eq_none_iff, List.find?_eq_none]
  intro m mem wanted
  simp only [Bool.and_eq_true, Bool.not_eq_true', List.contains_eq_mem,
    decide_eq_false_iff_not] at wanted
  have name : m.name ∈ layout.required :=
    List.mem_map.mpr ⟨m, List.mem_filter.mpr ⟨mem, wanted.1⟩, rfl⟩
  exact wanted.2 (complete m.name name)

/-- A record is read from an object with its members. -/
theorem reads_object {ms : List (String × Value)} {r : σ} (puts : Puts layout n layout.blank ms r)
    (keys : (ms.map (·.1)).Nodup)
    (complete : ∀ name ∈ layout.required, name ∈ ms.map (·.1)) :
    Reads (n + 1) layout.read (.object ms) r := by
  intro sp spacing depth levels enough before rest blank _
  obtain ⟨levels, rfl⟩ : ∃ k, levels = k + 1 := ⟨levels - 1, by omega⟩
  have steps : Steps n layout.putMember ⟨layout.blank, []⟩ ms ⟨r, (ms.map (·.1)).reverse ++ []⟩ :=
    puts.steps keys (fun _ _ => List.not_mem_nil)
  obtain ⟨s, text, read⟩ :=
    membersTail_write steps spacing depth (Nat.le_of_succ_le_succ enough) rest
  have none : layout.missing? ((ms.map (·.1)).reverse ++ []) = none := by
    refine missing?_eq_none fun name mem => ?_
    simpa using complete name mem
  rw [text, RecordLayout.read, atValue_to _ blank rfl, if_pos rfl]
  simp only [oneLevelDown, ofObject, read, none]

section Members

variable {α : Type} {name : String} {presence : Presence} {read : Reader α} {set : σ → α → σ}

theorem reads_member {v : Value} {a : α} (h : Reads n read v a) :
    Reads n (Member.of name presence read set).put v (set · a) := by
  intro sp spacing depth levels enough before rest blank ends
  have value := h sp spacing depth levels enough before rest blank ends
  simp only [Member.of, value]
  rfl

theorem Puts.member {r r' : σ} {v : Value} {a : α} {ms : List (String × Value)}
    (known : (layout.members.find? fun m => m.name == name) = some (.of name presence read set))
    (one : Reads n read v a) (others : Puts layout n (set r a) ms r') :
    Puts layout n r ((name, v) :: ms) r' := .cons known (reads_member one) others

end Members

end RecordLayout

end CommandDeck.Json
