import Mathlib.Data.Set.List
import CommandDeck.Proofs.Json.Tree

/-!
# Passing over a tree

What is passed over is a tree, and every tree is passed over, however deep it is nested, whatever its
numbers and whatever its escapes. The loop keeps the open brackets in a list. `skipOne` is what it does
with one value once the key is behind it, and `skipAfter` what it does after a value, so that a tree in
the middle of the text is passed over by going from the one to the other.
-/

namespace CommandDeck.Json

open Text (isDigit)

/-! ### Items and members alike -/

/-- The tokens that come before a value inside a bracket: none, or a key and a colon. -/
inductive Bracket.Key : Bracket → List (List Char) → Prop where
  | square : Bracket.Key .square []
  | curly (q : Quoted) : Bracket.Key .curly [q.text, [':']]

def Bracket.opening : Bracket → Char
  | square => '['
  | curly => '\x7b'

/-- The tokens between two brackets, each value with those before it. -/
def entryTokens (first : Bool) : List (List (List Char) × Tree) → List (List Char)
  | [] => []
  | (key, value) :: entries =>
    comma first ++ (key ++ (value.tokens ++ entryTokens false entries))

theorem itemTokens_eq (first : Bool) (items : List Tree) :
    itemTokens first items = entryTokens first (items.map fun t => ([], t)) := by
  induction items generalizing first with
  | nil => rfl
  | cons t items ih => rw [itemTokens, ih false, List.map_cons, entryTokens, List.nil_append]

theorem memberTokens_eq (first : Bool) (members : List (Quoted × Tree)) :
    memberTokens first members =
      entryTokens first (members.map fun m => ([m.1.text, [':']], m.2)) := by
  induction members generalizing first with
  | nil => rfl
  | cons m members ih =>
    rw [memberTokens, ih false, List.map_cons, entryTokens]
    rfl

theorem Bracket.closing_visible (b : Bracket) : isSpace b.closing = false := by
  cases b <;> rfl

theorem Bracket.closing_ne_comma (b : Bracket) : b.closing ≠ ',' := by
  cases b <;> decide

theorem ends_entries {b : Bracket} {entries : List (List (List Char) × Tree)} {s rest : List Char}
    (h : Spells (entryTokens false entries ++ [[b.closing]]) s rest) : Ends s := by
  cases entries with
  | nil => exact h.ends (by cases b <;> decide)
  | cons entry entries => exact h.ends (by decide)

theorem ends_items {items : List Tree} {s rest : List Char}
    (h : Spells (itemTokens false items ++ [[']']]) s rest) : Ends s := by
  rw [itemTokens_eq] at h
  exact ends_entries (b := .square) h

theorem ends_members {members : List (Quoted × Tree)} {s rest : List Char}
    (h : Spells (memberTokens false members ++ [['\x7d']]) s rest) : Ends s := by
  rw [memberTokens_eq] at h
  exact ends_entries (b := .curly) h

/-! ### One step of the loop -/

/-- Goes on after a value. -/
def skipAfter (budget : List Char) (opened : List Bracket) (s : List Char) :
    Except ReadError (List Char) :=
  (closeBrackets opened s).bind fun r =>
    match r.1 with
    | [] => .ok r.2
    | b :: still => skipFrom budget (b :: still) r.2

/-- Goes on from a value. -/
def skipOne (budget : List Char) (opened : List Bracket) (s : List Char) :
    Except ReadError (List Char) :=
  (skipStart s).bind fun r =>
    match r.1 with
    | none => skipAfter budget opened r.2
    | some b => (closesAtOnce b r.2).bind fun closed? =>
      match closed? with
      | none => skipFrom budget (b :: opened) r.2
      | some rest => skipAfter budget opened rest

theorem skipFrom_cons (d : Char) (budget : List Char) (opened : List Bracket) (s : List Char) :
    skipFrom (d :: budget) opened s = (skipKey opened s).bind (skipOne budget opened) := by
  rw [skipFrom]
  rcases skipKey opened s with _ | s
  · rfl
  simp only [Except.bind, skipOne, skipAfter]
  rcases skipStart s with _ | ⟨_ | b, s⟩
  · rfl
  · dsimp only
    rcases closeBrackets opened s with _ | ⟨_ | _, _⟩ <;> rfl
  · dsimp only
    rcases closesAtOnce b s with _ | _ | s
    · rfl
    · rfl
    · dsimp only
      rcases closeBrackets opened s with _ | ⟨_ | _, _⟩ <;> rfl

/-! ### Every tree is passed over -/

theorem skipStart_digit {c : Char} (digit : isDigit c = true) {s rest : List Char}
    (found : skipSpace s = c :: rest) :
    skipStart s = (skipNumeral (c :: rest)).map fun s => (none, s) := by
  simp only [skipStart, found]
  split
  case h_8 => exact if_pos digit
  all_goals exact absurd digit (by decide)

theorem skipStart_scalar {v : Scalar} {s rest : List Char}
    (h : Spells (Tree.scalar v).tokens s rest) (ends : Ends rest) :
    skipStart s = .ok (none, rest) := by
  have found := spells_scalar.mp h
  match v with
  | .null => simp only [skipStart, found]; rfl
  | .boolean true => simp only [skipStart, found]; rfl
  | .boolean false => simp only [skipStart, found]; rfl
  | .string q =>
    rw [Scalar.text, Quoted.text, List.cons_append, List.append_assoc] at found
    simp only [skipStart, found]
    exact congrArg (Except.map _) (skipString_body q.body rest)
  | .number true u =>
    rw [Scalar.text, List.cons_append] at found
    simp only [skipStart, found]
    exact congrArg (Except.map _) (u.valid.skipped ends)
  | .number false u =>
    obtain ⟨c, more, text, digit⟩ := u.valid.head
    have skipped := u.valid.skipped ends
    rw [Scalar.text, text, List.cons_append] at found
    rw [text, List.cons_append] at skipped
    rw [skipStart_digit digit found, skipped]
    rfl

/-- In the middle of any text that is left, with enough of the budget, the loop passes over the tree and
goes on after it. -/
def Skipped (t : Tree) : Prop :=
  ∀ {opened : List Bracket} {s rest budget : List Char}, Spells t.tokens s rest → Ends rest →
    s.length ≤ budget.length + 1 →
    ∃ left, rest.length ≤ left.length ∧ skipOne budget opened s = skipAfter left opened rest

section Entries

variable {b : Bracket} {opened : List Bracket} {s rest budget : List Char}

theorem colon_mark (found : skipSpace s = ':' :: rest) : colon s = .ok rest := by
  simp only [colon, found]

variable (opened) in
theorem skipKey_key {key : List (List Char)} (h : b.Key key) {t : Tree}
    (spelled : Spells (key ++ t.tokens) s rest) :
    ∃ s', skipKey (b :: opened) s = .ok s' ∧ s'.length ≤ s.length ∧ Spells t.tokens s' rest := by
  cases h with
  | square => exact ⟨s, rfl, Nat.le_refl _, spelled⟩
  | curly q =>
    obtain ⟨s', keyed, value⟩ := spells_append.mp spelled
    obtain ⟨s₁, quote, mark⟩ := spells_quoted.mp keyed
    refine ⟨s', ?_, keyed.length_le, value⟩
    simp only [skipKey, quote, skipString_body q.body]
    exact colon_mark ((spells_singleton (by rfl)).mp mark)

variable (opened budget) in
theorem skipFrom_entry {key : List (List Char)} (h : b.Key key) {t : Tree} (skipped : Skipped t)
    (spelled : Spells (key ++ t.tokens) s rest) (ends : Ends rest)
    (enough : s.length ≤ budget.length) :
    ∃ left, rest.length ≤ left.length ∧
      skipFrom budget (b :: opened) s = skipAfter left (b :: opened) rest := by
  obtain ⟨s', keyed, le, value⟩ := skipKey_key opened h spelled
  have shorter := value.shorter
  obtain ⟨d, budget, rfl, room⟩ := exists_budget (Nat.lt_of_lt_of_le shorter le) enough
  rw [skipFrom_cons, keyed]
  exact skipped value ends (by omega)

theorem closeBrackets_comma (found : skipSpace s = ',' :: rest) :
    closeBrackets (b :: opened) s = .ok (b :: opened, rest) := by
  simp only [closeBrackets, found, if_true]

theorem closeBrackets_closing (found : skipSpace s = b.closing :: rest) :
    closeBrackets (b :: opened) s = closeBrackets opened rest := by
  simp only [closeBrackets, found, if_neg b.closing_ne_comma, if_true]

/-- The entries after the first are passed over one by one, and the bracket with them. -/
theorem skipAfter_entries {entries : List (List (List Char) × Tree)}
    (each : ∀ e ∈ entries, b.Key e.1 ∧ Skipped e.2)
    (spelled : Spells (entryTokens false entries ++ [[b.closing]]) s rest)
    (enough : s.length ≤ budget.length) :
    ∃ left, rest.length ≤ left.length ∧
      skipAfter budget (b :: opened) s = skipAfter left opened rest := by
  induction entries generalizing s budget with
  | nil =>
    have closing := (spells_singleton b.closing_visible).mp spelled
    have shorter := spelled.length_le
    refine ⟨budget, by omega, ?_⟩
    rw [skipAfter, closeBrackets_closing closing]
    rfl
  | cons e entries ih =>
    obtain ⟨⟨key, value⟩, others⟩ := List.forall_mem_cons.mp each
    obtain ⟨s₁, separator, more⟩ := spells_append.mp
      (show Spells ([[',']] ++ ((e.1 ++ e.2.tokens) ++ (entryTokens false entries ++ [[b.closing]])))
        s rest by simpa [entryTokens, comma] using spelled)
    obtain ⟨s₂, entry, later⟩ := spells_append.mp more
    have shorter := separator.length_lt
    obtain ⟨left, room, passed⟩ := skipFrom_entry opened budget key value entry
      (ends_entries later) (by omega)
    obtain ⟨left', room', closed⟩ := ih others later room
    refine ⟨left', room', ?_⟩
    rw [← closed, ← passed, skipAfter,
      closeBrackets_comma ((spells_singleton (by rfl)).mp separator)]
    rfl

theorem closesAtOnce_entry {key : List (List Char)} (h : b.Key key) {t : Tree}
    (spelled : Spells (key ++ t.tokens) s rest) : closesAtOnce b s = .ok none := by
  cases h with
  | square =>
    obtain ⟨c, s', found, begins, -⟩ := Spells.begin spelled
    have other : c ≠ Bracket.square.closing := begins.opens
    simp only [closesAtOnce, found, if_neg other]
  | curly q =>
    obtain ⟨s', found, -⟩ := (spells_cons (by rfl)).mp spelled
    simp only [closesAtOnce, found]
    rfl

/-- A bracket with all its entries is passed over. -/
theorem skipOne_entries {entries : List (List (List Char) × Tree)}
    (each : ∀ e ∈ entries, b.Key e.1 ∧ Skipped e.2) {s' : List Char}
    (found : skipStart s = .ok (some b, s')) (shorter : s'.length < s.length)
    (spelled : Spells (entryTokens true entries ++ [[b.closing]]) s' rest)
    (enough : s.length ≤ budget.length + 1) :
    ∃ left, rest.length ≤ left.length ∧ skipOne budget opened s = skipAfter left opened rest := by
  have start : skipOne budget opened s = (closesAtOnce b s').bind fun closed? =>
      match closed? with
      | none => skipFrom budget (b :: opened) s'
      | some rest => skipAfter budget opened rest := by
    rw [skipOne, found]
    rfl
  cases entries with
  | nil =>
    have closing := (spells_singleton b.closing_visible).mp spelled
    have le := spelled.length_le
    refine ⟨budget, by omega, ?_⟩
    rw [start]
    simp only [closesAtOnce, closing, if_true]
    rfl
  | cons e entries =>
    obtain ⟨⟨key, value⟩, others⟩ := List.forall_mem_cons.mp each
    obtain ⟨m, entry, later⟩ := spells_append.mp
      (show Spells ((e.1 ++ e.2.tokens) ++ (entryTokens false entries ++ [[b.closing]])) s' rest by
        simpa [entryTokens, comma] using spelled)
    obtain ⟨left, room, passed⟩ := skipFrom_entry opened budget key value entry
      (ends_entries later) (by omega)
    obtain ⟨left', room', closed⟩ := skipAfter_entries others later room
    refine ⟨left', room', ?_⟩
    rw [start, closesAtOnce_entry key entry, ← closed, ← passed]
    rfl

end Entries

theorem skipped (t : Tree) : Skipped t := by
  -- By the kind of the tree: the entries inside are passed over one by one, each by induction.
  induction t with
  | scalar v =>
    intro opened s rest budget spelled ends enough
    have shorter := spelled.shorter
    refine ⟨budget, by omega, ?_⟩
    rw [skipOne, skipStart_scalar spelled ends]
    rfl
  | array items each =>
    intro opened s rest budget spelled _ enough
    obtain ⟨s', found, inner⟩ := spells_array.mp spelled
    have start : skipStart s = .ok (some .square, s') := by simp only [skipStart, found]
    rw [itemTokens_eq] at inner
    refine skipOne_entries (b := .square) ?_ start (skipSpace_shorter found) inner enough
    exact List.forall_mem_map.mpr fun t mem => ⟨.square, each t mem⟩
  | object members each =>
    intro opened s rest budget spelled _ enough
    obtain ⟨s', found, inner⟩ := spells_object.mp spelled
    have start : skipStart s = .ok (some .curly, s') := by simp only [skipStart, found]
    rw [memberTokens_eq] at inner
    refine skipOne_entries (b := .curly) ?_ start (skipSpace_shorter found) inner enough
    exact List.forall_mem_map.mpr fun m mem => ⟨.curly m.1, each m mem⟩

/-- Every tree is passed over. -/
theorem skipValue_tree {t : Tree} {s rest : List Char} (spelled : Spells t.tokens s rest)
    (ends : Ends rest) : skipValue s = .ok rest := by
  have shorter := spelled.shorter
  cases s with
  | nil => cases shorter
  | cons c s =>
    have one : ∃ left, rest.length ≤ left.length ∧ skipOne s [] (c :: s) = skipAfter left [] rest :=
      skipped t spelled ends (by simp)
    obtain ⟨left, -, passed⟩ := one
    rw [skipValue, skipFrom_cons]
    exact passed

/-! ### What is passed over is a tree -/

theorem colon_ok {s rest : List Char} (h : colon s = .ok rest) : skipSpace s = ':' :: rest := by
  unfold colon at h
  split at h <;> cases h
  assumption

/-- The tokens that come before a value inside the brackets. -/
def Entry : List Bracket → List (List Char) → Prop
  | [], key => key = []
  | b :: _, key => b.Key key

/-- From after a value, the brackets are closed one after the other, with any entries before that. -/
inductive Closes : List Bracket → List Char → List Char → Prop where
  | done (rest : List Char) : Closes [] rest rest
  | closing {b : Bracket} {opened : List Bracket} {s m rest : List Char}
      (found : skipSpace s = b.closing :: m) (outer : Closes opened m rest) :
      Closes (b :: opened) s rest
  | entry {b : Bracket} {opened : List Bracket} {key : List (List Char)} {t : Tree}
      {s m rest : List Char} (known : b.Key key) (one : Spells ([','] :: (key ++ t.tokens)) s m)
      (others : Closes (b :: opened) m rest) : Closes (b :: opened) s rest

/-- The entries up to the bracket that closes. -/
theorem Closes.entries {b : Bracket} {opened : List Bracket} {s rest : List Char}
    (h : Closes (b :: opened) s rest) :
    ∃ entries m, (∀ e ∈ entries, b.Key e.1) ∧
      Spells (entryTokens false entries ++ [[b.closing]]) s m ∧ Closes opened m rest := by
  generalize all : b :: opened = brackets at h
  induction h with
  | done => cases all
  | @closing _ _ _ m _ found outer =>
    cases all
    exact ⟨[], m, (fun _ h => nomatch h), (spells_singleton b.closing_visible).mpr found, outer⟩
  | @entry _ _ key t s m _ known one _ ih =>
    cases all
    obtain ⟨entries, m', each, spelled, outer⟩ := ih rfl
    refine ⟨(key, t) :: entries, m', List.forall_mem_cons.mpr ⟨known, each⟩, ?_, outer⟩
    have all := spells_append.mpr ⟨m, one, spelled⟩
    simpa [entryTokens, comma] using all

theorem skipKey_ok {opened : List Bracket} {s s' : List Char} (h : skipKey opened s = .ok s') :
    ∃ key, Entry opened key ∧
      ∀ (t : Tree) (m : List Char), Spells t.tokens s' m → Spells (key ++ t.tokens) s m := by
  match opened with
  | [] =>
    cases h
    exact ⟨[], rfl, fun _ _ spelled => spelled⟩
  | .square :: _ =>
    cases h
    exact ⟨[], .square, fun _ _ spelled => spelled⟩
  | .curly :: _ =>
    simp only [skipKey] at h
    split at h
    · cases h
    · rename_i rest quote
      cases closed : skipString rest with
      | error e =>
        rw [closed] at h
        cases h
      | ok s₁ =>
        rw [closed] at h
        obtain ⟨raw, rfl, body⟩ := skipString_ok closed
        have mark := (spells_singleton (by rfl)).mpr (colon_ok h)
        have key := spells_quoted (q := ⟨raw, body⟩).mpr ⟨s₁, quote, mark⟩
        exact ⟨_, .curly ⟨raw, body⟩, fun t m value => spells_append.mpr ⟨s', key, value⟩⟩
    · cases h

theorem skipStart_ok {b? : Option Bracket} {s rest : List Char} (h : skipStart s = .ok (b?, rest)) :
    match b? with
    | none => ∃ v, Spells (Tree.scalar v).tokens s rest
    | some b => skipSpace s = b.opening :: rest := by
  unfold skipStart at h
  split at h
  · cases h
  rename_i c s' found
  dsimp only at h
  split at h
  · cases h
    exact found
  · cases h
    exact found
  · obtain ⟨_, read, same⟩ := map_eq_ok.mp h
    cases same
    exact ⟨.null, spells_null found read⟩
  · obtain ⟨_, read, same⟩ := map_eq_ok.mp h
    cases same
    exact ⟨.boolean true, spells_true found read⟩
  · obtain ⟨_, read, same⟩ := map_eq_ok.mp h
    cases same
    exact ⟨.boolean false, spells_false found read⟩
  · obtain ⟨_, read, same⟩ := map_eq_ok.mp h
    cases same
    obtain ⟨q, spelled⟩ := exists_string found (skipString_ok read)
    exact ⟨.string q, spelled⟩
  · obtain ⟨_, read, same⟩ := map_eq_ok.mp h
    cases same
    obtain ⟨u, spelled⟩ := exists_negative found read
    exact ⟨.number true u, spelled⟩
  · split at h
    · rename_i digit
      obtain ⟨_, read, same⟩ := map_eq_ok.mp h
      cases same
      obtain ⟨u, spelled⟩ := exists_positive found read
      exact ⟨.number false u, spelled⟩
    · cases h

/-- A bracket with entries of its kind is a tree. -/
theorem exists_bracketed {b : Bracket} {entries : List (List (List Char) × Tree)}
    (each : ∀ e ∈ entries, b.Key e.1) {s s' rest : List Char}
    (found : skipSpace s = b.opening :: s')
    (spelled : Spells (entryTokens true entries ++ [[b.closing]]) s' rest) :
    ∃ t : Tree, Spells t.tokens s rest := by
  cases b with
  | square =>
    have range : entries ∈ Set.range (List.map fun t : Tree => (([] : List (List Char)), t)) := by
      rw [Set.range_list_map]
      intro e mem
      obtain ⟨key, t⟩ := e
      cases each _ mem
      exact ⟨t, rfl⟩
    obtain ⟨items, rfl⟩ := range
    rw [← itemTokens_eq] at spelled
    exact ⟨.array items, spells_array.mpr ⟨s', found, spelled⟩⟩
  | curly =>
    have range : entries ∈
        Set.range (List.map fun m : Quoted × Tree => ([m.1.text, [':']], m.2)) := by
      rw [Set.range_list_map]
      intro e mem
      obtain ⟨key, t⟩ := e
      cases each _ mem with
      | curly q => exact ⟨(q, t), rfl⟩
    obtain ⟨members, rfl⟩ := range
    rw [← memberTokens_eq] at spelled
    exact ⟨.object members, spells_object.mpr ⟨s', found, spelled⟩⟩

/-- What the loop goes on with inside the brackets: a value, and all that closes them. -/
def Goes (opened : List Bracket) (s rest : List Char) : Prop :=
  ∃ key, ∃ t : Tree, ∃ m, Entry opened key ∧ Spells (key ++ t.tokens) s m ∧ Closes opened m rest

section Budget

variable {budget : List Char}
  (ih : ∀ {opened : List Bracket} {s rest : List Char},
    skipFrom budget opened s = .ok rest → Goes opened s rest)

include ih

theorem skipAfter_ok {opened : List Bracket} {s rest : List Char}
    (h : skipAfter budget opened s = .ok rest) : Closes opened s rest := by
  induction opened generalizing s with
  | nil =>
    cases h
    exact .done _
  | cons b opened outer =>
    cases found : skipSpace s with
    | nil =>
      simp only [skipAfter, closeBrackets, found] at h
      cases h
    | cons c s' =>
      by_cases separator : c = ','
      · subst separator
        rw [skipAfter, closeBrackets_comma found] at h
        obtain ⟨key, t, m, known, one, others⟩ := ih h
        exact .entry known (spells_append.mpr ⟨s', (spells_singleton (by rfl)).mpr found, one⟩) others
      by_cases closing : c = b.closing
      · subst closing
        rw [skipAfter, closeBrackets_closing found] at h
        exact .closing found (outer h)
      · simp only [skipAfter, closeBrackets, found, if_neg separator, if_neg closing] at h
        cases h

theorem skipOne_ok {opened : List Bracket} {s rest : List Char}
    (h : skipOne budget opened s = .ok rest) :
    ∃ t : Tree, ∃ m, Spells t.tokens s m ∧ Closes opened m rest := by
  cases start : skipStart s with
  | error e =>
    rw [skipOne, start] at h
    cases h
  | ok r =>
    obtain ⟨b?, s'⟩ := r
    rw [skipOne, start] at h
    cases b? with
    | none =>
      obtain ⟨v, spelled⟩ := skipStart_ok start
      exact ⟨_, s', spelled, skipAfter_ok ih h⟩
    | some b =>
      have opening := skipStart_ok start
      change (closesAtOnce b s').bind _ = _ at h
      cases found : skipSpace s' with
      | nil =>
        simp only [closesAtOnce, found] at h
        cases h
      | cons c s₂ =>
        by_cases closing : c = b.closing
        · subst closing
          simp only [closesAtOnce, found, if_true] at h
          obtain ⟨t, spelled⟩ := exists_bracketed (List.forall_mem_nil _) opening
            ((spells_singleton b.closing_visible).mpr found)
          exact ⟨t, s₂, spelled, skipAfter_ok ih h⟩
        · simp only [closesAtOnce, found, if_neg closing] at h
          obtain ⟨key, t, m, known, one, others⟩ := ih h
          obtain ⟨entries, m', each, later, outer⟩ := others.entries
          have all : Spells (entryTokens true ((key, t) :: entries) ++ [[b.closing]]) s' m' := by
            simpa [entryTokens, comma] using spells_append.mpr ⟨m, one, later⟩
          have keys : ∀ e ∈ (key, t) :: entries, b.Key e.1 :=
            List.forall_mem_cons.mpr ⟨known, each⟩
          obtain ⟨t', spelled⟩ := exists_bracketed keys opening all
          exact ⟨t', m', spelled, outer⟩

end Budget

theorem skipFrom_ok {budget : List Char} {opened : List Bracket} {s rest : List Char}
    (h : skipFrom budget opened s = .ok rest) : Goes opened s rest := by
  induction budget generalizing opened s rest with
  | nil =>
    rw [skipFrom] at h
    cases key : skipKey opened s <;> rw [key] at h <;> cases h
  | cons d budget ih =>
    rw [skipFrom_cons] at h
    cases keyed : skipKey opened s with
    | error e =>
      rw [keyed] at h
      cases h
    | ok s' =>
      rw [keyed] at h
      obtain ⟨key, known, before⟩ := skipKey_ok keyed
      obtain ⟨t, m, spelled, closes⟩ := skipOne_ok ih h
      exact ⟨key, t, m, known, before t m spelled, closes⟩

/-- What is passed over is a tree. -/
theorem skipValue_ok {s rest : List Char} (h : skipValue s = .ok rest) :
    ∃ t : Tree, Spells t.tokens s rest := by
  obtain ⟨key, t, m, known, spelled, closes⟩ := skipFrom_ok h
  cases known
  cases closes
  exact ⟨t, spelled⟩

end CommandDeck.Json
