import CommandDeck.Json.Skip
import CommandDeck.Proofs.Json.Escape
import CommandDeck.Proofs.Json.WholeNumber

/-!
# The grammar of strings

What may stand between the quotes of a string. The reader and the one that passes over take exactly
such a text up to a quote: what they accept is of the grammar, and what is of the grammar is passed
over whatever its escapes name. The reader refuses it where an escape has no partner, and then it does
so whatever follows the string.
-/

namespace CommandDeck.Json

open Text (hexValue?)

section Outcomes

variable {α β : Type}

@[simp]
theorem toOption_ok (a : α) : (Except.ok a : Except ReadError α).toOption = some a := rfl

@[simp]
theorem toOption_error (e : ReadError) : (Except.error e : Except ReadError α).toOption = none := rfl

@[simp]
theorem toOption_map (r : Except ReadError α) (f : α → β) :
    (r.map f).toOption = r.toOption.map f := by
  cases r <;> rfl

theorem toOption_bind (r : Except ReadError α) (f : α → Except ReadError β) :
    (r.bind f).toOption = r.toOption.bind fun a => (f a).toOption := by
  cases r <;> rfl

theorem bind_eq_ok {r : Except ReadError α} {f : α → Except ReadError β} {b : β} :
    r.bind f = .ok b ↔ ∃ a, r = .ok a ∧ f a = .ok b := by
  cases r with
  | error e => exact ⟨nofun, nofun⟩
  | ok a => exact ⟨fun h => ⟨a, rfl, h⟩, fun ⟨_, same, h⟩ => by cases same; exact h⟩

theorem map_eq_ok {r : Except ReadError α} {f : α → β} {b : β} :
    r.map f = .ok b ↔ ∃ a, r = .ok a ∧ f a = b := by
  cases r with
  | error e => exact ⟨nofun, nofun⟩
  | ok a => exact ⟨fun h => ⟨a, rfl, Except.ok.inj h⟩, fun ⟨_, same, h⟩ => by cases same; rw [← h]; rfl⟩

theorem toOption_eq_some {ε : Type} {r : Except ε α} {a : α} :
    r.toOption = some a ↔ r = .ok a := by
  cases r <;> simp [Except.toOption]

theorem toOption_eq_none {ε : Type} {r : Except ε α} : r.toOption = none ↔ ∃ e, r = .error e := by
  cases r <;> simp [Except.toOption]

/-- What `read` makes of its text does not depend on what follows, which it leaves as it is. -/
def Settled (read : List Char → Except ReadError (α × List Char)) : Prop :=
  ∃ a? : Option α, ∀ rest, Ends rest → (read rest).toOption = a?.map fun a => (a, rest)

/-- The value is the one read where the text ends. -/
theorem Settled.eq {read : List Char → Except ReadError (α × List Char)} (settled : Settled read)
    {rest : List Char} (ends : Ends rest) :
    (read rest).toOption = ((read []).toOption.map (·.1)).map fun a => (a, rest) := by
  obtain ⟨a?, h⟩ := settled
  rw [h rest ends, h [] ends_nil, Option.map_map]
  cases a? <;> rfl

theorem Settled.congr {read other : List Char → Except ReadError (α × List Char)}
    (settled : Settled other) (same : ∀ rest, Ends rest → read rest = other rest) :
    Settled read := by
  obtain ⟨a?, h⟩ := settled
  exact ⟨a?, fun rest ends => by rw [same rest ends, h rest ends]⟩

theorem settled_ok (a : α) : Settled fun rest => .ok (a, rest) := ⟨some a, fun _ _ => rfl⟩

theorem settled_error (e : ReadError) :
    Settled fun _ : List Char => (.error e : Except ReadError (α × List Char)) :=
  ⟨none, fun _ _ => rfl⟩

theorem Settled.map {read : List Char → Except ReadError (α × List Char)} (settled : Settled read)
    (f : α → β) : Settled fun rest => (read rest).map fun r => (f r.1, r.2) := by
  obtain ⟨a?, h⟩ := settled
  refine ⟨a?.map f, fun rest ends => ?_⟩
  simp only [toOption_map, h rest ends, Option.map_map]
  rfl

end Outcomes

/-- What may stand between two quotes. Four digits in base sixteen are an escape whatever they name. -/
inductive StringBody : List Char → Prop where
  | nil : StringBody []
  | plain {c : Char} {raw : List Char} (quote : c ≠ '"') (backslash : c ≠ '\\')
      (printed : ¬ c.toNat < 0x20) (more : StringBody raw) : StringBody (c :: raw)
  | short {letter : Char} {raw : List Char}
      (known : letter ∈ ['"', '\\', '/', 'b', 'f', 'n', 'r', 't']) (more : StringBody raw) :
      StringBody ('\\' :: letter :: raw)
  | unicode {a b c d : Char} {raw : List Char}
      (hex : ∀ digit ∈ [a, b, c, d], (hexValue? digit).isSome = true) (more : StringBody raw) :
      StringBody ('\\' :: 'u' :: a :: b :: c :: d :: raw)

theorem shortEscape?_isSome (letter : Char) :
    (shortEscape? letter).isSome = true ↔ letter ∈ ['"', '\\', '/', 'b', 'f', 'n', 'r', 't'] := by
  unfold shortEscape?
  split <;> simp_all

/-- The state between two escapes: a leading surrogate may wait for its partner. -/
def EscapeState.waiting : Option Nat → EscapeState
  | none => .plain
  | some lead => .partner lead

theorem exists_shortEscape {letter : Char} (known : letter ∈ ['"', '\\', '/', 'b', 'f', 'n', 'r', 't']) :
    letter ≠ 'u' ∧ ∃ c, shortEscape? letter = some c := by
  obtain ⟨c, named⟩ := Option.isSome_iff_exists.mp ((shortEscape?_isSome letter).mpr known)
  refine ⟨?_, c, named⟩
  rintro rfl
  cases named

theorem exists_hexValues {a b c d : Char}
    (hex : ∀ digit ∈ [a, b, c, d], (hexValue? digit).isSome = true) :
    ∃ v w x y, hexValue? a = some v ∧ hexValue? b = some w ∧ hexValue? c = some x ∧
      hexValue? d = some y := by
  simp only [List.forall_mem_cons, Option.isSome_iff_exists] at hex
  obtain ⟨⟨v, first⟩, ⟨w, second⟩, ⟨x, third⟩, ⟨y, fourth⟩, -⟩ := hex
  exact ⟨v, w, x, y, first, second, third, fourth⟩

theorem shorterThan_of_le {n : Nat} {s : List Char} (enough : n ≤ s.length) :
    shorterThan n s = false := by
  induction s generalizing n with
  | nil =>
    obtain rfl : n = 0 := Nat.le_zero.mp enough
    rfl
  | cons c s ih =>
    cases n with
    | zero => rfl
    | succ n =>
      have size := c.utf8Size_pos
      have length : n + 1 ≤ s.length + 1 := enough
      exact ih (by omega)

theorem endEscape_waiting {strict : Bool} {lead : Option Nat} {value : Nat} {next : EscapeState}
    {done : List Char} (h : endEscape strict lead value = .ok (next, done)) :
    ∃ lead, next = .waiting lead := by
  simp only [endEscape] at h
  split at h
  · cases lead with
    | none =>
      dsimp only at h
      split at h
      · cases h
      split at h <;> cases h
      · exact ⟨some value, rfl⟩
      · exact ⟨none, rfl⟩
    | some high =>
      dsimp only at h
      split at h <;> cases h
      exact ⟨none, rfl⟩
  · cases h
    exact ⟨none, rfl⟩

section Reading

variable (strict : Bool) (lead : Option Nat) (before : List Char)

theorem readStringFrom_close (rest : List Char) :
    readStringFrom strict .plain before ('"' :: rest) = .ok (before.reverse, rest) := by
  simp [readStringFrom, EscapeState.isPlain]

/-- While a partner is missing, nothing but an escape may follow. -/
theorem readStringFrom_partner {c : Char} (other : c ≠ '\\') (s : List Char) (high : Nat) :
    readStringFrom strict (.partner high) before (c :: s) = .error .unpairedSurrogate := by
  simp [readStringFrom, EscapeState.isPlain, stringStep, other]

theorem readStringFrom_short_partner {letter : Char} (other : letter ≠ 'u') (s : List Char)
    (high : Nat) :
    readStringFrom strict (.partner high) before ('\\' :: letter :: s) =
      .error .unpairedSurrogate := by
  simp [readStringFrom, EscapeState.isPlain, stringStep, other]

/-- Four digits in base sixteen are read as one escape. -/
theorem readStringFrom_unicode {a b c d : Char} {v w x y : Nat}
    (first : hexValue? a = some v) (second : hexValue? b = some w) (third : hexValue? c = some x)
    (fourth : hexValue? d = some y) (s : List Char) :
    readStringFrom strict (.waiting lead) before ('\\' :: 'u' :: a :: b :: c :: d :: s) =
      (endEscape strict lead (((v * 16 + w) * 16 + x) * 16 + y)).bind fun r =>
        readStringFrom strict r.1 (r.2 ++ before) s := by
  have enough : shorterThan 4 (a :: b :: c :: d :: s) = false :=
    shorterThan_of_le (Nat.le_add_left 4 s.length)
  cases lead <;>
    simp [EscapeState.waiting, readStringFrom, EscapeState.isPlain, stringStep, enough, first,
      second, third, fourth] <;>
    cases endEscape strict _ (((v * 16 + w) * 16 + x) * 16 + y) <;> rfl

end Reading

/-- From between two escapes, the rest of a string is read the same way whatever follows it. -/
theorem StringBody.settled_from {raw : List Char} (body : StringBody raw) (strict : Bool)
    (lead : Option Nat) (before : List Char) :
    Settled fun rest => readStringFrom strict (.waiting lead) before (raw ++ '"' :: rest) := by
  -- A surrogate that waits for its partner is refused by all that can follow but its partner.
  induction body generalizing lead before with
  | nil =>
    cases lead with
    | none => simpa [EscapeState.waiting, readStringFrom_close] using settled_ok before.reverse
    | some high =>
      have refused := readStringFrom_partner strict before (c := '"') (by decide)
      simpa [EscapeState.waiting, refused] using settled_error .unpairedSurrogate
  | @plain c raw quote backslash printed _ ih =>
    cases lead with
    | none =>
      simpa [EscapeState.waiting, readStringFrom_unescaped _ _ quote backslash printed] using
        ih none (c :: before)
    | some high =>
      have refused := readStringFrom_partner strict before backslash
      simpa [EscapeState.waiting, refused] using settled_error .unpairedSurrogate
  | @short letter raw known _ ih =>
    obtain ⟨other, c, known⟩ := exists_shortEscape known
    cases lead with
    | none =>
      simpa [EscapeState.waiting, readStringFrom_short _ _ other known] using ih none (c :: before)
    | some high =>
      have refused := readStringFrom_short_partner strict before other
      simpa [EscapeState.waiting, refused] using settled_error .unpairedSurrogate
  | @unicode a b c d raw hex _ ih =>
    obtain ⟨v, w, x, y, first, second, third, fourth⟩ := exists_hexValues hex
    simp only [List.cons_append,
      readStringFrom_unicode strict lead before first second third fourth]
    cases ended : endEscape strict lead (((v * 16 + w) * 16 + x) * 16 + y) with
    | error e => exact settled_error e
    | ok r =>
      obtain ⟨next, done⟩ := r
      obtain ⟨lead, rfl⟩ := endEscape_waiting ended
      exact ih lead (done ++ before)

/-- Where partners are not asked for, no string is refused. -/
theorem StringBody.skipped_from {raw : List Char} (body : StringBody raw) (before rest : List Char) :
    ∃ content, readStringFrom false .plain before (raw ++ '"' :: rest) = .ok (content, rest) := by
  induction body generalizing before with
  | nil => exact ⟨before.reverse, readStringFrom_close false before rest⟩
  | @plain c raw quote backslash printed _ ih =>
    rw [List.cons_append, readStringFrom_unescaped _ _ quote backslash printed]
    exact ih (c :: before)
  | @short letter raw known _ ih =>
    obtain ⟨other, c, known⟩ := exists_shortEscape known
    rw [List.cons_append, List.cons_append, readStringFrom_short _ _ other known]
    exact ih (c :: before)
  | @unicode a b c d raw hex _ ih =>
    obtain ⟨v, w, x, y, first, second, third, fourth⟩ := exists_hexValues hex
    simp only [List.cons_append]
    rw [show EscapeState.plain = .waiting none from rfl,
      readStringFrom_unicode false none before first second third fourth]
    exact ih before

/-- The string that goes on as `raw` from the state is of the grammar. -/
def EscapeState.Accepts : EscapeState → List Char → Prop
  | plain, raw => StringBody raw
  | partner _, raw => StringBody raw
  | backslash, raw => StringBody ('\\' :: raw)
  | partnerLetter _, raw => StringBody ('\\' :: raw)
  | digits _ missing _, raw => ∃ ds tail, raw = ds ++ tail ∧ ds.length = max missing 1 ∧
      (∀ d ∈ ds, (hexValue? d).isSome = true) ∧ StringBody tail

theorem EscapeState.accepts_waiting {lead : Option Nat} {raw : List Char} :
    (EscapeState.waiting lead).Accepts raw ↔ StringBody raw := by
  cases lead <;> rfl

theorem stringBody_unicode {lead : Option Nat} {raw : List Char}
    (h : (EscapeState.digits lead 4 0).Accepts raw) : StringBody ('\\' :: 'u' :: raw) := by
  obtain ⟨ds, tail, rfl, length, hex, body⟩ := h
  match ds, length with
  | [a, b, c, d], _ => exact .unicode hex body

theorem stringStep_accepts {strict : Bool} {state : EscapeState} {c : Char} {rest : List Char}
    {next : EscapeState} {done : List Char} (h : stringStep strict state c rest = .ok (next, done))
    (going : ¬ (state.isPlain = true ∧ c = '"')) {raw : List Char} (accepts : next.Accepts raw) :
    state.Accepts (c :: raw) := by
  cases state with
  | plain =>
    have quote : c ≠ '"' := fun same => going ⟨rfl, same⟩
    rw [stringStep] at h
    split at h
    · rename_i backslash
      cases h
      subst backslash
      exact accepts
    split at h
    · cases h
    · rename_i backslash printed
      cases h
      exact .plain quote backslash printed accepts
  | backslash =>
    rw [stringStep] at h
    split at h
    · rename_i letter
      split at h <;> cases h
      subst letter
      exact stringBody_unicode accepts
    · split at h <;> cases h
      rename_i d known
      exact .short ((shortEscape?_isSome c).mp (by rw [known]; rfl)) accepts
  | digits lead missing value =>
    rw [stringStep] at h
    split at h
    · cases h
    rename_i d digit
    have hex : (hexValue? c).isSome = true := by rw [digit]; rfl
    split at h
    · rename_i last
      obtain ⟨lead, rfl⟩ := endEscape_waiting h
      refine ⟨[c], raw, rfl, ?_, by simpa using hex, EscapeState.accepts_waiting.mp accepts⟩
      rw [List.length_singleton, Nat.max_eq_right last]
    · cases h
      obtain ⟨ds, tail, rfl, length, hexes, body⟩ := accepts
      refine ⟨c :: ds, tail, rfl, ?_, List.forall_mem_cons.mpr ⟨hex, hexes⟩, body⟩
      rw [List.length_cons, length]
      omega
  | partner lead =>
    rw [stringStep] at h
    split at h <;> cases h
    rename_i backslash
    subst backslash
    exact accepts
  | partnerLetter lead =>
    rw [stringStep] at h
    split at h
    · rename_i letter
      split at h <;> cases h
      subst letter
      exact stringBody_unicode accepts
    · cases h

theorem readStringFrom_accepts {strict : Bool} {state : EscapeState} {before s : List Char}
    {content rest : List Char} (h : readStringFrom strict state before s = .ok (content, rest)) :
    ∃ raw, s = raw ++ '"' :: rest ∧ state.Accepts raw := by
  induction s generalizing state before with
  | nil => cases h
  | cons c s ih =>
    rw [readStringFrom] at h
    split at h
    · rename_i closing
      obtain ⟨plain, rfl⟩ := closing
      cases h
      cases state <;> cases plain
      exact ⟨[], rfl, .nil⟩
    · rename_i going
      split at h
      · cases h
      · rename_i next done step
        obtain ⟨raw, rfl, accepts⟩ := ih h
        exact ⟨c :: raw, rfl, stringStep_accepts step going accepts⟩

/-- What a string holds when its escapes are resolved, if they can be. -/
def unescaped (raw : List Char) : Option String := (readString (raw ++ ['"'])).toOption.map (·.1)

theorem readString_eq (s : List Char) :
    readString s = (readStringFrom true .plain [] s).map fun r => (String.ofList r.1, r.2) := by
  unfold readString
  cases readStringFrom true .plain [] s <;> rfl

theorem StringBody.settled {raw : List Char} (body : StringBody raw) :
    Settled fun rest => readString (raw ++ '"' :: rest) := by
  simp only [readString_eq]
  exact (body.settled_from true none []).map String.ofList

theorem readString_body {raw : List Char} (body : StringBody raw) {rest : List Char}
    (ends : Ends rest) :
    (readString (raw ++ '"' :: rest)).toOption = (unescaped raw).map fun s => (s, rest) :=
  body.settled.eq ends

theorem skipString_body {raw : List Char} (body : StringBody raw) (rest : List Char) :
    skipString (raw ++ '"' :: rest) = .ok rest := by
  obtain ⟨content, read⟩ := body.skipped_from [] rest
  rw [skipString, read]

theorem readString_ok {s : List Char} {content : String} {rest : List Char}
    (h : readString s = .ok (content, rest)) :
    ∃ raw, s = raw ++ '"' :: rest ∧ StringBody raw := by
  rw [readString] at h
  split at h <;> cases h
  rename_i read
  exact readStringFrom_accepts read

theorem skipString_ok {s rest : List Char} (h : skipString s = .ok rest) :
    ∃ raw, s = raw ++ '"' :: rest ∧ StringBody raw := by
  rw [skipString] at h
  split at h <;> cases h
  rename_i read
  exact readStringFrom_accepts read

end CommandDeck.Json
