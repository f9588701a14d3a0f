import CommandDeck.Json.Record
import CommandDeck.Proofs.Json.Skip

/-!
# Readers of trees

A reader reads trees when what it accepts is always a tree and when it makes the same of every text
that spells a tree, whatever the white space and whatever follows. Then it is a function of trees:
`decode` is what it makes of the tree written without white space. The readers of strings, booleans and
numbers read trees, and so does one of values that may be `null`.
-/

namespace CommandDeck.Json

open Text (isDigit)

section Decoding

variable {α β : Type} {n : Nat} {read : Reader α} {read' : Reader β}

/-- What a reader makes of the tree written without white space. -/
def decode (read : Reader α) (t : Tree) : Option α :=
  (read nestingLimit t.tokens.flatten).toOption.map (·.1)

/-- Where `n` levels may be opened, the reader makes `f t` of every text that spells `t`, and leaves what
follows. -/
def Denotes (n : Nat) (read : Reader α) (f : Tree → Option α) : Prop :=
  ∀ {levels : Nat}, n ≤ levels → ∀ {t : Tree} {s rest : List Char}, Spells t.tokens s rest →
    Ends rest → (read levels s).toOption = (f t).map fun a => (a, rest)

structure ReadsTrees (n : Nat) (read : Reader α) : Prop where
  room : n ≤ nestingLimit
  denotes : Denotes n read (decode read)
  sound : ∀ {levels : Nat} {s rest : List Char} {a : α}, read levels s = .ok (a, rest) →
    ∃ t : Tree, Spells t.tokens s rest

theorem Denotes.decode_eq {f : Tree → Option α} (h : Denotes n read f) (room : n ≤ nestingLimit)
    (t : Tree) : decode read t = f t := by
  rw [decode, h room (spells_flatten t.tokens) ends_nil, Option.map_map]
  exact Option.map_id'

theorem ReadsTrees.of {f : Tree → Option α} (room : n ≤ nestingLimit) (denotes : Denotes n read f)
    (sound : ∀ {levels : Nat} {s rest : List Char} {a : α}, read levels s = .ok (a, rest) →
      ∃ t : Tree, Spells t.tokens s rest) : ReadsTrees n read where
  room := room
  denotes := by
    have same : decode read = f := funext (denotes.decode_eq room)
    rwa [same]
  sound := sound

/-- What was read when something was made of it. -/
theorem read_of_bind {r : Except ReadError α} {g : α → Option β} {after : α → List Char} {b : β}
    {rest : List Char}
    (h : (r.toOption.bind fun a => (g a).map fun b => (b, after a)) = some (b, rest)) :
    ∃ a, r = .ok a ∧ after a = rest := by
  obtain ⟨a, first, second⟩ := Option.bind_eq_some_iff.mp h
  obtain ⟨_, _, same⟩ := Option.map_eq_some_iff.mp second
  exact ⟨a, toOption_eq_some.mp first, (Prod.mk.inj same).2⟩

/-- The second reader reads as the first and then makes something else of the value, or refuses it. -/
def Through (read : Reader α) (g : α → Option β) (read' : Reader β) : Prop :=
  ∀ levels s, (read' levels s).toOption =
    (read levels s).toOption.bind fun r => (g r.1).map fun b => (b, r.2)

theorem Through.decode_eq {g : α → Option β} (through : Through read g read') (t : Tree) :
    decode read' t = (decode read t).bind g := by
  rw [decode, decode, through nestingLimit]
  cases (read nestingLimit t.tokens.flatten).toOption with
  | none => rfl
  | some r =>
    simp only [Option.bind_some, Option.map_some, Option.map_map]
    exact Option.map_id'

theorem ReadsTrees.through {g : α → Option β} (h : ReadsTrees n read)
    (through : Through read g read') : ReadsTrees n read' where
  room := h.room
  denotes := by
    intro levels enough t s rest spelled ends
    rw [through levels s, through.decode_eq, h.denotes enough spelled ends]
    cases decode read t <;> rfl
  sound := by
    intro levels s rest b read
    have same := through levels s
    rw [read, toOption_ok] at same
    obtain ⟨r, first, rfl⟩ := read_of_bind same.symm
    exact h.sound first

end Decoding

/-! ### Scalars -/

section Scalars

variable {α : Type}

theorem toOption_wrongKind (expected : String) (c : Char) (rest : List Char) :
    (wrongKind expected c rest : Except ReadError α).toOption = none := by
  have refused : ∀ {β : Type} (r : Except ReadError β) (found : β → Found),
      (r.bind fun b => (.error (.invalidType (found b) expected) : Except ReadError α)).toOption =
        none := by
    intro β r found
    cases r <;> rfl
  unfold wrongKind
  split
  · exact refused _ _
  · exact refused _ _
  · exact refused _ _
  · exact refused _ _
  · exact refused _ _
  · rfl
  · rfl
  · split
    · exact refused _ _
    · rfl

theorem wrongKind_ne_ok {expected : String} {c : Char} {rest : List Char} {a : α} :
    wrongKind expected c rest ≠ .ok a := by
  intro h
  have refused := toOption_wrongKind (α := α) expected c rest
  rw [h] at refused
  cases refused

theorem atValue_found {read : Char → List Char → Except ReadError (α × List Char)} {c : Char}
    {s s' : List Char} (found : skipSpace s = c :: s') : atValue read s = read c s' := by
  simp only [atValue, found]

theorem atValue_ok {read : Char → List Char → Except ReadError (α × List Char)} {s : List Char}
    {r : α × List Char} (h : atValue read s = .ok r) :
    ∃ c s', skipSpace s = c :: s' ∧ read c s' = .ok r := by
  unfold atValue at h
  split at h
  · cases h
  · exact ⟨_, _, by assumption, h⟩

theorem oneLevelDown_ok {read : Reader α} {levels : Nat} {s : List Char} {r : α × List Char}
    (h : oneLevelDown read levels s = .ok r) : ∃ k, levels = k + 1 ∧ read k s = .ok r := by
  cases levels with
  | zero => cases h
  | succ k => exact ⟨k, rfl, h⟩

/-- The value of a number with its sign, if it is in range. -/
def Unsigned.value? (u : Unsigned) (negative : Bool) : Option Numeral :=
  (readNumeral negative u.text).toOption.map (·.1)

theorem readNumeral_unsigned (u : Unsigned) (negative : Bool) {rest : List Char}
    (ends : Ends rest) :
    (readNumeral negative (u.text ++ rest)).toOption =
      (u.value? negative).map fun m => (m, rest) := by
  have settled := (u.valid.settled negative).eq ends
  rwa [List.append_nil] at settled

theorem readString_quoted (q : Quoted) {s rest : List Char} (found : skipSpace s = q.text ++ rest)
    (ends : Ends rest) :
    ∃ s', skipSpace s = '"' :: s' ∧
      (readString s').toOption = q.content?.map fun content => (content, rest) := by
  refine ⟨q.raw ++ '"' :: rest, ?_, readString_body q.body ends⟩
  rw [found, Quoted.text, List.cons_append, List.append_assoc]
  rfl

/-- What becomes of the scalars of each kind. -/
structure Kinds (α : Type) where
  null : Option α
  boolean : Bool → Option α
  string : String → Option α
  number : Numeral → Option α

namespace Kinds

/-- What is made of a tree: arrays and objects are refused. -/
def value (k : Kinds α) : Tree → Option α
  | .scalar .null => k.null
  | .scalar (.boolean b) => k.boolean b
  | .scalar (.string q) => q.content?.bind k.string
  | .scalar (.number negative u) => (u.value? negative).bind k.number
  | _ => none

/-- What is read of a value that begins with `c`. -/
def readAt (k : Kinds α) (c : Char) (rest : List Char) : Option (α × List Char) :=
  match c with
  | 'n' => (readNullTail rest).toOption.bind fun s => k.null.map fun a => (a, s)
  | 't' => (readTrueTail rest).toOption.bind fun s => (k.boolean true).map fun a => (a, s)
  | 'f' => (readFalseTail rest).toOption.bind fun s => (k.boolean false).map fun a => (a, s)
  | '"' => (readString rest).toOption.bind fun r => (k.string r.1).map fun a => (a, r.2)
  | '-' => (readNumeral true rest).toOption.bind fun r => (k.number r.1).map fun a => (a, r.2)
  | c =>
    if isDigit c then
      (readNumeral false (c :: rest)).toOption.bind fun r => (k.number r.1).map fun a => (a, r.2)
    else none

theorem readAt_digit (k : Kinds α) {c : Char} (digit : isDigit c = true) (rest : List Char) :
    k.readAt c rest =
      (readNumeral false (c :: rest)).toOption.bind fun r => (k.number r.1).map fun a => (a, r.2) := by
  unfold readAt
  split
  case h_6 => exact if_pos digit
  all_goals exact absurd digit (by decide)

/-- A reader of scalars reads these kinds. -/
def ReadBy (k : Kinds α) (read : Reader α) : Prop :=
  ∀ levels s, (read levels s).toOption =
    match skipSpace s with
    | [] => none
    | c :: rest => k.readAt c rest

variable {k : Kinds α} {read : Reader α}

theorem ReadBy.found (h : k.ReadBy read) (levels : Nat) {s s' : List Char} {c : Char}
    (found : skipSpace s = c :: s') : (read levels s).toOption = k.readAt c s' := by
  rw [h levels s, found]

theorem ReadBy.denotes (h : k.ReadBy read) : Denotes 0 read k.value := by
  intro levels _ t s rest spelled ends
  match t with
  | .scalar .null => rw [h.found levels (spells_scalar.mp spelled)]; rfl
  | .scalar (.boolean true) => rw [h.found levels (spells_scalar.mp spelled)]; rfl
  | .scalar (.boolean false) => rw [h.found levels (spells_scalar.mp spelled)]; rfl
  | .scalar (.string q) =>
    obtain ⟨s', quote, read⟩ := readString_quoted q (spells_scalar.mp spelled) ends
    rw [h.found levels quote, readAt, read, value]
    cases q.content? <;> rfl
  | .scalar (.number true u) =>
    have found := spells_scalar.mp spelled
    rw [Scalar.text, List.cons_append] at found
    rw [h.found levels found, readAt, readNumeral_unsigned u true ends, value]
    cases u.value? true <;> rfl
  | .scalar (.number false u) =>
    have read := readNumeral_unsigned u false ends
    have found := spells_scalar.mp spelled
    obtain ⟨c, more, text, digit⟩ := u.valid.head
    rw [Scalar.text, text, List.cons_append] at found
    rw [text, List.cons_append] at read
    rw [h.found levels found, k.readAt_digit digit, read, value]
    cases u.value? false <;> rfl
  | .array items =>
    obtain ⟨s', found, -⟩ := spells_array.mp spelled
    rw [h.found levels found]
    rfl
  | .object members =>
    obtain ⟨s', found, -⟩ := spells_object.mp spelled
    rw [h.found levels found]
    rfl

theorem ReadBy.sound (h : k.ReadBy read) {levels : Nat} {s rest : List Char} {a : α}
    (done : read levels s = .ok (a, rest)) : ∃ t : Tree, Spells t.tokens s rest := by
  have same := h levels s
  rw [done, toOption_ok] at same
  cases found : skipSpace s with
  | nil =>
    rw [found] at same
    cases same
  | cons c s' =>
    rw [found] at same
    replace same := same.symm
    dsimp only at same
    unfold readAt at same
    split at same
    · obtain ⟨_, read, rfl⟩ := read_of_bind same
      exact ⟨_, spells_null found read⟩
    · obtain ⟨_, read, rfl⟩ := read_of_bind same
      exact ⟨_, spells_true found read⟩
    · obtain ⟨_, read, rfl⟩ := read_of_bind same
      exact ⟨_, spells_false found read⟩
    · obtain ⟨_, read, rfl⟩ := read_of_bind same
      obtain ⟨q, spelled⟩ := exists_string found (readString_ok read)
      exact ⟨_, spelled⟩
    · obtain ⟨_, read, rfl⟩ := read_of_bind same
      obtain ⟨u, spelled⟩ := exists_negative found (skipNumeral_of_read read)
      exact ⟨_, spelled⟩
    · split at same
      · obtain ⟨_, read, rfl⟩ := read_of_bind same
        obtain ⟨u, spelled⟩ := exists_positive found (skipNumeral_of_read read)
        exact ⟨_, spelled⟩
      · cases same

theorem ReadBy.readsTrees (h : k.ReadBy read) : ReadsTrees 0 read :=
  .of (Nat.zero_le _) h.denotes h.sound

end Kinds

end Scalars

/-! ### The readers of scalars -/

/-- A reader that begins with a visible character reads these kinds when it does so at each one. -/
theorem Kinds.ReadBy.of {α : Type} {k : Kinds α} {read : Reader α}
    (each : ∀ levels, ∃ begun, read levels = atValue begun ∧
      ∀ c rest, (begun c rest).toOption = k.readAt c rest) : k.ReadBy read := by
  intro levels s
  obtain ⟨begun, same, each⟩ := each levels
  rw [same, atValue]
  cases skipSpace s with
  | nil => rfl
  | cons c rest => exact each c rest

def stringKinds : Kinds String := ⟨none, fun _ => none, some, fun _ => none⟩

def booleanKinds : Kinds Bool := ⟨none, some, fun _ => none, fun _ => none⟩

def numeralKinds : Kinds Numeral := ⟨none, fun _ => none, fun _ => none, some⟩

theorem readBy_string : stringKinds.ReadBy string := by
  refine .of fun _ => ⟨_, rfl, fun c rest => ?_⟩
  unfold Kinds.readAt
  by_cases quote : c = '"'
  · subst quote
    simp [stringKinds]
  · rw [if_neg quote, toOption_wrongKind]
    split <;> simp_all [stringKinds]

theorem readBy_boolean : booleanKinds.ReadBy boolean := by
  refine .of fun _ => ⟨_, rfl, fun c rest => ?_⟩
  unfold Kinds.readAt
  by_cases yes : c = 't'
  · subst yes
    rw [if_pos rfl]
    cases readTrueTail rest <;> rfl
  by_cases no : c = 'f'
  · subst no
    rw [if_neg yes, if_pos rfl]
    cases readFalseTail rest <;> rfl
  · rw [if_neg yes, if_neg no, toOption_wrongKind]
    split <;> simp_all [booleanKinds]

theorem readBy_numeral (expected : String) : numeralKinds.ReadBy fun _ => numeral expected := by
  refine .of fun _ => ⟨_, rfl, fun c rest => ?_⟩
  by_cases minus : c = '-'
  · subst minus
    rw [if_pos rfl]
    exact (Option.bind_fun_some _).symm
  by_cases digit : isDigit c = true
  · rw [if_neg minus, if_pos digit, Kinds.readAt_digit _ digit]
    exact (Option.bind_fun_some _).symm
  · rw [if_neg minus, if_neg digit, toOption_wrongKind]
    unfold Kinds.readAt
    split <;> simp_all [numeralKinds]

/-- The double of a number. -/
def doubleOf : Numeral → Option Binary64
  | .integer i => some (doubleOfInt i)
  | .float x => some x

/-- The line that a number names. -/
def lineOf : Numeral → Option UInt32
  | .integer i => if 0 ≤ i ∧ i < 0x100000000 then some (UInt32.ofNat i.toNat) else none
  | .float _ => none

theorem through_double : Through (fun _ => numeral "f64") doubleOf double := by
  intro _ s
  dsimp only [double]
  rcases numeral "f64" s with e | ⟨i | x, rest⟩ <;> rfl

theorem readsTrees_double : ReadsTrees 0 double :=
  (readBy_numeral "f64").readsTrees.through through_double

theorem readsTrees_lineNumber : ReadsTrees 0 lineNumber := by
  refine (readBy_numeral "u32").readsTrees.through (g := lineOf) fun _ s => ?_
  rw [lineNumber]
  rcases numeral "u32" s with e | ⟨i | x, rest⟩
  · rfl
  · simp only [toOption_ok, Option.bind_some, lineOf]
    split <;> rfl
  · rfl

section Optional

variable {α : Type} {n : Nat} {read : Reader α}

/-- The word `null` is no value, and everything else is one. -/
def optionalValue (f : Tree → Option α) : Tree → Option (Option α)
  | .scalar .null => some none
  | t => (f t).map some

theorem optionalValue_of_ne {f : Tree → Option α} {t : Tree} (present : t ≠ .scalar .null) :
    optionalValue f t = (f t).map some := by
  unfold optionalValue
  split
  · exact absurd rfl present
  · rfl

theorem denotes_optional {f : Tree → Option α} (h : Denotes n read f) :
    Denotes n (optional read) (optionalValue f) := by
  intro levels enough t s rest spelled ends
  by_cases null : t = .scalar .null
  · subst null
    simp only [optional, spells_scalar.mp spelled]
    rfl
  · obtain ⟨c, s', found, begins, -⟩ := Spells.begin spelled
    have letter : c ≠ 'n' := fun same => null (begins.null same)
    have value := h enough spelled ends
    rw [optionalValue_of_ne null, optional, found]
    split
    · rename_i same
      exact absurd (List.cons.inj same).1 letter
    · rw [toOption_map, value]
      cases f t <;> rfl

theorem ReadsTrees.optional (h : ReadsTrees n read) : ReadsTrees n (optional read) := by
  refine .of h.room (denotes_optional h.denotes) fun {levels s rest a} done => ?_
  unfold Json.optional at done
  split at done
  · rename_i found
    obtain ⟨_, word, same⟩ := map_eq_ok.mp done
    cases same
    exact ⟨_, spells_null found word⟩
  · obtain ⟨_, value, same⟩ := map_eq_ok.mp done
    cases same
    exact h.sound value

theorem ReadsTrees.decode_optional (h : ReadsTrees n read) (t : Tree) :
    decode (Json.optional read) t = optionalValue (decode read) t :=
  Denotes.decode_eq (denotes_optional h.denotes) h.room t

end Optional

/-! ### Whole texts -/

section Texts

variable {α : Type} {n : Nat} {read : Reader α} {text : String}

theorem ReadsTrees.readAll (h : ReadsTrees n read) {t : Tree} (spelled : t.Spelled text) :
    (readAll read text).toOption = decode read t := by
  obtain ⟨rest, tokens, blank⟩ := spelled
  have whole := h.denotes h.room tokens (by simpa using ends_blank blank ends_nil)
  have done : skipSpace rest = [] := List.dropWhile_eq_nil_iff.mpr blank
  cases made : decode read t with
  | none =>
    rw [made] at whole
    obtain ⟨e, found⟩ := toOption_eq_none.mp whole
    simp only [Json.readAll, found, toOption_error]
  | some a =>
    rw [made] at whole
    simp only [Json.readAll, toOption_eq_some.mp whole, done, toOption_ok]

theorem ReadsTrees.exists_tree (h : ReadsTrees n read) {a : α} (done : Json.readAll read text = .ok a) :
    ∃ t : Tree, t.Spelled text := by
  unfold Json.readAll at done
  split at done
  · cases done
  · rename_i rest found
    split at done
    · rename_i nothing
      obtain ⟨t, tokens⟩ := h.sound found
      exact ⟨t, rest, tokens, List.dropWhile_eq_nil_iff.mp nothing⟩
    · cases done

end Texts

end CommandDeck.Json
