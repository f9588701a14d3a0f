import Mathlib.Data.List.DropRight
import CommandDeck.Proofs.Json.NumberText
import CommandDeck.Proofs.Json.Reading

/-!
# Documents as trees

The tree of a document keeps its strings and numbers as they are written and forgets the white space.
A text spells a tree when the tokens of the tree stand in it one after the other, each after any white
space. Trees are what it makes sense to rearrange: the members of an object are a list of keys and
values, whatever the values look like.
-/

namespace CommandDeck.Json

open Text (isDigit)

/-- A string as it is written, without its quotes. -/
structure Quoted where
  raw : List Char
  body : StringBody raw

/-- A number as it is written, without its sign. -/
structure Unsigned where
  text : List Char
  valid : NumberText text

/-- A value that is no array and no object. -/
inductive Scalar where
  | null
  | boolean (b : Bool)
  | string (q : Quoted)
  | number (negative : Bool) (u : Unsigned)

inductive Tree where
  | scalar (s : Scalar)
  | array (items : List Tree)
  | object (members : List (Quoted × Tree))

namespace Quoted

def text (q : Quoted) : List Char := '"' :: (q.raw ++ ['"'])

/-- What the string holds, if its escapes name anything. -/
def content? (q : Quoted) : Option String := unescaped q.raw

/-- The string with nothing escaped that need not be. -/
def of (s : String) : Quoted where
  raw := s.toList.flatMap escapedChar
  body := by
    obtain ⟨raw, same, body⟩ := readString_ok (readString_escaped [] s)
    rwa [List.append_cancel_right same]

theorem content?_of (s : String) : (of s).content? = some s := by
  simp only [content?, unescaped, of, readString_escaped, toOption_ok, Option.map_some]

end Quoted

namespace Scalar

def text : Scalar → List Char
  | null => ['n', 'u', 'l', 'l']
  | boolean true => ['t', 'r', 'u', 'e']
  | boolean false => ['f', 'a', 'l', 's', 'e']
  | string q => q.text
  | number true u => '-' :: u.text
  | number false u => u.text

end Scalar

/-- The comma before an item that is not the first. -/
def comma (first : Bool) : List (List Char) := if first then [] else [[',']]

mutual

/-- What a text of the tree is made of, white space apart. -/
def Tree.tokens : Tree → List (List Char)
  | .scalar s => [s.text]
  | .array items => ['['] :: (itemTokens true items ++ [[']']])
  | .object members => ['\x7b'] :: (memberTokens true members ++ [['\x7d']])

def itemTokens (first : Bool) : List Tree → List (List Char)
  | [] => []
  | item :: items => comma first ++ (item.tokens ++ itemTokens false items)

def memberTokens (first : Bool) : List (Quoted × Tree) → List (List Char)
  | [] => []
  | (key, value) :: members =>
    comma first ++ (key.text :: [':'] :: (value.tokens ++ memberTokens false members))

end

/-- From `s` on, the tokens stand one after the other, each after any white space, and `rest` follows. -/
inductive Spells : List (List Char) → List Char → List Char → Prop where
  | nil (rest : List Char) : Spells [] rest rest
  | cons {before token s rest : List Char} {tokens : List (List Char)} (blank : Blank before)
      (more : Spells tokens s rest) : Spells (token :: tokens) (before ++ (token ++ s)) rest

/-- The text is the tree, with any white space between its tokens and around it. -/
def Tree.Spelled (t : Tree) (text : String) : Prop :=
  ∃ rest, Spells t.tokens text.toList rest ∧ Blank rest

theorem spells_token (token : List Char) {before s rest : List Char} {tokens : List (List Char)}
    (blank : Blank before) (more : Spells tokens s rest) :
    Spells (token :: tokens) (before ++ (token ++ s)) rest :=
  .cons blank more

theorem spells_flatten (tokens : List (List Char)) : Spells tokens tokens.flatten [] := by
  induction tokens with
  | nil => exact .nil []
  | cons token tokens ih => exact .cons blank_nil ih

/-- The text without white space. -/
def Tree.compact (t : Tree) : String := String.ofList t.tokens.flatten

/-- Every tree has a text. -/
theorem Tree.spelled (t : Tree) : t.Spelled t.compact :=
  ⟨[], by rw [Tree.compact, String.toList_ofList]; exact spells_flatten t.tokens, blank_nil⟩

/-- The tree is of one kind of value or another, and what holds of the values inside it carries over. -/
@[elab_as_elim, induction_eliminator]
theorem Tree.induct {motive : Tree → Prop} (scalar : ∀ s, motive (.scalar s))
    (array : ∀ items, (∀ t ∈ items, motive t) → motive (.array items))
    (object : ∀ members, (∀ m ∈ members, motive m.2) → motive (.object members)) (t : Tree) :
    motive t :=
  @Tree.rec motive (fun items => ∀ t ∈ items, motive t) (fun members => ∀ m ∈ members, motive m.2)
    (fun m => motive m.2)
    scalar array object (fun _ h => nomatch h)
    (fun _ _ one others => List.forall_mem_cons.mpr ⟨one, others⟩) (fun _ h => nomatch h)
    (fun _ _ one others => List.forall_mem_cons.mpr ⟨one, others⟩) (fun _ _ one => one) t

theorem exists_blank (s : List Char) : ∃ before, Blank before ∧ s = before ++ skipSpace s :=
  ⟨s.takeWhile isSpace, fun _ mem => List.mem_takeWhile_imp mem,
    List.takeWhile_append_dropWhile.symm⟩

theorem length_skipSpace (s : List Char) : (skipSpace s).length ≤ s.length :=
  (List.dropWhile_suffix isSpace).length_le

theorem skipSpace_shorter {c : Char} {s rest : List Char} (found : skipSpace s = c :: rest) :
    rest.length < s.length := by
  have le := length_skipSpace s
  rw [found, List.length_cons] at le
  omega

/-- While anything is taken from a text, a budget of its length has a character to give up. -/
theorem exists_budget {s rest budget : List Char} (shorter : rest.length < s.length)
    (room : s.length ≤ budget.length) :
    ∃ d left, budget = d :: left ∧ s.length ≤ left.length + 1 := by
  cases budget with
  | nil => exact absurd room (by simp only [List.length_nil]; omega)
  | cons d left => exact ⟨d, left, rfl, room⟩

section Spells

variable {c : Char} {token s rest : List Char} {tokens : List (List Char)}

theorem spells_cons (visible : isSpace c = false) :
    Spells ((c :: token) :: tokens) s rest ↔
      ∃ s', skipSpace s = c :: (token ++ s') ∧ Spells tokens s' rest := by
  constructor
  · rintro (_ | @⟨before, _, s', _, _, blank, more⟩)
    exact ⟨s', skipSpace_to blank visible (token ++ s'), more⟩
  · rintro ⟨s', found, more⟩
    obtain ⟨before, blank, parts⟩ := exists_blank s
    rw [parts, found, ← List.cons_append]
    exact .cons blank more

theorem spells_singleton (visible : isSpace c = false) :
    Spells [[c]] s rest ↔ skipSpace s = c :: rest := by
  rw [spells_cons visible]
  constructor
  · rintro ⟨_, found, _ | _⟩
    exact found
  · exact fun found => ⟨rest, found, .nil rest⟩

theorem spells_quoted {q : Quoted} :
    Spells (q.text :: tokens) s rest ↔
      ∃ s', skipSpace s = '"' :: (q.raw ++ '"' :: s') ∧ Spells tokens s' rest := by
  rw [Quoted.text, spells_cons (by rfl)]
  simp only [List.append_assoc]
  rfl

theorem spells_append {front back : List (List Char)} :
    Spells (front ++ back) s rest ↔ ∃ middle, Spells front s middle ∧ Spells back middle rest := by
  induction front generalizing s with
  | nil =>
    constructor
    · exact fun h => ⟨s, .nil s, h⟩
    · rintro ⟨_, _ | _, h⟩
      exact h
  | cons token front ih =>
    constructor
    · rintro (_ | ⟨blank, more⟩)
      obtain ⟨middle, first, second⟩ := ih.mp more
      exact ⟨middle, .cons blank first, second⟩
    · rintro ⟨middle, _ | ⟨blank, more⟩, second⟩
      exact .cons blank (ih.mpr ⟨middle, more, second⟩)

theorem Spells.length_le (h : Spells tokens s rest) : rest.length ≤ s.length := by
  induction h with
  | nil => exact Nat.le_refl _
  | cons _ _ ih =>
    simp only [List.length_append]
    omega

theorem Spells.length_lt (h : Spells ((c :: token) :: tokens) s rest) : rest.length < s.length := by
  obtain _ | ⟨_, more⟩ := h
  have shorter := more.length_le
  simp only [List.length_append, List.length_cons]
  omega

/-- No number goes on into a token that does not begin like the rest of one. -/
theorem Spells.ends (h : Spells ((c :: token) :: tokens) s rest)
    (other : isDigit c = false ∧ c ≠ '.' ∧ c ≠ 'e' ∧ c ≠ 'E') : Ends s := by
  obtain _ | ⟨blank, _⟩ := h
  exact ends_blank blank (ends_cons.mpr other)

end Spells

/-! ### How a tree begins -/

theorem NumberText.head {number : List Char} (h : NumberText number) :
    ∃ c more, number = c :: more ∧ isDigit c = true := by
  cases h with
  | whole digits => exact digits.exists_cons
  | fraction digits _ =>
    obtain ⟨c, more, rfl, digit⟩ := digits.exists_cons
    exact ⟨c, _, List.cons_append, digit⟩
  | exponent digits _ _ =>
    obtain ⟨c, more, rfl, digit⟩ := digits.exists_cons
    exact ⟨c, _, List.cons_append, digit⟩

/-- A tree can begin with this character: it is visible, it neither separates nor closes, and only trees
of one kind begin with a bracket, a quote or the letter of `null`. -/
structure Tree.Begins (t : Tree) (c : Char) : Prop where
  visible : isSpace c = false
  opens : c ≠ ']'
  inside : c ≠ ','
  null : c = 'n' → t = .scalar .null
  quote : c = '"' → ∃ q, t = .scalar (.string q)
  bracket : c = '[' → ∃ items, t = .array items
  brace : c = '\x7b' → ∃ members, t = .object members

theorem Tree.begins_digit (t : Tree) {c : Char} (digit : isDigit c = true) : t.Begins c where
  visible := (starts_digit .null digit).visible
  opens := ne_of_isDigit digit rfl
  inside := ne_of_isDigit digit rfl
  null := fun same => absurd same (ne_of_isDigit digit rfl)
  quote := fun same => absurd same (ne_of_isDigit digit rfl)
  bracket := fun same => absurd same (ne_of_isDigit digit rfl)
  brace := fun same => absurd same (ne_of_isDigit digit rfl)

theorem Scalar.text_head (v : Scalar) : ∃ c more, v.text = c :: more ∧ (Tree.scalar v).Begins c := by
  match v with
  | .null => exact ⟨_, _, rfl, by constructor <;> first | rfl | simp⟩
  | .boolean true => exact ⟨_, _, rfl, by constructor <;> first | rfl | simp⟩
  | .boolean false => exact ⟨_, _, rfl, by constructor <;> first | rfl | simp⟩
  | .string q => exact ⟨_, _, rfl, by constructor <;> first | rfl | simp⟩
  | .number true u => exact ⟨_, _, rfl, by constructor <;> first | rfl | simp⟩
  | .number false u =>
    obtain ⟨c, more, text, digit⟩ := u.valid.head
    exact ⟨c, more, text, Tree.begins_digit _ digit⟩

theorem Tree.tokens_head (t : Tree) :
    ∃ c token tokens, t.tokens = (c :: token) :: tokens ∧ t.Begins c := by
  match t with
  | .scalar v =>
    obtain ⟨c, more, text, begins⟩ := v.text_head
    exact ⟨c, more, [], by rw [Tree.tokens, text], begins⟩
  | .array items => exact ⟨_, _, _, by rw [Tree.tokens], by constructor <;> first | rfl | simp⟩
  | .object members => exact ⟨_, _, _, by rw [Tree.tokens], by constructor <;> first | rfl | simp⟩

section Trees

variable {t : Tree} {s rest : List Char}

/-- White space before a tree does not matter. -/
theorem spells_skipSpace : Spells t.tokens (skipSpace s) rest ↔ Spells t.tokens s rest := by
  obtain ⟨c, token, tokens, parts, begins⟩ := t.tokens_head
  have twice : skipSpace (skipSpace s) = skipSpace s :=
    List.dropWhile_idempotent isSpace s
  rw [parts, spells_cons begins.visible, spells_cons begins.visible, twice]

theorem Spells.begin (h : Spells t.tokens s rest) :
    ∃ c s', skipSpace s = c :: s' ∧ t.Begins c ∧ Spells t.tokens (c :: s') rest := by
  obtain ⟨c, token, tokens, parts, begins⟩ := t.tokens_head
  have same := h
  rw [parts, spells_cons begins.visible] at same
  obtain ⟨s', found, -⟩ := same
  refine ⟨c, token ++ s', found, begins, ?_⟩
  rw [← found]
  exact spells_skipSpace.mpr h

theorem Spells.shorter (h : Spells t.tokens s rest) : rest.length < s.length := by
  obtain ⟨c, token, tokens, parts, -⟩ := t.tokens_head
  rw [parts] at h
  exact h.length_lt

theorem spells_scalar {v : Scalar} :
    Spells (Tree.scalar v).tokens s rest ↔ skipSpace s = v.text ++ rest := by
  obtain ⟨c, more, text, begins⟩ := v.text_head
  rw [Tree.tokens, text, spells_cons begins.visible, List.cons_append]
  constructor
  · rintro ⟨_, found, _ | _⟩
    exact found
  · exact fun found => ⟨rest, found, .nil rest⟩

theorem spells_array {items : List Tree} :
    Spells (Tree.array items).tokens s rest ↔
      ∃ s', skipSpace s = '[' :: s' ∧ Spells (itemTokens true items ++ [[']']]) s' rest := by
  rw [Tree.tokens, spells_cons (by rfl)]
  rfl

theorem spells_object {members : List (Quoted × Tree)} :
    Spells (Tree.object members).tokens s rest ↔
      ∃ s', skipSpace s = '\x7b' :: s' ∧ Spells (memberTokens true members ++ [['\x7d']]) s' rest := by
  rw [Tree.tokens, spells_cons (by rfl)]
  rfl

end Trees

/-! ### Scalars that have been read -/

theorem readLetters_ok {letters s rest : List Char} (h : readLetters letters s = .ok rest) :
    s = letters ++ rest := by
  induction letters generalizing s with
  | nil =>
    cases h
    rfl
  | cons c letters ih =>
    cases s with
    | nil => cases h
    | cons d s =>
      rw [readLetters] at h
      split at h
      · rename_i same
        rw [ih h, same]
        rfl
      · cases h

section Scalars

variable {s s' rest : List Char}

theorem spells_null (found : skipSpace s = 'n' :: s') (read : readNullTail s' = .ok rest) :
    Spells (Tree.scalar .null).tokens s rest := by
  rw [spells_scalar, found, readLetters_ok read]
  rfl

theorem spells_true (found : skipSpace s = 't' :: s') (read : readTrueTail s' = .ok rest) :
    Spells (Tree.scalar (.boolean true)).tokens s rest := by
  rw [spells_scalar, found, readLetters_ok read]
  rfl

theorem spells_false (found : skipSpace s = 'f' :: s') (read : readFalseTail s' = .ok rest) :
    Spells (Tree.scalar (.boolean false)).tokens s rest := by
  rw [spells_scalar, found, readLetters_ok read]
  rfl

theorem exists_string (found : skipSpace s = '"' :: s')
    (closed : ∃ raw, s' = raw ++ '"' :: rest ∧ StringBody raw) :
    ∃ q, Spells (Tree.scalar (.string q)).tokens s rest := by
  obtain ⟨raw, rfl, body⟩ := closed
  exact ⟨⟨raw, body⟩, spells_quoted.mpr ⟨rest, found, .nil rest⟩⟩

theorem exists_negative (found : skipSpace s = '-' :: s') (read : skipNumeral s' = .ok rest) :
    ∃ u, Spells (Tree.scalar (.number true u)).tokens s rest := by
  obtain ⟨number, valid, rfl⟩ := skipNumeral_ok read
  exact ⟨⟨number, valid⟩, spells_scalar.mpr found⟩

theorem exists_positive {c : Char} (found : skipSpace s = c :: s')
    (read : skipNumeral (c :: s') = .ok rest) :
    ∃ u, Spells (Tree.scalar (.number false u)).tokens s rest := by
  obtain ⟨number, valid, parts⟩ := skipNumeral_ok read
  exact ⟨⟨number, valid⟩, spells_scalar.mpr (found.trans parts)⟩

end Scalars

end CommandDeck.Json
