import CommandDeck.Proofs.Json.Tree

/-!
# The trees of written values

Every value is written as a text of one tree, which keeps its strings with no more escapes than they
need and its numbers as they are laid out: the text of a document can be looked at as a tree whether it
was written here or elsewhere.
-/

namespace CommandDeck.Json

theorem wholeDigits_digits (n : Nat) : WholeDigits (NumberLayout.digits n) where
  digits := fun _ => NumberLayout.isDigit_of_mem_digits
  ne_nil := Nat.toDigits_ne_nil
  alone := fun _ => NumberLayout.digits_head

/-- A text that is read to its end as a number is one. -/
theorem numberText_of_read {negative : Bool} {s : List Char} {m : Numeral}
    (read : readNumeral negative s = .ok (m, [])) : NumberText s := by
  obtain ⟨number, valid, parts⟩ := skipNumeral_ok (skipNumeral_of_read read)
  rw [parts, List.append_nil]
  exact valid

theorem numberText_magnitude (x : Binary64) : NumberText (NumberLayout.document.magnitude x) := by
  obtain ⟨y, read⟩ := readsFloat_magnitude false x
  have whole := read [] ends_nil
  rw [List.append_nil] at whole
  exact numberText_of_read whole

namespace Unsigned

/-- A natural number as it is written. -/
def ofNat (n : Nat) : Unsigned := ⟨NumberLayout.digits n, .whole (wholeDigits_digits n)⟩

/-- The magnitude of a double as it is written. -/
def ofDouble (x : Binary64) : Unsigned := ⟨NumberLayout.document.magnitude x, numberText_magnitude x⟩

end Unsigned

namespace Value

mutual

/-- What a value is written as, white space apart. -/
def tree : Value → Tree
  | null => .scalar .null
  | boolean b => .scalar (.boolean b)
  | integer i => .scalar (.number (decide (i < 0)) (.ofNat i.natAbs))
  | float x => .scalar (.number x.negative (.ofDouble x))
  | string s => .scalar (.string (.of s))
  | array items => .array (itemTrees items)
  | object members => .object (memberTrees members)

def itemTrees : List Value → List Tree
  | [] => []
  | item :: items => item.tree :: itemTrees items

def memberTrees : List (String × Value) → List (Quoted × Tree)
  | [] => []
  | (key, value) :: members => (.of key, value.tree) :: memberTrees members

end

theorem itemTrees_eq (items : List Value) : itemTrees items = items.map tree := by
  induction items with
  | nil => rw [itemTrees, List.map_nil]
  | cons item items ih => rw [itemTrees, List.map_cons, ih]

theorem memberTrees_eq (members : List (String × Value)) :
    memberTrees members = members.map fun m => (.of m.1, m.2.tree) := by
  induction members with
  | nil => rw [memberTrees, List.map_nil]
  | cons m members ih => rw [memberTrees, List.map_cons, ih]

end Value

theorem Quoted.text_of (s : String) : (Quoted.of s).text = writeString s := rfl

theorem text_integer (i : Int) :
    (Scalar.number (decide (i < 0)) (.ofNat i.natAbs)).text = NumberLayout.integer i := by
  unfold NumberLayout.integer
  by_cases negative : i < 0
  · rw [decide_eq_true negative, if_pos negative]
    rfl
  · rw [decide_eq_false negative, if_neg negative]
    rfl

theorem text_float (x : Binary64) :
    (Scalar.number x.negative (.ofDouble x)).text = NumberLayout.document.write x := by
  unfold NumberLayout.write
  cases x.negative <;> rfl

section Writing

variable {sp : Spacing} (spacing : sp.IsBlank)

include spacing

mutual

/-- A written value spells its tree, after any white space. -/
theorem spells_write (v : Value) (depth : Nat) {before : List Char} (blank : Blank before)
    (rest : List Char) : Spells v.tree.tokens (before ++ (v.write sp depth ++ rest)) rest := by
  match v with
  | .null => exact .cons blank (.nil rest)
  | .boolean true => exact .cons blank (.nil rest)
  | .boolean false => exact .cons blank (.nil rest)
  | .integer i =>
    rw [Value.tree, Tree.tokens, text_integer]
    exact .cons blank (.nil rest)
  | .float x =>
    rw [Value.tree, Tree.tokens, text_float]
    exact .cons blank (.nil rest)
  | .string s => exact .cons blank (.nil rest)
  | .array [] => exact .cons blank (.cons blank_nil (.nil rest))
  | .array (item :: items) =>
    have closing : Spells [[']']] (sp.lineBreak depth ++ ([']'] ++ rest)) rest :=
      .cons (spacing.lineBreak depth) (.nil rest)
    have others := spells_append.mpr ⟨_, spells_writeItems items (depth + 1) _, closing⟩
    have inner := spells_append.mpr
      ⟨_, spells_write item (depth + 1) (spacing.lineBreak (depth + 1)) _, others⟩
    have whole : Spells _ _ rest := spells_token ['['] blank inner
    simpa [Value.tree, Value.itemTrees, Tree.tokens, itemTokens, comma, Value.write] using whole
  | .object [] => exact .cons blank (.cons blank_nil (.nil rest))
  | .object ((key, value) :: members) =>
    have closing : Spells [['\x7d']] (sp.lineBreak depth ++ (['\x7d'] ++ rest)) rest :=
      .cons (spacing.lineBreak depth) (.nil rest)
    have others := spells_append.mpr ⟨_, spells_writeMembers members (depth + 1) _, closing⟩
    have inner := spells_append.mpr
      ⟨_, spells_write value (depth + 1) spacing.afterColon _, others⟩
    have member : Spells _ _ rest := spells_token (writeString key)
      (spacing.lineBreak (depth + 1)) (spells_token [':'] blank_nil inner)
    have whole : Spells _ _ rest := spells_token ['\x7b'] blank member
    simpa [Value.tree, Value.memberTrees, Tree.tokens, memberTokens, comma, Value.write,
      Quoted.text_of] using whole

theorem spells_writeItems (items : List Value) (depth : Nat) (rest : List Char) :
    Spells (itemTokens false (Value.itemTrees items)) (Value.writeItems sp depth items ++ rest)
      rest := by
  match items with
  | [] => exact .nil rest
  | item :: items =>
    have inner := spells_append.mpr
      ⟨_, spells_write item depth (spacing.lineBreak depth) _, spells_writeItems items depth rest⟩
    have whole : Spells _ _ rest := spells_token [','] blank_nil inner
    simpa [Value.itemTrees, itemTokens, comma, Value.writeItems] using whole

theorem spells_writeMembers (members : List (String × Value)) (depth : Nat) (rest : List Char) :
    Spells (memberTokens false (Value.memberTrees members))
      (Value.writeMembers sp depth members ++ rest) rest := by
  match members with
  | [] => exact .nil rest
  | (key, value) :: members =>
    have inner := spells_append.mpr ⟨_, spells_write value depth spacing.afterColon _,
      spells_writeMembers members depth rest⟩
    have member : Spells _ _ rest := spells_token (writeString key) (spacing.lineBreak depth)
      (spells_token [':'] blank_nil inner)
    have whole : Spells _ _ rest := spells_token [','] blank_nil member
    simpa [Value.memberTrees, memberTokens, comma, Value.writeMembers, Quoted.text_of] using whole

end

end Writing

/-- The document of a value is a text of its tree. -/
theorem spelled_indented (v : Value) : v.tree.Spelled v.indented := by
  have whole := spells_write Spacing.indented_isBlank v 0 blank_nil []
  rw [List.nil_append, List.append_nil] at whole
  exact ⟨[], by rwa [Value.indented, String.toList_ofList], blank_nil⟩

end CommandDeck.Json
