import CommandDeck.Toml.Document
import CommandDeck.Proofs.Json.Reading
import CommandDeck.Proofs.Toml.StringText

/-!
# Written assignments read back

`Denotes` says that a text is read as a value, whatever comes after it. It holds of strings, of whole
numbers, of booleans, and of lists of strings on one line or with a line for each item. A line that
assigns such a text to a key adds the key with the value to what has been read.
-/

namespace CommandDeck.Toml

/-- No value goes on with this text. -/
def Ends (rest : List Char) : Prop :=
  ∀ c ∈ rest.head?, isAtomChar c = false ∧ c ≠ ' ' ∧ c ≠ '"' ∧ c ≠ '\''

theorem ends_cons {c : Char} {rest : List Char} :
    Ends (c :: rest) ↔ isAtomChar c = false ∧ c ≠ ' ' ∧ c ≠ '"' ∧ c ≠ '\'' := by
  simp [Ends]

/-- A value can begin with this character, and no blank, comment, line break or bracket does. -/
structure Opens (c : Char) : Prop where
  visible : isBlank c = false
  comment : c ≠ '#'
  lineBreak : c ≠ '\n' ∧ c ≠ '\r'
  bracket : c ≠ ']'

/-- A text that is read as the value `v`, whatever ends it. -/
structure Denotes (w : List Char) (v : Value) : Prop where
  opens : ∃ c more, w = c :: more ∧ Opens c
  reads : ∀ levels rest, Ends rest → value? (levels + 1) (w ++ rest) = some (v, rest)

/-! ### Between values -/

theorem skipBlanks_cons {c : Char} (visible : isBlank c = false) (s : List Char) :
    skipBlanks (c :: s) = c :: s := by
  simp [skipBlanks, visible]

theorem skipLines?_to {blanks : List Char} (blank : ∀ b ∈ blanks, isBlank b = true) {c : Char}
    (visible : isBlank c = false) (comment : c ≠ '#') (lineBreak : c ≠ '\n' ∧ c ≠ '\r')
    (s : List Char) : skipLines? (blanks ++ c :: s) (blanks ++ c :: s) = some (c :: s) := by
  obtain ⟨b, budget, parts⟩ := List.exists_cons_of_ne_nil
    (show blanks ++ c :: s ≠ [] by simp)
  have skipped : skipBlanks (b :: budget) = c :: s := by
    rw [← parts]
    exact (List.dropWhile_append_of_pos blank).trans (skipBlanks_cons visible s)
  have none : lineBreak? (c :: s) = none :=
    lineBreak?_of_noBreak fun d hd => Option.some.inj hd ▸ lineBreak
  rw [parts]
  simp only [skipLines?, skipped]
  split
  · rename_i e
    cases e
  · rename_i e
    exact absurd (List.cons.inj e).1 comment
  · rw [none]

theorem skipLines?_cons {c : Char} (visible : isBlank c = false) (comment : c ≠ '#')
    (lineBreak : c ≠ '\n' ∧ c ≠ '\r') (s : List Char) : skipLines? (c :: s) (c :: s) = some (c :: s) :=
  skipLines?_to (List.forall_mem_nil _) visible comment lineBreak s

theorem skipLines?_break (s : List Char) :
    skipLines? ('\n' :: s) ('\n' :: s) = skipLines? s s := rfl

theorem span_word {p : Char → Bool} {word rest : List Char} (inside : ∀ c ∈ word, p c = true)
    (outside : ∀ c ∈ rest.head?, p c = false) :
    (word ++ rest).takeWhile p = word ∧ (word ++ rest).dropWhile p = rest := by
  rw [List.takeWhile_append_of_pos inside, List.dropWhile_append_of_pos inside]
  cases rest with
  | nil => simp
  | cons c rest => simp [outside c rfl]

/-! ### Strings -/

theorem opens_double : Opens '"' := ⟨by decide, by decide, by decide, by decide⟩

theorem opens_single : Opens '\'' := ⟨by decide, by decide, by decide, by decide⟩

theorem writeString_opens (s : String) : ∃ c more, writeString s = c :: more ∧ Opens c := by
  unfold writeString
  cases StringStyle.of s.toList with
  | basic => exact ⟨_, _, rfl, opens_double⟩
  | literal => exact ⟨_, _, rfl, opens_single⟩
  | multilineBasic => exact ⟨_, _, rfl, opens_double⟩
  | multilineLiteral => exact ⟨_, _, rfl, opens_single⟩

theorem value?_of_string {s : List Char} {r : String × List Char} (h : string? s = some r)
    (levels : Nat) : value? levels s = some (.string r.1, r.2) := by
  have quoted : ∃ more, s = '"' :: more ∨ s = '\'' :: more := by
    unfold string? at h
    split at h
    · exact ⟨_, .inl rfl⟩
    · exact ⟨_, .inr rfl⟩
    · exact ⟨_, .inl rfl⟩
    · exact ⟨_, .inr rfl⟩
    · cases h
  obtain ⟨more, rfl | rfl⟩ := quoted
  · simp only [value?, h, Option.map_some]
  · simp only [value?, h, Option.map_some]

theorem value?_writeString (s : String) {rest : List Char}
    (next : ∀ c ∈ rest.head?, c ≠ '"' ∧ c ≠ '\'') (levels : Nat) :
    value? levels (writeString s ++ rest) = some (.string s, rest) :=
  value?_of_string (string?_writeString s next) levels

theorem denotes_string (s : String) : Denotes (writeString s) (.string s) where
  opens := writeString_opens s
  reads _ _ ends := value?_writeString s (fun c hc => (ends c hc).2.2) _

/-! ### Words without quotes -/

theorem bareValue?_word {w rest : List Char} {v : Value} (word : ∀ c ∈ w, isAtomChar c = true)
    (atom : atom? w = some v) (ends : Ends rest) : bareValue? (w ++ rest) = some (v, rest) := by
  obtain ⟨taken, dropped⟩ := span_word word fun c hc => (ends c hc).1
  simp only [bareValue?, taken, dropped, atom, Option.map_some]
  split
  · exact absurd rfl (ends_cons.mp ends).2.1
  · rfl

theorem isAtomChar_digit {c : Char} (digit : Text.isDigit c = true) : isAtomChar c = true := by
  have alphanumeric : c.isAlphanum = true := by
    rw [Char.isAlphanum, ← Text.isDigit_eq, digit, Bool.or_true]
  simp [isAtomChar, alphanumeric]

theorem isDigit_toNat {c : Char} (digit : Text.isDigit c = true) : 48 ≤ c.toNat ∧ c.toNat ≤ 57 := by
  simpa [Text.isDigit, Char.le_def, UInt32.le_iff_toNat_le] using digit

theorem hexValue?_digit {c : Char} (digit : Text.isDigit c = true) :
    Text.hexValue? c = some (c.toNat - 48) := by
  have range : '0' ≤ c ∧ c ≤ '9' := by simpa [Text.isDigit] using digit
  rw [Text.hexValue?, if_pos range]

theorem groupedDigits?_digits {ds : List Char} (digits : ∀ c ∈ ds, Text.isDigit c = true)
    (afterDigit : Bool) (n : Nat) (some : afterDigit = true ∨ ds ≠ []) :
    groupedDigits? 10 afterDigit n ds = Option.some (Nat.ofDigitChars 10 ds n) := by
  induction ds generalizing afterDigit n with
  | nil =>
    rw [groupedDigits?, if_pos (some.resolve_right fun h => h rfl), Nat.ofDigitChars_nil]
  | cons d ds ih =>
    obtain ⟨digit, digits⟩ := List.forall_mem_cons.mp digits
    have range := isDigit_toNat digit
    have small : d.toNat - 48 < 10 := by omega
    have next : n * 10 + (d.toNat - 48) = 10 * n + (d.toNat - '0'.toNat) := by
      rw [Nat.mul_comm]
      rfl
    rw [groupedDigits?, if_neg (Json.ne_of_isDigit digit rfl), hexValue?_digit digit]
    simp only [if_pos small]
    rw [ih digits true _ (.inl rfl), Nat.ofDigitChars_cons, next]

theorem integer?_digits (n : Nat) : integer? (NumberLayout.digits n) = some (n : Int) := by
  have digits : ∀ c ∈ NumberLayout.digits n, Text.isDigit c = true :=
    fun _ => NumberLayout.isDigit_of_mem_digits
  obtain ⟨c, more, parts, first⟩ := NumberLayout.exists_digit n
  have grouped := groupedDigits?_digits digits false 0 (.inr (by simp [parts]))
  have value : Nat.ofDigitChars 10 (NumberLayout.digits n) 0 = n := Nat.ofDigitChars_ten_toDigits
  rw [value] at grouped
  have decimal : decimalDigits? (NumberLayout.digits n) = some n := by
    unfold decimalDigits?
    split
    · rename_i e
      exact absurd (NumberLayout.digits_head e) (by simp)
    · exact grouped
  have unsigned : takeSign (NumberLayout.digits n) = (false, NumberLayout.digits n) := by
    rw [parts] at digits ⊢
    unfold takeSign
    split
    · rename_i e
      exact absurd (List.cons.inj e).1 (Json.ne_of_isDigit first rfl)
    · rename_i e
      exact absurd (List.cons.inj e).1 (Json.ne_of_isDigit first rfl)
    · rfl
  have based : ∀ letter rest, Text.isDigit letter = false →
      NumberLayout.digits n ≠ '0' :: letter :: rest := by
    intro letter rest _ e
    exact absurd (NumberLayout.digits_head e) (by simp)
  unfold integer?
  split
  · exact absurd ‹_› (based _ _ rfl)
  · exact absurd ‹_› (based _ _ rfl)
  · exact absurd ‹_› (based _ _ rfl)
  · simp only [unsigned, decimal]
    rfl

theorem digit_opens {c : Char} (digit : Text.isDigit c = true) : Opens c where
  visible := by
    simp [isBlank, Json.ne_of_isDigit digit (d := ' ') rfl, Json.ne_of_isDigit digit (d := '\t') rfl]
  comment := Json.ne_of_isDigit digit rfl
  lineBreak := ⟨Json.ne_of_isDigit digit rfl, Json.ne_of_isDigit digit rfl⟩
  bracket := Json.ne_of_isDigit digit rfl

theorem denotes_integer (n : Nat) : Denotes (NumberLayout.digits n) (.integer n) where
  opens := by
    obtain ⟨c, more, parts, digit⟩ := NumberLayout.exists_digit n
    exact ⟨c, more, parts, digit_opens digit⟩
  reads levels rest ends := by
    obtain ⟨c, more, parts, first⟩ := NumberLayout.exists_digit n
    have word : ∀ c ∈ NumberLayout.digits n, isAtomChar c = true :=
      fun c hc => isAtomChar_digit (NumberLayout.isDigit_of_mem_digits hc)
    have atom : atom? (NumberLayout.digits n) = some (.integer n) := by
      have letters : ∀ letter word, Text.isDigit letter = false →
          NumberLayout.digits n ≠ letter :: word := by
        intro letter word other e
        rw [parts] at e
        exact Json.ne_of_isDigit first other (List.cons.inj e).1
      rw [atom?, if_neg (letters _ _ rfl), if_neg (letters _ _ rfl), integer?_digits]
    rw [← bareValue?_word word atom ends, parts, List.cons_append]
    unfold value?
    split
    · rename_i e
      exact absurd (List.cons.inj e).1 (Json.ne_of_isDigit first rfl)
    · rename_i e
      exact absurd (List.cons.inj e).1 (Json.ne_of_isDigit first rfl)
    · rename_i e
      exact absurd (List.cons.inj e).1 (Json.ne_of_isDigit first rfl)
    · rename_i e
      exact absurd (List.cons.inj e).1 (Json.ne_of_isDigit first rfl)
    · rfl

theorem denotes_true : Denotes ['t', 'r', 'u', 'e'] (.boolean true) where
  opens := ⟨'t', _, rfl, by decide, by decide, by decide, by decide⟩
  reads _ _ ends := bareValue?_word (w := ['t', 'r', 'u', 'e']) (List.all_eq_true.mp rfl) rfl ends

theorem denotes_false : Denotes ['f', 'a', 'l', 's', 'e'] (.boolean false) where
  opens := ⟨'f', _, rfl, by decide, by decide, by decide, by decide⟩
  reads _ _ ends := bareValue?_word (w := ['f', 'a', 'l', 's', 'e']) (List.all_eq_true.mp rfl) rfl ends

/-! ### Lists of strings -/

theorem opens_bracket : Opens '[' := ⟨by decide, by decide, by decide, by decide⟩

theorem denotes_array {w : List Char} {items : List Value}
    (reads : ∀ levels rest, items? (value? levels) (w ++ rest) [] (w ++ rest) = some (items, rest)) :
    Denotes ('[' :: w) (.array items) where
  opens := ⟨'[', w, rfl, opens_bracket⟩
  reads levels rest _ := by
    rw [List.cons_append, value?]
    simp only [reads, Option.map_some]

theorem denotes_noItems : Denotes ['[', ']'] (.array []) :=
  denotes_array fun _ _ => rfl

/-- Reading an item and what ends it: a comma and more items, or the closing bracket. -/
theorem items?_item (levels : Nat) {blanks : List Char} (blank : ∀ b ∈ blanks, isBlank b = true)
    (s : String) (b : Char) (budget : List Char) (before : List Value) (c : Char)
    (comma : c = ',' ∨ c = ']') (rest : List Char) :
    items? (value? levels) (b :: budget) before (blanks ++ (writeString s ++ c :: rest)) =
      if c = ',' then items? (value? levels) budget (.string s :: before) rest
      else some ((.string s :: before).reverse, rest) := by
  obtain ⟨d, more, text, opens⟩ := writeString_opens s
  have ends : ∀ e ∈ (c :: rest).head?, e ≠ '"' ∧ e ≠ '\'' := by
    rintro e ⟨⟩
    rcases comma with rfl | rfl <;> decide
  have value := value?_writeString s ends levels
  have after : skipLines? (c :: rest) (c :: rest) = some (c :: rest) := by
    rcases comma with rfl | rfl
    · exact skipLines?_cons (by decide) (by decide) (by decide) rest
    · exact skipLines?_cons (by decide) (by decide) (by decide) rest
  have found : skipLines? (blanks ++ (writeString s ++ c :: rest))
      (blanks ++ (writeString s ++ c :: rest)) = some (writeString s ++ c :: rest) := by
    rw [text, List.cons_append]
    exact skipLines?_to blank opens.visible opens.comment opens.lineBreak _
  rw [items?.eq_def]
  simp only [found]
  split
  · rename_i e
    cases e
  · rename_i e
    rw [text] at e
    exact absurd (List.cons.inj (Option.some.inj e)).1 opens.bracket
  · rename_i e
    cases e
    rw [value]
    simp only [after]
    rcases comma with rfl | rfl
    · rfl
    · rfl

theorem denotes_oneItem (s : String) :
    Denotes ('[' :: (writeString s ++ [']'])) (.array [.string s]) := by
  refine denotes_array fun levels rest => ?_
  obtain ⟨c, more, text, -⟩ := writeString_opens s
  have item := items?_item levels (List.forall_mem_nil _) s c (more ++ ']' :: rest) []
    ']' (.inr rfl) rest
  rw [List.append_assoc, List.singleton_append]
  rw [← List.cons_append, ← text] at item
  exact item

/-- A line for an item of a list. -/
def itemLine (s : String) : List Char := [' ', ' ', ' ', ' '] ++ writeString s ++ [',', '\n']

theorem items?_break (read : Scan Value) (budget : List Char) (before : List Value) (s : List Char) :
    items? read budget before ('\n' :: s) = items? read budget before s := by
  cases budget with
  | nil => rfl
  | cons b budget =>
    unfold items?
    rw [skipLines?_break]

theorem items?_lines (levels : Nat) (strings : List String) (budget : List Char)
    (before : List Value) (rest : List Char) (long : strings.length < budget.length) :
    items? (value? levels) budget before ('\n' :: (strings.flatMap itemLine ++ ']' :: rest)) =
      some (before.reverse ++ strings.map .string, rest) := by
  induction strings generalizing budget before with
  | nil =>
    obtain ⟨b, budget, rfl⟩ := List.exists_cons_of_length_pos long
    rw [List.map_nil, List.append_nil]
    rfl
  | cons s strings ih =>
    obtain ⟨b, budget, rfl⟩ := List.exists_cons_of_length_pos (Nat.zero_lt_of_lt long)
    have text : (s :: strings).flatMap itemLine ++ ']' :: rest =
        [' ', ' ', ' ', ' '] ++
          (writeString s ++ ',' :: '\n' :: (strings.flatMap itemLine ++ ']' :: rest)) := by
      simp [itemLine]
    have indent : ∀ b ∈ [' ', ' ', ' ', ' '], isBlank b = true := List.all_eq_true.mp rfl
    rw [items?_break, text, items?_item levels indent s b budget before ',' (.inl rfl),
      if_pos rfl, ih _ _ (Nat.lt_of_succ_lt_succ long), List.reverse_cons, List.append_assoc]
    rfl

theorem denotes_itemLines (strings : List String) :
    Denotes ('[' :: '\n' :: (strings.flatMap itemLine ++ [']'])) (.array (strings.map .string)) := by
  refine denotes_array fun levels rest => ?_
  have long : strings.length ≤ (strings.flatMap itemLine).length := by
    induction strings with
    | nil => exact Nat.le_refl 0
    | cons s strings ih =>
      simp only [List.flatMap_cons, List.length_append, itemLine, List.length_cons]
      omega
  rw [List.cons_append, List.append_assoc, List.singleton_append, items?_lines]
  · rfl
  · simp only [List.length_append, List.length_cons]
    omega

/-! ### Lines -/

/-- A line that assigns a value, as it is written, to a key. -/
def assignment (name : String) (w : List Char) : List Char :=
  name.toList ++ [' ', '=', ' '] ++ w ++ ['\n']

/-- A key that is written without quotes. -/
def IsBareKey (name : String) : Prop := name ≠ "" ∧ ∀ c ∈ name.toList, isBareKeyChar c = true

theorem ne_of_isBareKeyChar {c d : Char} (word : isBareKeyChar c = true)
    (other : isBareKeyChar d = false) : c ≠ d := by
  rintro rfl
  rw [word] at other
  cases other

theorem IsBareKey.exists_head {name : String} (h : IsBareKey name) :
    ∃ c more, name.toList = c :: more ∧ isBareKeyChar c = true := by
  obtain ⟨nonempty, word⟩ := h
  obtain ⟨c, more, parts⟩ := List.exists_cons_of_ne_nil (mt String.toList_eq_nil_iff.mp nonempty)
  exact ⟨c, more, parts, word c (by rw [parts]; exact List.mem_cons_self)⟩

theorem bareKeyChar_visible {c : Char} (word : isBareKeyChar c = true) : isBlank c = false := by
  simp [isBlank, ne_of_isBareKeyChar word (d := ' ') rfl, ne_of_isBareKeyChar word (d := '\t') rfl]

theorem key?_bare {name : String} (h : IsBareKey name) (s : List Char) :
    key? (name.toList ++ ' ' :: '=' :: s) = some ([name], '=' :: s) := by
  obtain ⟨c, more, parts, first⟩ := h.exists_head
  have outside : ∀ c ∈ (' ' :: '=' :: s).head?, isBareKeyChar c = false := by
    simp [isBareKeyChar]
  obtain ⟨taken, dropped⟩ := span_word h.2 outside
  have part : keyPart? (name.toList ++ ' ' :: '=' :: s) = some (name, ' ' :: '=' :: s) := by
    unfold keyPart?
    split
    · rename_i e
      rw [parts] at e
      exact absurd (List.cons.inj e).1 (ne_of_isBareKeyChar first rfl)
    · rename_i e
      rw [parts] at e
      exact absurd (List.cons.inj e).1 (ne_of_isBareKeyChar first rfl)
    · simp only [taken, dropped, String.ofList_toList]
      rw [if_neg (by simp [parts])]
  have visible : skipBlanks (name.toList ++ ' ' :: '=' :: s) = name.toList ++ ' ' :: '=' :: s := by
    rw [parts, List.cons_append, skipBlanks_cons (bareKeyChar_visible first)]
  have equals : skipBlanks (' ' :: '=' :: s) = '=' :: s := rfl
  rw [key?, show nestingLimit = 79 + 1 from rfl, keyParts?]
  simp only [visible, part, equals]
  rfl

theorem line?_assignment {name : String} {w : List Char} {v : Value} (key : IsBareKey name)
    (value : Denotes w v) {root : Members} (fresh : root.find? name = none) (rest : List Char) :
    line? ⟨root, []⟩ (assignment name w ++ rest) =
      some (⟨root ++ [(name, .value v)], []⟩, '\n' :: rest) := by
  obtain ⟨c, more, parts, first⟩ := key.exists_head
  obtain ⟨d, tail, begins, opens⟩ := value.opens
  have text : assignment name w ++ rest =
      name.toList ++ ' ' :: '=' :: (' ' :: (w ++ '\n' :: rest)) := by
    simp [assignment]
  have blanks : skipBlanks (' ' :: (w ++ '\n' :: rest)) = w ++ '\n' :: rest := by
    rw [begins]
    exact skipBlanks_cons opens.visible _
  have read : value? nestingLimit (w ++ '\n' :: rest) = some (v, '\n' :: rest) :=
    value.reads 79 _ (ends_cons.mpr (by decide))
  have assigned : Members.within (Members.assign v [name]) [] root =
      some (root ++ [(name, .value v)]) := by
    simp only [Members.within, Members.assign, fresh]
  rw [text]
  unfold line?
  split
  · rename_i e
    rw [parts] at e
    exact absurd (List.cons.inj e).1 (ne_of_isBareKeyChar first rfl)
  · rename_i e
    rw [parts] at e
    exact absurd (List.cons.inj e).1 (ne_of_isBareKeyChar first rfl)
  · simp only [key?_bare key, blanks, read, assigned, Option.map_some]

theorem lines?_break (budget : List Char) (p : Progress) (s : List Char) :
    lines? budget p ('\n' :: s) = lines? budget p s := by
  unfold lines?
  rw [skipLines?_break]

theorem lines?_nil (budget : List Char) (p : Progress) : lines? budget p [] = some p := by
  cases budget <;> rfl

/-- Reading a line that assigns a value to a new key adds the key. -/
theorem lines?_assignment {name : String} {w : List Char} {v : Value} (key : IsBareKey name)
    (value : Denotes w v) {root : Members} (fresh : root.find? name = none) (b : Char)
    (budget rest : List Char) :
    lines? (b :: budget) ⟨root, []⟩ (assignment name w ++ rest) =
      lines? budget ⟨root ++ [(name, .value v)], []⟩ rest := by
  obtain ⟨c, more, parts, first⟩ := key.exists_head
  have line := line?_assignment key value fresh rest
  obtain ⟨tail, text⟩ : ∃ tail, assignment name w ++ rest = c :: tail :=
    ⟨more ++ ' ' :: '=' :: ' ' :: (w ++ '\n' :: rest), by simp [assignment, parts]⟩
  rw [text] at line ⊢
  have begins : skipLines? (c :: tail) (c :: tail) = some (c :: tail) :=
    skipLines?_cons (bareKeyChar_visible first) (ne_of_isBareKeyChar first rfl)
      ⟨ne_of_isBareKeyChar first rfl, ne_of_isBareKeyChar first rfl⟩ tail
  have ended : endLine? ('\n' :: rest) = some ('\n' :: rest) := rfl
  rw [lines?.eq_def]
  simp only [begins, line, ended]
  exact lines?_break ..

end CommandDeck.Toml
