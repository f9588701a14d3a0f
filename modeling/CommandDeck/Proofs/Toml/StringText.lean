import CommandDeck.Toml.Scalar
import CommandDeck.Toml.StringText

/-!
# Written strings of a settings file read back

Whatever style is chosen for a string, the reader gets the string back. In threefold quotes one or two
quotes can stand as they are, also right before the closing ones: `Body` is a text in which no three
quotes stand side by side, and both readers of such texts are a `TailReader`, for which it is shown once
that they find the end.
-/

namespace CommandDeck.Toml

theorem isControl_eq_false_iff (c : Char) :
    isControl c = false ↔ isPrintable c = true ∨ c = '\n' := by
  have lineBreak : c = '\n' ↔ c.toNat = 10 := by rw [← Char.toNat_inj]; rfl
  have tab : c = '\t' ↔ c.toNat = 9 := by rw [← Char.toNat_inj]; rfl
  simp only [isControl, isPrintable, Bool.or_eq_false_iff, Bool.and_eq_false_iff,
    decide_eq_false_iff_not, bne_eq_false_iff_eq, beq_eq_false_iff_ne, Bool.or_eq_true,
    Bool.and_eq_true, decide_eq_true_eq, bne_iff_ne, beq_iff_eq, lineBreak, tab]
  omega

/-! ### Escapes -/

theorem hexValue?_escapeDigit (n : Nat) : Text.hexValue? (escapeDigit n) = some (n % 16) := by
  have digits : ∀ k < 16, Text.hexValue? (Nat.digitChar k).toUpper = some k := by decide
  exact digits (n % 16) (Nat.mod_lt n (by decide))

theorem numberedChar?_of_hexDigits {count : Nat} {c : Char} {s rest : List Char}
    (digits : hexDigits? count 0 s = some (c.toNat, rest)) :
    numberedChar? count s = some (c, rest) := by
  have valid : c.toNat.isValidChar := c.valid
  rw [numberedChar?, digits]
  exact dif_pos valid

theorem escape?_digits {c : Char} (small : c.toNat < 65536) (rest : List Char) :
    escape? ('u' :: escapeDigit (c.toNat / 4096) :: escapeDigit (c.toNat / 256) ::
      escapeDigit (c.toNat / 16) :: escapeDigit c.toNat :: rest) = some (c, rest) := by
  have value : (((0 * 16 + c.toNat / 4096 % 16) * 16 + c.toNat / 256 % 16) * 16 +
      c.toNat / 16 % 16) * 16 + c.toNat % 16 = c.toNat := by omega
  refine numberedChar?_of_hexDigits ?_
  simp only [hexDigits?, hexValue?_escapeDigit, value]

/-- How a character stands between quotes: as it is, or as an escape. -/
inductive Stands (plain : Char → Prop) (c : Char) : List Char → Prop where
  | plain : plain c → Stands plain c [c]
  | escape {e : List Char} : (∀ rest, escape? (e ++ rest) = some (c, rest)) →
      Stands plain c ('\\' :: e)

/-- A character that double quotes hold as it is. -/
def IsPlain (multiline : Bool) (c : Char) : Prop :=
  c ≠ '"' ∧ c ≠ '\\' ∧ (isPrintable c = true ∨ multiline = true ∧ c = '\n')

theorem stands_quote (plain : Char → Prop) : Stands plain '"' ['\\', '"'] := .escape fun _ => rfl

theorem stands_escapedChar (multiline : Bool) {c : Char} (quote : c ≠ '"') :
    Stands (IsPlain multiline) c (escapedChar multiline c) := by
  unfold escapedChar
  split
  · rename_i h
    exact .escape fun _ => by rw [h]; rfl
  split
  · rename_i h
    exact .escape fun _ => by rw [h]; rfl
  split
  · rename_i h
    subst h
    cases multiline with
    | true => exact .plain ⟨by decide, by decide, .inr ⟨rfl, rfl⟩⟩
    | false => exact .escape fun _ => rfl
  split
  · rename_i h
    exact .escape fun _ => by rw [h]; rfl
  split
  · rename_i h
    exact .escape fun _ => by rw [h]; rfl
  split
  · rename_i h
    exact .escape fun _ => by rw [h]; rfl
  rename_i lineBreak _ _ backslash
  split
  · rename_i control
    have small : c.toNat < 65536 := by
      simp only [isControl, Bool.or_eq_true, Bool.and_eq_true, decide_eq_true_eq,
        beq_iff_eq] at control
      omega
    exact .escape (escape?_digits small)
  · rename_i control
    have printable := (isControl_eq_false_iff c).mp (Bool.eq_false_iff.mpr control)
    exact .plain ⟨quote, backslash, .inl (printable.resolve_right lineBreak)⟩

theorem isPlain_ne_return {multiline : Bool} {c : Char} (h : IsPlain multiline c) : c ≠ '\r' := by
  rintro rfl
  rcases h.2.2 with h | ⟨-, h⟩
  · exact absurd h (by decide)
  · exact absurd h (by decide)

/-- A character that stands between double quotes begins with no quote, and with a line break only if it
is one. -/
theorem Stands.head {multiline : Bool} {c : Char} {w : List Char}
    (h : Stands (IsPlain multiline) c w) :
    ∃ d v, w = d :: v ∧ d ≠ '"' ∧ d ≠ '\r' ∧ (d = '\n' → c = '\n') := by
  cases h with
  | plain h => exact ⟨c, [], rfl, h.1, isPlain_ne_return h, id⟩
  | escape h => exact ⟨'\\', _, rfl, by decide, by decide, fun e => absurd e (by decide)⟩

/-! ### One line -/

theorem basicTail_stands {c : Char} {w : List Char} (h : Stands (IsPlain false) c w) (b : Char)
    (budget before rest : List Char) :
    basicTail (b :: budget) before (w ++ rest) = basicTail budget (c :: before) rest := by
  cases h with
  | plain h =>
    obtain ⟨quote, backslash, printable⟩ := h
    have printable : isPrintable c = true := printable.resolve_right fun h => nomatch h.1
    simp only [List.cons_append, List.nil_append, basicTail, if_neg quote, if_neg backslash,
      if_pos printable]
  | escape h =>
    simp only [List.cons_append, basicTail, if_neg (by decide : ¬ '\\' = '"'), if_true, h rest]

theorem escapeFrom_cons (c : Char) (s : List Char) (run : Nat) :
    ∃ w, Stands (IsPlain false) c w ∧
      escapeFrom false 0 run (c :: s) = w ++ escapeFrom false 0 0 s := by
  by_cases quote : c = '"'
  · subst quote
    exact ⟨_, stands_quote _, by simp [escapeFrom]⟩
  · exact ⟨_, stands_escapedChar false quote, by simp [escapeFrom, quote]⟩

theorem basicTail_escapeFrom (s : List Char) (rest : List Char) (run : Nat)
    (budget before : List Char) (long : s.length < budget.length) :
    basicTail budget before (escapeFrom false 0 run s ++ '"' :: rest) =
      some (String.ofList (before.reverse ++ s), rest) := by
  induction s generalizing run budget before with
  | nil =>
    obtain ⟨b, budget, rfl⟩ := List.exists_cons_of_length_pos long
    simp [escapeFrom, basicTail]
  | cons c s ih =>
    obtain ⟨b, budget, rfl⟩ := List.exists_cons_of_length_pos (Nat.zero_lt_of_lt long)
    have long : s.length < budget.length := Nat.lt_of_succ_lt_succ long
    obtain ⟨w, stands, text⟩ := escapeFrom_cons c s run
    rw [text, List.append_assoc, basicTail_stands stands, ih _ _ _ long, List.reverse_cons,
      List.append_assoc, List.singleton_append]

theorem length_le_escapeFrom (s : List Char) (run : Nat) :
    s.length ≤ (escapeFrom false 0 run s).length := by
  induction s generalizing run with
  | nil => exact Nat.zero_le _
  | cons c s ih =>
    obtain ⟨w, stands, text⟩ := escapeFrom_cons c s run
    obtain ⟨d, v, rfl, -⟩ := stands.head
    have := ih 0
    simp only [text, List.length_cons, List.length_append]
    omega

theorem literalTail_eq (s rest before : List Char)
    (plain : ∀ c ∈ s, c ≠ '\'' ∧ isPrintable c = true) :
    literalTail before (s ++ '\'' :: rest) = some (String.ofList (before.reverse ++ s), rest) := by
  induction s generalizing before with
  | nil => simp [literalTail]
  | cons c s ih =>
    obtain ⟨⟨quote, printable⟩, plain⟩ := List.forall_mem_cons.mp plain
    rw [List.cons_append, literalTail, if_neg quote, if_pos printable, ih _ plain,
      List.reverse_cons, List.append_assoc, List.singleton_append]

/-! ### Threefold quotes -/

/-- A text without three `mark`s side by side, of which `run` stand before it, and the string that it
shows. -/
inductive Body (mark : Char) (Shown : Char → List Char → Prop) :
    Nat → List Char → List Char → Prop where
  | nil {run : Nat} : Body mark Shown run [] []
  | mark {run : Nat} {w s : List Char} : run < 2 → Body mark Shown (run + 1) w s →
      Body mark Shown run (mark :: w) (mark :: s)
  | shown {run : Nat} {c : Char} {v w s : List Char} : Shown c v → Body mark Shown 0 w s →
      Body mark Shown run (v ++ w) (c :: s)

/-- A reader of what follows an opening threefold quote: it ends at three `mark`s, takes a `mark` that
does not begin such an end as it is, and knows the other characters by how they are shown. -/
structure TailReader (mark : Char) (Shown : Char → List Char → Prop)
    (read : List Char → List Char → Scan String) : Prop where
  closes : ∀ b budget before rest,
    read (b :: budget) before (mark :: mark :: mark :: rest) = some (closingQuotes mark before rest)
  takes : ∀ b budget before rest, ¬ [mark, mark] <+: rest →
    read (b :: budget) before (mark :: rest) = read budget (mark :: before) rest
  reads : ∀ {c w} b budget before rest, Shown c w →
    read (b :: budget) before (w ++ rest) = read budget (c :: before) rest
  head : ∀ {c w}, Shown c w → ∃ d v, w = d :: v ∧ d ≠ mark

section Threefold

variable {mark : Char} {Shown : Char → List Char → Prop}
variable {read : List Char → List Char → Scan String}

/-- Two more `mark`s and the closing ones are the most that can follow each other. -/
theorem TailReader.marks_before_end (h : TailReader mark Shown read) {run : Nat}
    {w s : List Char} (body : Body mark Shown (run + 1) w s) {tail : List Char}
    (marks : [mark, mark] <+: w ++ tail) : (w = [] ∧ s = []) ∨ (w = [mark] ∧ s = [mark]) := by
  -- A shown character cannot begin with the mark.
  have shown {c : Char} {v more : List Char} (hv : Shown c v) {pre : List Char}
      (marks : mark :: pre <+: v ++ more) : False := by
    obtain ⟨d, v, rfl, other⟩ := h.head hv
    exact other (List.cons_prefix_cons.mp marks).1.symm
  cases body with
  | nil => exact .inl ⟨rfl, rfl⟩
  | shown hv _ =>
    rw [List.append_assoc] at marks
    exact (shown hv marks).elim
  | mark _ body =>
    cases body with
    | nil => exact .inr ⟨rfl, rfl⟩
    | mark few _ => omega
    | shown hv _ =>
      rw [List.cons_append, List.append_assoc, List.cons_prefix_cons] at marks
      exact (shown hv marks.2).elim

theorem closingQuotes_other {rest : List Char} (next : rest.head? ≠ some mark)
    (before : List Char) : closingQuotes mark before rest = (String.ofList before.reverse, rest) := by
  match rest with
  | [] => rfl
  | [a] =>
    have other : a ≠ mark := fun e => next (congrArg some e)
    simp [closingQuotes, other]
  | a :: b :: more =>
    have other : a ≠ mark := fun e => next (congrArg some e)
    simp [closingQuotes, other]

theorem closingQuotes_one {rest : List Char} (next : rest.head? ≠ some mark)
    (before : List Char) :
    closingQuotes mark before (mark :: rest) = (String.ofList (before.reverse ++ [mark]), rest) := by
  match rest with
  | [] => simp [closingQuotes]
  | b :: more =>
    have other : b ≠ mark := fun e => next (congrArg some e)
    simp [closingQuotes, other]

theorem closingQuotes_two (before rest : List Char) :
    closingQuotes mark before (mark :: mark :: rest) =
      (String.ofList (before.reverse ++ [mark, mark]), rest) := by
  simp [closingQuotes]

theorem TailReader.read_body (h : TailReader mark Shown read) {run : Nat} {w s : List Char}
    (body : Body mark Shown run w s) {rest : List Char} (next : rest.head? ≠ some mark)
    (budget before : List Char) (long : s.length < budget.length) :
    read budget before (w ++ mark :: mark :: mark :: rest) =
      some (String.ofList (before.reverse ++ s), rest) := by
  induction body generalizing budget before with
  | nil =>
    obtain ⟨b, budget, rfl⟩ := List.exists_cons_of_length_pos long
    rw [List.nil_append, h.closes, closingQuotes_other next, List.append_nil]
  | @mark run w s few body ih =>
    obtain ⟨b, budget, rfl⟩ := List.exists_cons_of_length_pos (Nat.zero_lt_of_lt long)
    by_cases marks : [mark, mark] <+: w ++ mark :: mark :: mark :: rest
    · -- The reader is at the end already: what is left of the string is taken back from there.
      rcases h.marks_before_end body marks with ⟨rfl, rfl⟩ | ⟨rfl, rfl⟩
      · exact (h.closes b budget before _).trans (congrArg some (closingQuotes_one next before))
      · exact (h.closes b budget before _).trans (congrArg some (closingQuotes_two before rest))
    · rw [List.cons_append, h.takes b budget before _ marks,
        ih _ _ (Nat.lt_of_succ_lt_succ long), List.reverse_cons, List.append_assoc,
        List.singleton_append]
  | shown hv body ih =>
    obtain ⟨b, budget, rfl⟩ := List.exists_cons_of_length_pos (Nat.zero_lt_of_lt long)
    rw [List.append_assoc, h.reads b budget before _ hv, ih _ _ (Nat.lt_of_succ_lt_succ long),
      List.reverse_cons, List.append_assoc, List.singleton_append]

theorem TailReader.length_le (h : TailReader mark Shown read) {run : Nat} {w s : List Char}
    (body : Body mark Shown run w s) : s.length ≤ w.length := by
  induction body with
  | nil => exact Nat.le_refl _
  | mark _ _ ih => exact Nat.succ_le_succ ih
  | shown hv _ ih =>
    obtain ⟨d, v, rfl, -⟩ := h.head hv
    simp only [List.length_cons, List.length_append]
    omega

end Threefold

/-! #### The two readers -/

theorem multilineBasicTail_reader :
    TailReader '"' (Stands (IsPlain true)) multilineBasicTail where
  closes b budget before rest := by simp only [multilineBasicTail, if_true]
  takes b budget before rest marks := by
    have other : ∀ more, rest = '"' :: '"' :: more → False :=
      fun more e => marks ⟨more, e.symm⟩
    rw [multilineBasicTail.eq_def]
    simp only [if_true]
  reads := by
    intro c w b budget before rest stands
    cases stands with
    | plain h =>
      have notReturn := isPlain_ne_return h
      obtain ⟨quote, backslash, held⟩ := h
      have held : c = '\n' ∨ isPrintable c = true := held.symm.imp_left And.right
      simp only [List.cons_append, List.nil_append, multilineBasicTail, if_neg quote,
        if_neg backslash, if_neg notReturn, if_pos held]
    | escape h =>
      simp only [List.cons_append, multilineBasicTail, if_neg (by decide : ¬ '\\' = '"'), if_true,
        h rest]
  head stands := by
    obtain ⟨d, v, text, quote, -⟩ := stands.head
    exact ⟨d, v, text, quote⟩

/-- A character that single quotes over several lines hold, and they hold it as it is. -/
def IsLiteral (c : Char) (w : List Char) : Prop :=
  w = [c] ∧ c ≠ '\'' ∧ isControl c = false

theorem multilineLiteralTail_reader : TailReader '\'' IsLiteral multilineLiteralTail where
  closes b budget before rest := by simp only [multilineLiteralTail, if_true]
  takes b budget before rest marks := by
    have other : ∀ more, rest = '\'' :: '\'' :: more → False :=
      fun more e => marks ⟨more, e.symm⟩
    rw [multilineLiteralTail.eq_def]
    simp only [if_true]
  reads := by
    rintro c w b budget before rest ⟨rfl, quote, control⟩
    have held : c = '\n' ∨ isPrintable c = true := ((isControl_eq_false_iff c).mp control).symm
    have notReturn : c ≠ '\r' := by
      rintro rfl
      exact absurd held (by decide)
    simp only [List.cons_append, List.nil_append, multilineLiteralTail, if_neg quote,
      if_neg notReturn, if_pos held]
  head := by
    rintro c w ⟨rfl, quote, -⟩
    exact ⟨c, [], rfl, quote⟩

theorem body_escapeFrom (s : List Char) (run : Nat) :
    Body '"' (Stands (IsPlain true)) run (escapeFrom true 2 run s) s := by
  induction s generalizing run with
  | nil => exact .nil
  | cons c s ih =>
    by_cases quote : c = '"'
    · subst quote
      by_cases many : 2 ≤ run
      · have text : escapeFrom true 2 run ('"' :: s) = ['\\', '"'] ++ escapeFrom true 2 0 s := by
          simp [escapeFrom, many]
        rw [text]
        exact .shown (stands_quote _) (ih 0)
      · rw [escapeFrom, if_pos rfl, if_neg many]
        exact .mark (Nat.lt_of_not_le many) (ih (run + 1))
    · rw [escapeFrom, if_neg quote]
      exact .shown (stands_escapedChar true quote) (ih 0)

theorem run_le_longestRun (mark : Char) (run : Nat) (s : List Char) :
    run ≤ longestRun mark run s := by
  induction s generalizing run with
  | nil => exact Nat.le_refl run
  | cons c s ih =>
    rw [longestRun]
    split
    · exact Nat.le_of_succ_le (ih (run + 1))
    · exact Nat.le_max_left ..

theorem body_literal {s : List Char} {run : Nat} (few : longestRun '\'' run s ≤ 2)
    (controls : ∀ c ∈ s, isControl c = false) : Body '\'' IsLiteral run s s := by
  induction s generalizing run with
  | nil => exact .nil
  | cons c s ih =>
    obtain ⟨control, others⟩ := List.forall_mem_cons.mp controls
    rw [longestRun] at few
    split at few
    · rename_i quote
      subst quote
      exact .mark (Nat.le_trans (run_le_longestRun ..) few) (ih few others)
    · rename_i quote
      exact .shown (v := [c]) ⟨rfl, quote, control⟩ (ih (Nat.max_le.mp few).2 others)

/-! ### Every style -/

theorem not_mem_of_longestRun {mark : Char} {s : List Char} {run : Nat}
    (none : longestRun mark run s = 0) : mark ∉ s := by
  induction s generalizing run with
  | nil => exact List.not_mem_nil
  | cons c s ih =>
    rw [longestRun] at none
    split at none
    · have := run_le_longestRun mark (run + 1) s
      omega
    · rename_i other
      rw [List.mem_cons, not_or]
      exact ⟨fun e => other e.symm, ih (Nat.max_eq_zero_iff.mp none).2⟩

/-- The styles without escapes are chosen only for what they can hold. -/
theorem styleOf_literal {s : List Char} (h : StringStyle.of s = .literal) :
    s ≠ [] ∧ (∀ c ∈ s, isControl c = false) ∧ longestRun '\'' 0 s = 0 ∧ '\n' ∉ s := by
  have nonempty : s ≠ [] := by
    rintro rfl
    cases h
  revert h
  unfold StringStyle.of
  simp only
  split
  · nofun
  split
  · rename_i holds
    intro _
    simpa [nonempty, and_assoc] using holds
  split
  · nofun
  split
  · nofun
  split <;> nofun

theorem styleOf_multilineLiteral {s : List Char} (h : StringStyle.of s = .multilineLiteral) :
    (∀ c ∈ s, isControl c = false) ∧ longestRun '\'' 0 s ≤ 2 := by
  revert h
  unfold StringStyle.of
  simp only
  split
  · nofun
  split
  · nofun
  split
  · nofun
  split
  · rename_i holds
    intro _
    simpa using holds
  split <;> nofun

/-- A text that begins with no line break. -/
def NoBreak (s : List Char) : Prop := ∀ c ∈ s.head?, c ≠ '\n' ∧ c ≠ '\r'

theorem lineBreak?_of_noBreak {s : List Char} (h : NoBreak s) : lineBreak? s = none := by
  unfold lineBreak?
  split
  · exact absurd rfl (h _ rfl).1
  · exact absurd rfl (h _ rfl).2
  · rfl

/-- The line break after an opening threefold quote is there exactly if it must not be taken for a part
of the string. -/
theorem dropFirstBreak_start {s body : List Char} (own : '\n' ∉ s → NoBreak body) :
    dropFirstBreak ((if s.contains '\n' then ['\n'] else []) ++ body) = body := by
  by_cases lineBreak : '\n' ∈ s
  · rw [if_pos (List.contains_iff_mem.mpr lineBreak)]
    rfl
  · rw [if_neg (mt List.contains_iff_mem.mp lineBreak), List.nil_append, dropFirstBreak,
      lineBreak?_of_noBreak (own lineBreak)]
    rfl

theorem noBreak_escapeFrom {s : List Char} (lineBreak : '\n' ∉ s) (rest : List Char) :
    NoBreak (escapeFrom true 2 0 s ++ '"' :: rest) := by
  cases s with
  | nil => simp [escapeFrom, NoBreak]
  | cons c s =>
    by_cases quote : c = '"'
    · simp [escapeFrom, quote, NoBreak]
    · obtain ⟨d, v, text, -, notReturn, same⟩ := (stands_escapedChar true quote).head
      have notBreak : d ≠ '\n' := fun e => lineBreak (same e ▸ List.mem_cons_self)
      simp [escapeFrom, quote, text, NoBreak, notReturn, notBreak]

theorem noBreak_literal {s : List Char} (lineBreak : '\n' ∉ s)
    (controls : ∀ c ∈ s, isControl c = false) (rest : List Char) : NoBreak (s ++ '\'' :: rest) := by
  cases s with
  | nil => simp [NoBreak]
  | cons c s =>
    have notBreak : c ≠ '\n' := fun e => lineBreak (e ▸ List.mem_cons_self)
    have notReturn : c ≠ '\r' := by
      rintro rfl
      exact absurd (controls _ List.mem_cons_self) (by decide)
    simp [NoBreak, notBreak, notReturn]

section EachStyle

variable (s : List Char) {rest : List Char}

theorem string?_basic (next : rest.head? ≠ some '"') :
    string? (writeStringIn .basic s ++ rest) = some (String.ofList s, rest) := by
  have text : writeStringIn .basic s ++ rest = '"' :: (escapeFrom false 0 0 s ++ '"' :: rest) := by
    simp [writeStringIn]
  have oneLine : ∀ more, escapeFrom false 0 0 s ++ '"' :: rest = '"' :: '"' :: more → False := by
    intro more e
    cases s with
    | nil =>
      obtain ⟨-, e⟩ := List.cons.inj e
      exact next (congrArg List.head? e)
    | cons c s =>
      obtain ⟨w, stands, written⟩ := escapeFrom_cons c s 0
      obtain ⟨d, v, rfl, quote, -⟩ := stands.head
      rw [written] at e
      exact quote (List.cons.inj e).1
  have long : s.length < (escapeFrom false 0 0 s ++ '"' :: rest).length := by
    have := length_le_escapeFrom s 0
    simp only [List.length_append, List.length_cons]
    omega
  rw [text, string?, basicTail_escapeFrom s rest 0 _ [] long]
  · rfl
  · exact oneLine

theorem string?_multilineBasic (next : rest.head? ≠ some '"') :
    string? (writeStringIn .multilineBasic s ++ rest) = some (String.ofList s, rest) := by
  have body := body_escapeFrom s 0
  have long := multilineBasicTail_reader.length_le body
  simp only [writeStringIn, List.append_assoc, List.cons_append, List.nil_append, string?]
  rw [dropFirstBreak_start fun lineBreak => noBreak_escapeFrom lineBreak _,
    multilineBasicTail_reader.read_body body next]
  · rfl
  · simp only [List.length_append, List.length_cons]
    omega

theorem string?_literal (fits : StringStyle.of s = .literal) :
    string? (writeStringIn .literal s ++ rest) = some (String.ofList s, rest) := by
  obtain ⟨nonempty, controls, none, lineBreak⟩ := styleOf_literal fits
  have quotes := not_mem_of_longestRun none
  have plain : ∀ c ∈ s, c ≠ '\'' ∧ isPrintable c = true := fun c hc =>
    ⟨ne_of_mem_of_not_mem hc quotes, ((isControl_eq_false_iff c).mp (controls c hc)).resolve_right
      (ne_of_mem_of_not_mem hc lineBreak)⟩
  have text : writeStringIn .literal s ++ rest = '\'' :: (s ++ '\'' :: rest) := by
    simp [writeStringIn]
  have oneLine : ∀ more, s ++ '\'' :: rest = '\'' :: '\'' :: more → False := by
    intro more e
    obtain ⟨c, s, rfl⟩ := List.exists_cons_of_ne_nil nonempty
    exact (plain c List.mem_cons_self).1 (List.cons.inj e).1
  rw [text, string?, literalTail_eq s rest [] plain]
  · rfl
  · exact oneLine

theorem string?_multilineLiteral (fits : StringStyle.of s = .multilineLiteral)
    (next : rest.head? ≠ some '\'') :
    string? (writeStringIn .multilineLiteral s ++ rest) = some (String.ofList s, rest) := by
  obtain ⟨controls, few⟩ := styleOf_multilineLiteral fits
  have body := body_literal few controls
  simp only [writeStringIn, List.append_assoc, List.cons_append, List.nil_append, string?]
  rw [dropFirstBreak_start fun lineBreak => noBreak_literal lineBreak controls _,
    multilineLiteralTail_reader.read_body body next]
  · rfl
  · simp only [List.length_append, List.length_cons]
    omega

end EachStyle

theorem string?_writeString (s : String) {rest : List Char}
    (next : ∀ c ∈ rest.head?, c ≠ '"' ∧ c ≠ '\'') :
    string? (writeString s ++ rest) = some (s, rest) := by
  have double : rest.head? ≠ some '"' := fun e => (next _ e).1 rfl
  have single : rest.head? ≠ some '\'' := fun e => (next _ e).2 rfl
  rw [writeString]
  cases style : StringStyle.of s.toList with
  | basic => rw [string?_basic _ double, String.ofList_toList]
  | literal => rw [string?_literal _ style, String.ofList_toList]
  | multilineBasic => rw [string?_multilineBasic _ double, String.ofList_toList]
  | multilineLiteral => rw [string?_multilineLiteral _ style single, String.ofList_toList]

end CommandDeck.Toml
