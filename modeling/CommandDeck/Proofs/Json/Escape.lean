import CommandDeck.Json.Value
import CommandDeck.Json.StringText

/-!
# Escaped text reads back

Every character of a string is written in a form that the reader turns into that character again, so
that a written string is read as the string.
-/

namespace CommandDeck.Json

theorem hexValue?_hexDigit (n : Nat) : Text.hexValue? (hexDigit n) = some (n % 16) := by
  have digits : ∀ k < 16, Text.hexValue? (Nat.digitChar k) = some k := by decide
  exact digits (n % 16) (Nat.mod_lt n (by decide))

theorem utf8Size_hexDigit (n : Nat) : (hexDigit n).utf8Size = 1 := by
  have digits : ∀ k < 16, (Nat.digitChar k).utf8Size = 1 := by decide
  exact digits (n % 16) (Nat.mod_lt n (by decide))

variable (before rest : List Char)

theorem readStringFrom_unescaped {strict : Bool} {c : Char} (quote : c ≠ '"')
    (backslash : c ≠ '\\') (printed : ¬ c.toNat < 0x20) :
    readStringFrom strict .plain before (c :: rest) =
      readStringFrom strict .plain (c :: before) rest := by
  simp [readStringFrom, EscapeState.isPlain, stringStep, quote, backslash, printed]

theorem readStringFrom_short {strict : Bool} {letter c : Char} (other : letter ≠ 'u')
    (short : shortEscape? letter = some c) :
    readStringFrom strict .plain before ('\\' :: letter :: rest) =
      readStringFrom strict .plain (c :: before) rest := by
  simp [readStringFrom, EscapeState.isPlain, stringStep, other, short]

theorem readStringFrom_digits {c : Char} (control : c.toNat < 0x20) :
    readStringFrom true .plain before
        ('\\' :: 'u' :: '0' :: '0' :: hexDigit (c.toNat / 16) :: hexDigit c.toNat :: rest) =
      readStringFrom true .plain (c :: before) rest := by
  have zero : Text.hexValue? '0' = some 0 := by decide
  have size : ('0' : Char).utf8Size = 1 := by decide
  have value : c.toNat / 16 % 16 * 16 + c.toNat % 16 = c.toNat := by omega
  have low : ¬ 0xDC00 ≤ c.toNat := by omega
  have lower : ¬ 0xD800 ≤ c.toNat := by omega
  simp [readStringFrom, EscapeState.isPlain, stringStep, shorterThan, zero, size,
    hexValue?_hexDigit, utf8Size_hexDigit, endEscape, value, low, lower]

/-- Reading a written character is having read it. -/
theorem readStringFrom_escapedChar (c : Char) :
    readStringFrom true .plain before (escapedChar c ++ rest) =
      readStringFrom true .plain (c :: before) rest := by
  unfold escapedChar
  split
  · rename_i quote
    subst quote
    exact readStringFrom_short before rest (by decide) rfl
  split
  · rename_i backslash
    subst backslash
    exact readStringFrom_short before rest (by decide) rfl
  split
  · rename_i control
    have short : ∀ {letter : Char} {code : Nat}, c.toNat = code → letter ≠ 'u' →
        shortEscape? letter = some (Char.ofNat code) →
        readStringFrom true .plain before ('\\' :: letter :: rest) =
          readStringFrom true .plain (c :: before) rest := by
      rintro letter _ rfl other short
      rw [Char.ofNat_toNat] at short
      exact readStringFrom_short before rest other short
    split
    · exact short ‹_› (by decide) rfl
    · exact short ‹_› (by decide) rfl
    · exact short ‹_› (by decide) rfl
    · exact short ‹_› (by decide) rfl
    · exact short ‹_› (by decide) rfl
    · exact readStringFrom_digits before rest control
  · rename_i quote backslash printed
    exact readStringFrom_unescaped before rest quote backslash printed

theorem readStringFrom_escaped (s : List Char) :
    readStringFrom true .plain before (s.flatMap escapedChar ++ '"' :: rest) =
      .ok (before.reverse ++ s, rest) := by
  induction s generalizing before with
  | nil => simp [readStringFrom, EscapeState.isPlain]
  | cons c s ih =>
    rw [List.flatMap_cons, List.append_assoc, readStringFrom_escapedChar, ih]
    simp

/-- What follows the opening quote of a written string is read as the string. -/
theorem readString_escaped (s : String) :
    readString (s.toList.flatMap escapedChar ++ '"' :: rest) = .ok (s, rest) := by
  simp [readString, readStringFrom_escaped]

end CommandDeck.Json
