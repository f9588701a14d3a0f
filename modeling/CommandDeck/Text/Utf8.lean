/-!
# Bytes and text

Text is stored as UTF-8. Reading it back either insists that the bytes are well formed or puts the
replacement character for every maximal part that cannot begin a character.
-/

namespace CommandDeck.Text

/-- The text that the bytes encode, or `none` if they are not well formed. -/
def decode? (bytes : ByteArray) : Option String := String.fromUTF8? bytes

def encode (s : String) : ByteArray := s.toUTF8

/-- The number of continuation bytes after a first byte, its share of the code point, and the range
of the byte that has to follow it. -/
def leadByte? (b : Nat) : Option (Nat × Nat × Nat × Nat) :=
  if b < 0x80 then some (0, b, 0, 0)
  else if 0xC2 ≤ b ∧ b ≤ 0xDF then some (1, b - 0xC0, 0x80, 0xBF)
  else if b = 0xE0 then some (2, 0, 0xA0, 0xBF)
  else if b = 0xED then some (2, 0xD, 0x80, 0x9F)
  else if 0xE1 ≤ b ∧ b ≤ 0xEF then some (2, b - 0xE0, 0x80, 0xBF)
  else if b = 0xF0 then some (3, 0, 0x90, 0xBF)
  else if 0xF1 ≤ b ∧ b ≤ 0xF3 then some (3, b - 0xF0, 0x80, 0xBF)
  else if b = 0xF4 then some (3, 4, 0x80, 0x8F)
  else none

/-- A character under construction: the bytes still owed, the code point so far, and the range of the
next byte. -/
structure Partial where
  owed : Nat
  point : Nat
  low : Nat
  high : Nat

def replacement : Char := Char.ofNat 0xFFFD

/-- The state after a byte that begins a character, and the characters completed by it. -/
def beginCharacter (b : Nat) : List Char × Option Partial :=
  match leadByte? b with
  | none => ([replacement], none)
  | some (0, point, _, _) => ([Char.ofNat point], none)
  | some (owed, point, low, high) => ([], some ⟨owed, point, low, high⟩)

/-- Reads bytes in the state `state`. A byte out of range ends the character under construction with
one replacement character and is then read as the beginning of the next. -/
def decodeLossyFrom : Option Partial → List UInt8 → List Char
  | none, [] => []
  | some _, [] => [replacement]
  | none, b :: rest =>
    let (done, state) := beginCharacter b.toNat
    done ++ decodeLossyFrom state rest
  | some p, b :: rest =>
    if p.low ≤ b.toNat ∧ b.toNat ≤ p.high then
      let point := p.point * 64 + (b.toNat - 0x80)
      if p.owed = 1 then Char.ofNat point :: decodeLossyFrom none rest
      else decodeLossyFrom (some ⟨p.owed - 1, point, 0x80, 0xBF⟩) rest
    else
      let (done, state) := beginCharacter b.toNat
      replacement :: (done ++ decodeLossyFrom state rest)

/-- The text that the bytes encode, with a replacement character for each malformed part. -/
def decodeLossy (bytes : ByteArray) : String :=
  match decode? bytes with
  | some s => s
  | none => String.ofList (decodeLossyFrom none bytes.toList)

end CommandDeck.Text
