import CommandDeck.Text.Printable

/-!
# Quoted text

A text as messages quote it: in double quotes, with a backslash before a quote or a backslash, with
short escapes for the usual controls, and with the code point in braces for every other character
that would not be seen.
-/

namespace CommandDeck.Text

/-- The digits of a code point in base sixteen, without leading zeros. -/
def hexDigits (n : Nat) : List Char := Nat.toDigits 16 n

def quotedChar (c : Char) : List Char :=
  if c = '"' then ['\\', '"']
  else if c = '\\' then ['\\', '\\']
  else if c = '\n' then ['\\', 'n']
  else if c = '\r' then ['\\', 'r']
  else if c = '\t' then ['\\', 't']
  else if c.toNat = 0 then ['\\', '0']
  else if isHidden c then '\\' :: 'u' :: '\x7b' :: (hexDigits c.toNat ++ ['\x7d'])
  else [c]

/-- A text in double quotes, fit to stand in one line of a message. -/
def quoted (s : String) : String :=
  String.ofList ('"' :: (s.toList.flatMap quotedChar ++ ['"']))

end CommandDeck.Text
