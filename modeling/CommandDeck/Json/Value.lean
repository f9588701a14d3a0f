import CommandDeck.Number.Layout

/-!
# Documents of nested values

The value of a JSON document and its text. The text is written with a spacing: either everything on
one line, or one member or item a line with an indent of two spaces for each level. A reader gets the
same value back from both.
-/

namespace CommandDeck.Json

/-- The value of a document. Members of an object keep their order. -/
inductive Value where
  | null
  | boolean (b : Bool)
  | integer (i : Int)
  | float (x : Binary64)
  | string (s : String)
  | array (items : List Value)
  | object (members : List (String × Value))
  deriving Inhabited

/-- The white space between the parts of a document. -/
structure Spacing where
  lineBreak : Nat → List Char
  afterColon : List Char

/-- Everything on one line. -/
def Spacing.compact : Spacing := ⟨fun _ => [], []⟩

/-- One member or item a line. -/
def Spacing.indented : Spacing := ⟨fun depth => '\n' :: List.replicate (2 * depth) ' ', [' ']⟩

def hexDigit (n : Nat) : Char := Nat.digitChar (n % 16)

/-- How a character stands inside a string of a document. -/
def escapedChar (c : Char) : List Char :=
  if c = '"' then ['\\', '"']
  else if c = '\\' then ['\\', '\\']
  else if c.toNat < 0x20 then
    match c.toNat with
    | 8 => ['\\', 'b']
    | 9 => ['\\', 't']
    | 10 => ['\\', 'n']
    | 12 => ['\\', 'f']
    | 13 => ['\\', 'r']
    | n => ['\\', 'u', '0', '0', hexDigit (n / 16), hexDigit n]
  else [c]

def writeString (s : String) : List Char := '"' :: (s.toList.flatMap escapedChar ++ ['"'])

namespace Value

mutual

/-- The text of a value whose first line is already indented. -/
def write (sp : Spacing) (depth : Nat) : Value → List Char
  | null => ['n', 'u', 'l', 'l']
  | boolean true => ['t', 'r', 'u', 'e']
  | boolean false => ['f', 'a', 'l', 's', 'e']
  | integer i => NumberLayout.integer i
  | float x => NumberLayout.document.write x
  | string s => writeString s
  | array [] => ['[', ']']
  | array (item :: items) =>
    '[' :: (sp.lineBreak (depth + 1) ++ (write sp (depth + 1) item ++
      (writeItems sp (depth + 1) items ++ (sp.lineBreak depth ++ [']']))))
  | object [] => ['\x7b', '\x7d']
  | object ((key, value) :: members) =>
    '\x7b' :: (sp.lineBreak (depth + 1) ++ (writeString key ++ (':' :: (sp.afterColon ++
      (write sp (depth + 1) value ++ (writeMembers sp (depth + 1) members ++
        (sp.lineBreak depth ++ ['\x7d'])))))))

/-- The items after the first. -/
def writeItems (sp : Spacing) (depth : Nat) : List Value → List Char
  | [] => []
  | item :: items =>
    ',' :: (sp.lineBreak depth ++ (write sp depth item ++ writeItems sp depth items))

/-- The members after the first. -/
def writeMembers (sp : Spacing) (depth : Nat) : List (String × Value) → List Char
  | [] => []
  | (key, value) :: members =>
    ',' :: (sp.lineBreak depth ++ (writeString key ++ (':' :: (sp.afterColon ++
      (write sp depth value ++ writeMembers sp depth members)))))

end

def compact (v : Value) : String := String.ofList (v.write .compact 0)

def indented (v : Value) : String := String.ofList (v.write .indented 0)

end Value

end CommandDeck.Json
