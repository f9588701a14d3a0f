import CommandDeck.Number.Layout
import CommandDeck.Text.Quoted

/-!
# Values of a settings file

The values that the TOML format knows. Numbers are kept exactly as far as a message may have to name
them. A table keeps its keys in the order in which they first came.
-/

namespace CommandDeck.Toml

inductive Float where
  | finite (x : Binary64)
  | infinite (negative : Bool)
  | undefined
  | tooGreat

inductive Value where
  | string (s : String)
  | integer (i : Int)
  | float (x : Float)
  | boolean (b : Bool)
  | dateTime
  | array (items : List Value)
  | table (members : List (String × Value))

/-- The fault of a value of the wrong kind, or of a number beyond every kind. -/
inductive ValueError where
  | invalidType (found : Value) (expected : String)
  | negative (i : Int) (expected : String)
  | integerTooGreat
  | floatTooGreat

namespace Float

def describe : Float → String
  | finite x => String.ofList (NumberLayout.plain.write x)
  | infinite negative => if negative then "-inf" else "inf"
  | undefined => "NaN"
  | tooGreat => "inf"

end Float

namespace Value

/-- The kind of a value, and the value itself where it is short. Integers of more than 64 bits say
that they need more. -/
def describe : Value → String
  | string s => "string " ++ Text.quoted s
  | integer i =>
    let number := "integer `" ++ String.ofList (NumberLayout.integer i) ++ "`"
    if -0x8000000000000000 ≤ i ∧ i ≤ 0xFFFFFFFFFFFFFFFF then number
    else if i ≤ 0x7FFFFFFFFFFFFFFFFFFFFFFFFFFFFFFF then number ++ " as i128"
    else number ++ " as u128"
  | float x => "floating point `" ++ x.describe ++ "`"
  | boolean b => "boolean `" ++ (if b then "true" else "false") ++ "`"
  | dateTime => "map"
  | array _ => "sequence"
  | table _ => "map"

/-- The fault of a number that is beyond every kind of number, by itself. Integers have up to 128 bits,
with a sign or without. -/
def ownOverflow? : Value → Option ValueError
  | integer i =>
    if -0x80000000000000000000000000000000 ≤ i ∧ i ≤ 0xFFFFFFFFFFFFFFFFFFFFFFFFFFFFFFFF then none
    else some .integerTooGreat
  | float .tooGreat => some .floatTooGreat
  | _ => none

/-- The fault of this value where `expected` should stand. -/
def wrongKind (v : Value) (expected : String) : ValueError :=
  v.ownOverflow?.getD (.invalidType v expected)

mutual

/-- The fault of the first number in the value that is beyond every kind of number. -/
def overflow? : Value → Option ValueError
  | array items => overflowOfItems? items
  | table members => overflowOfMembers? members
  | v => v.ownOverflow?

def overflowOfItems? : List Value → Option ValueError
  | [] => none
  | v :: rest => v.overflow?.or (overflowOfItems? rest)

def overflowOfMembers? : List (String × Value) → Option ValueError
  | [] => none
  | (_, v) :: rest => v.overflow?.or (overflowOfMembers? rest)

end

mutual

/-- Every integer in the value fits 64 bits with its sign, and every float is within range. -/
def isPlain : Value → Bool
  | integer i => -0x8000000000000000 ≤ i && i ≤ 0x7FFFFFFFFFFFFFFF
  | float .tooGreat => false
  | array items => arePlain items
  | table members => membersArePlain members
  | _ => true

def arePlain : List Value → Bool
  | [] => true
  | v :: rest => v.isPlain && arePlain rest

def membersArePlain : List (String × Value) → Bool
  | [] => true
  | (_, v) :: rest => v.isPlain && membersArePlain rest

end

end Value

namespace ValueError

def message : ValueError → String
  | invalidType found expected =>
    "invalid type: " ++ found.describe ++ ", expected " ++ expected ++ "\n"
  | negative i expected =>
    "invalid value: integer `" ++ String.ofList (NumberLayout.integer i) ++ "`, expected " ++
      expected ++ "\n"
  | integerTooGreat => "integer number overflowed\n"
  | floatTooGreat => "floating-point number overflowed\n"

end ValueError

end CommandDeck.Toml
