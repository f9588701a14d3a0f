import CommandDeck.Json.Reader
import CommandDeck.Json.Value

/-!
# Whole documents

Reading any document into its value. The members of an object are kept in their order, and a key may
come more than once.
-/

namespace CommandDeck.Json

def Value.ofNumeral : Numeral → Value
  | .integer i => .integer i
  | .float x => .float x

/-- Reads a value that begins with `c`. The values inside it are read by `inner`, which is missing
where no further level may be opened. -/
def valueAt (inner : Option (Reader Value)) (c : Char) (rest : List Char) :
    Except ReadError (Value × List Char) :=
  match c with
  | 'n' => (readNullTail rest).map fun s => (.null, s)
  | 't' => (readTrueTail rest).map fun s => (.boolean true, s)
  | 'f' => (readFalseTail rest).map fun s => (.boolean false, s)
  | '"' => (readString rest).map fun r => (.string r.1, r.2)
  | '-' => (readNumeral true rest).map fun r => (.ofNumeral r.1, r.2)
  | '[' =>
    match inner with
    | none => .error .tooDeep
    | some read => (listTail read 0 rest).map fun r => (.array r.1, r.2)
  | '\x7b' =>
    match inner with
    | none => .error .tooDeep
    | some read =>
      let step (members : List (String × Value)) (key : String) : Reader (List (String × Value)) :=
        fun levels s => (afterColon read levels s).map fun r => ((key, r.1) :: members, r.2)
      (membersTail step [] 0 rest).map fun r => (.object r.1.reverse, r.2)
  | c =>
    if Text.isDigit c then (readNumeral false (c :: rest)).map fun r => (.ofNumeral r.1, r.2)
    else .error .expectedValue

/-- Reads a value in which `levels` more arrays and objects may be opened inside each other. -/
def value : Nat → List Char → Except ReadError (Value × List Char)
  | 0 => atValue (valueAt none)
  | levels + 1 => atValue (valueAt (some fun _ => value levels))

def Value.ofText (text : String) : Except ReadError Value := readAll value text

end CommandDeck.Json
