import CommandDeck.Number.Layout
import CommandDeck.Text.Quoted

/-!
# What can be wrong with a document

The first fault in reading order is the one reported. A fault is either one of the grammar or a value
of the wrong kind, and `ReadError.message` is its wording.
-/

namespace CommandDeck.Json

/-- The kind of value that stood where another was expected. -/
inductive Found where
  | null
  | boolean (b : Bool)
  | integer (i : Int)
  | float (x : Binary64)
  | string (s : String)
  | sequence
  | map

/-- Where the text of a document ended too early. -/
inductive Unfinished where
  | value
  | object
  | list
  | string

inductive ReadError where
  | unfinished (part : Unfinished)
  | expectedValue
  | expectedIdent
  | expectedColon
  | expectedCommaOrBrace
  | expectedCommaOrBracket
  | keyNotString
  | trailingComma
  | trailingCharacters
  | invalidNumber
  | numberOutOfRange
  | invalidEscape
  | unpairedSurrogate
  | loneSurrogate
  | controlCharacter
  | tooDeep
  | invalidType (found : Found) (expected : String)
  | invalidValue (found : Found) (expected : String)
  | unknownVariant (name : String) (known : List String)
  | noVariant (title : String)
  | duplicateField (name : String)
  | missingField (name : String)
  | invalidLength (length : Nat) (expected : String)

namespace Found

def describe : Found → String
  | null => "null"
  | boolean true => "boolean `true`"
  | boolean false => "boolean `false`"
  | integer i => "integer `" ++ String.ofList (NumberLayout.integer i) ++ "`"
  | float x => "floating point `" ++ String.ofList (NumberLayout.document.write x) ++ "`"
  | string s => "string " ++ Text.quoted s
  | sequence => "sequence"
  | map => "map"

end Found

namespace Unfinished

def describe : Unfinished → String
  | value => "a value"
  | object => "an object"
  | list => "a list"
  | string => "a string"

end Unfinished

/-- The names of the variants that would have been right. -/
def describeVariants : List String → String
  | [] => "there are no variants"
  | [a] => "expected `" ++ a ++ "`"
  | [a, b] => "expected `" ++ a ++ "` or `" ++ b ++ "`"
  | many => "expected one of " ++ ", ".intercalate (many.map fun a => "`" ++ a ++ "`")

namespace ReadError

def message : ReadError → String
  | unfinished part => "EOF while parsing " ++ part.describe
  | expectedValue => "expected value"
  | expectedIdent => "expected ident"
  | expectedColon => "expected `:`"
  | expectedCommaOrBrace => "expected `,` or `\x7d`"
  | expectedCommaOrBracket => "expected `,` or `]`"
  | keyNotString => "key must be a string"
  | trailingComma => "trailing comma"
  | trailingCharacters => "trailing characters"
  | invalidNumber => "invalid number"
  | numberOutOfRange => "number out of range"
  | invalidEscape => "invalid escape"
  | unpairedSurrogate => "unexpected end of hex escape"
  | loneSurrogate => "lone leading surrogate in hex escape"
  | controlCharacter => "control character (\\u0000-\\u001F) found while parsing a string"
  | tooDeep => "recursion limit exceeded"
  | invalidType found expected => "invalid type: " ++ found.describe ++ ", expected " ++ expected
  | invalidValue found expected => "invalid value: " ++ found.describe ++ ", expected " ++ expected
  | unknownVariant name known => "unknown variant `" ++ name ++ "`, " ++ describeVariants known
  | noVariant title => "data did not match any variant of untagged enum " ++ title
  | duplicateField name => "duplicate field `" ++ name ++ "`"
  | missingField name => "missing field `" ++ name ++ "`"
  | invalidLength length expected =>
    "invalid length " ++ String.ofList (NumberLayout.digits length) ++ ", expected " ++ expected

end ReadError

end CommandDeck.Json
