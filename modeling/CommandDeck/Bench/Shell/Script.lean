/-!
# Scripts

A script is a sequence of commands. The words of a command are made of texts and of parts that are
filled in when the command is run: the values of parameters, the output of other commands, and the
results of calculations. What is quoted is not split into more words and has no special characters.
-/

namespace CommandDeck.Shell

def isNameStart (c : Char) : Bool := c.isAlpha || c == '_'

def isNameChar (c : Char) : Bool := c.isAlphanum || c == '_'

def isName (s : List Char) : Bool :=
  match s with
  | [] => false
  | c :: rest => isNameStart c && rest.all isNameChar

/-- How a redirection opens its file. A file that is there is only replaced where that may be. -/
inductive OpenMode where
  | reading
  | writing
  | replacing
  | appending
  deriving DecidableEq

mutual

inductive WordPart where
  | text (s : List Char) (quoted : Bool)
  | parameter (name : String) (use : ParameterUse) (quoted : Bool)
  /-- What commands write. -/
  | output (script : List Command) (quoted : Bool)
  /-- The result of a calculation. -/
  | result (expression : List WordPart) (quoted : Bool)

/-- What is made of the value of a parameter. Where `blank` holds, an empty value is treated as none. -/
inductive ParameterUse where
  | plain
  | size
  | orElse (blank : Bool) (word : List WordPart)
  | orAssign (blank : Bool) (word : List WordPart)
  | orFail (blank : Bool) (word : List WordPart)
  | ifGiven (blank : Bool) (word : List WordPart)
  | withoutStart (longest : Bool) (pattern : List WordPart)
  | withoutEnd (longest : Bool) (pattern : List WordPart)
  /-- What has no meaning. -/
  | bad

inductive Redirection where
  | file (descriptor : Nat) (mode : OpenMode) (target : List WordPart)
  /-- The descriptor stands for what another one stands for, or for nothing. -/
  | copy (descriptor : Nat) (target : List WordPart)
  | document (descriptor : Nat) (body : List WordPart)

inductive Command where
  | simple (line : Nat) (assignments : List (String × List WordPart)) (words : List (List WordPart))
      (redirections : List Redirection)
  | pipeline (commands : List Command)
  | negation (command : Command)
  | both (first second : Command)
  | either (first second : Command)
  | background (command : Command)
  | group (body : List Command) (redirections : List Redirection)
  | subshell (body : List Command) (redirections : List Redirection)
  /-- Conditions, each with what is done if it is the first to hold, and what is done if none holds. -/
  | choice (branches : List (List Command × List Command)) (otherwise : List Command)
      (redirections : List Redirection)
  /-- The body is run as long as the condition ends with success, or with failure if `untilHolds`. -/
  | loop (untilHolds : Bool) (condition body : List Command) (redirections : List Redirection)
  /-- The body is run for every word, or for every argument where no words are given. -/
  | each (name : String) (words? : Option (List (List WordPart))) (body : List Command)
      (redirections : List Redirection)
  | selection (word : List WordPart) (branches : List (List (List WordPart) × List Command))
      (redirections : List Redirection)
  | definition (name : String) (body : Command)

end

/-- The parts of a word. -/
abbrev Word := List WordPart

/-- What is wrong with the text of a script. -/
inductive ScriptFault where
  | unexpected (token : String) (expected? : Option String)
  | openQuote
  | openBrace
  | openBackquote
  | openSum
  | badLoopVariable
  | badFunctionName

namespace ScriptFault

def message : ScriptFault → String
  | unexpected token none => token ++ " unexpected"
  | unexpected token (some expected) => token ++ " unexpected (expecting " ++ expected ++ ")"
  | openQuote => "Unterminated quoted string"
  | openBrace => "Missing '\x7d'"
  | openBackquote => "EOF in backquote substitution"
  | openSum => "Missing '))'"
  | badLoopVariable => "Bad for loop variable"
  | badFunctionName => "Bad function name"

end ScriptFault

end CommandDeck.Shell
