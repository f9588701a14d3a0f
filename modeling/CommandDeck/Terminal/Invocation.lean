import CommandDeck.Manifest.Basic

/-!
# Invocations

A command is invoked with the words that follow it on the line. A required argument is given when some
word begins with its flag; the words are not looked at any closer.
-/

namespace CommandDeck

structure Invocation where
  namespaceName : String
  command : Command
  words : List String

def isGiven (cli : String) (words : List String) : Bool :=
  words.any fun w => cli.toList.isPrefixOf w.toList

/-- The flags of the required arguments that are not given, in the order of the arguments. -/
def Command.missingFlags (c : Command) (words : List String) : List String :=
  (c.requiredArguments.filter fun a => !isGiven a.cli words).map (·.cli)

/-- Invokes a command, or answers the flags that are missing. -/
def Command.invoke (c : Command) (namespaceName : String) (words : List String) :
    Except (List String) Invocation :=
  match c.missingFlags words with
  | [] => .ok ⟨namespaceName, c, words⟩
  | missing => .error missing

end CommandDeck
