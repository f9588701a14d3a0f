import CommandDeck.Analysis.Response
import CommandDeck.Host.Basic
import CommandDeck.Text.Utf8

/-!
# Analysing a source file

A program is asked for the manifest of a source file. It must end with success and answer with a document.
-/

namespace CommandDeck.Analysis

variable {m : Type → Type} [Monad m] [Host m]

def responseOf (program : String) (r : Except LaunchError ProgramResult) :
    Except AnalysisError String :=
  match r with
  | .error (.unstarted reason) =>
    .error (.failed ("failed to spawn '" ++ program ++ "': " ++ reason))
  | .error (.lost reason) =>
    .error (.failed ("failed to wait for '" ++ program ++ "': " ++ reason))
  | .ok r =>
    if r.ending = .exit 0 then .ok (Text.decodeLossy r.output)
    else .error (.failed (r.ending.describe ++ ": " ++ Text.trimmed (Text.decodeLossy r.errors)))

/-- Has a source file analysed by a program, which is given the variables of the surroundings. -/
def analyse (surroundings : List (String × String)) (program : String) (args : List String)
    (source filename : String) : m (Except AnalysisError Manifest) := do
  if Text.isBlankText source then return .error .emptySource
  else
    let r ← Host.launch ⟨program, args, surroundings, Text.encode (request source filename)⟩
    return (responseOf program r).bind readResponse

end CommandDeck.Analysis
