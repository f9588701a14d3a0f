import CommandDeck.Manifest.Document
import CommandDeck.Text.Blank

/-!
# Requests and responses of an analysis

An analysis is asked with the name and the text of a source file and answers with the document of a
manifest. The answer may stand in a fence of three backticks, with a remark after the opening ones.
Whether the manifest may be published is not asked here.
-/

namespace CommandDeck

inductive AnalysisError where
  | emptySource
  | noResponse
  | unparseable (fault : Json.ReadError)
  /-- The program of the analysis could not be run or ended badly. -/
  | failed (detail : String)

namespace AnalysisError

def message : AnalysisError → String
  | emptySource => "Source code cannot be empty"
  | noResponse => "No response from analysis service"
  | unparseable fault => "Analysis service returned an unparseable manifest: " ++ fault.message
  | failed _ => "Failed to analyze code. Please check your analysis service and try again."

def chain (e : AnalysisError) : List String :=
  match e with
  | unparseable fault => [e.message, fault.message]
  | _ => [e.message]

end AnalysisError

namespace Analysis

def request (source filename : String) : String :=
  "Filename: " ++ filename ++ "\n\nCode:\n" ++ source

def fence : List Char := ['`', '`', '`']

/-- What stands between the marks of a fence, from the line after the opening one on. The closing mark
may be missing. A text that does not begin with a fence is left as it is. -/
def unfenced (s : List Char) : List Char :=
  match Text.dropStart? fence s with
  | none => s
  | some rest =>
    let body := (rest.dropWhile fun c => c ≠ '\n').drop 1
    Text.trim ((Text.dropEnd? fence (Text.trimEnd body)).getD body)

def document (response : String) : List Char := unfenced (Text.trim response.toList)

def readResponse (response : String) : Except AnalysisError Manifest :=
  match document response with
  | [] => .error .noResponse
  | body =>
    match Json.readAll Manifest.layout.read (String.ofList body) with
    | .error fault => .error (.unparseable fault)
    | .ok m => .ok m

end Analysis

end CommandDeck
