import CommandDeck.Json.Value
import CommandDeck.Manifest.Basic
import CommandDeck.Manifest.Report
import CommandDeck.Text.Style

/-!
# Summaries of a report

A report for a reader, with the findings under the ids of their commands, and for another program, as
a document.
-/

namespace CommandDeck

namespace Report

def findingLine (colours : Bool) (f : Finding) : String :=
  "   " ++ (Style.plain .cyan).paint colours (f.1.label ++ ":") ++ " " ++ f.2.message

/-- The lines of findings that follow one of the command `current`. A line with the id of the command
stands before the findings of another command than the last. -/
def linesAfter (colours : Bool) (current : String) : List Finding → List String
  | [] => []
  | f :: rest =>
    let id := f.1.commandId
    let own := findingLine colours f
    if id = current then own :: linesAfter colours current rest
    else (" " ++ (Style.strong .blue).paint colours id ++ ":") :: own :: linesAfter colours id rest

/-- The report with the findings under the ids of their commands. -/
def listing (r : Report) (colours : Bool) : List String :=
  (Style.strong .red).paint colours "Validation errors:" :: linesAfter colours "" r.findings

/-- Puts a member in its place among members in the order of their keys, over one with its key. -/
def putMember (key value : String) : List (String × String) → List (String × String)
  | [] => [(key, value)]
  | (k, v) :: rest =>
    if key < k then (key, value) :: (k, v) :: rest
    else if key = k then (key, value) :: rest
    else (k, v) :: putMember key value rest

/-- The messages by the labels of their places, in the order of the labels. -/
def byLabel (r : Report) : List (String × String) :=
  r.findings.foldl (fun members f => putMember f.1.label f.2.message members) []

def summary (r : Report) (m : Manifest) : Json.Value :=
  .object [
    ("namespace", .string m.namespaceName),
    ("deployable", .boolean r.isEmpty),
    ("errors", .object (r.byLabel.map fun p => (p.1, .string p.2)))]

end Report

end CommandDeck
