import CommandDeck.Json.Value
import CommandDeck.Terminal.Event
import CommandDeck.Terminal.Invocation

/-!
# Running an invocation

A run shows the stages of starting a container and then a result in the shape that the command's
`returns` tag names. It never fails. It pauses between the stages, and once more before a document.
-/

namespace CommandDeck

structure StageDelays where
  resolve : Duration
  bridge : Duration
  payload : Duration

namespace StageDelays

def none : StageDelays := ⟨0, 0, 0⟩

end StageDelays

namespace Invocation

/-- The document that a command with the tag `json` answers with. -/
def payload (inv : Invocation) (stamp : String) : Json.Value :=
  .object [
    ("status", .string "success"),
    ("timestamp", .string stamp),
    ("data", .object [
      ("message", .string ("Executed " ++ inv.command.name ++ " successfully")),
      ("input_args", .array (inv.words.map .string))])]

/-- The result of a run that takes its stamp at its end. -/
def result (inv : Invocation) (stamp : String) : String :=
  match inv.command.returnShape with
  | .json => (inv.payload stamp).indented
  | _ => "Command " ++ inv.command.name ++ " executed successfully."

def begin (inv : Invocation) (delays : StageDelays) (watch : Watch) (t : Timeline) : Timeline :=
  let c := inv.command
  t.event .info ("[nexus] Resolving runtime for " ++ c.language ++ "...")
    |>.pause watch delays.resolve
    |>.event .info ("[nexus] Using runtime: " ++ c.runtime)
    |>.event .info ("[bridge] Generating " ++ c.language ++ " bridge script...")
    |>.pause watch delays.bridge
    |>.event .info ("[docker] Pulling image " ++ c.runtime ++ "...")
    |>.event .info "[docker] Container started (id: 8f2a1c)"

/-- The answer of the container. Only a document is waited for. -/
def answer (inv : Invocation) (delays : StageDelays) (watch : Watch) (t : Timeline) : Timeline :=
  let t := t.event .output "--- CONTAINER STDOUT ---"
  let t := match inv.command.returnShape with
    | .json => t.pause watch delays.payload
    | _ => t
  t.event .output (inv.result (watch.stamp t.duration))

def run (inv : Invocation) (delays : StageDelays) (watch : Watch) (t : Timeline) : Timeline :=
  (inv.answer delays watch (inv.begin delays watch t)).event .success
    "[nexus] Command finished with exit code 0"

end Invocation

end CommandDeck
