import CommandDeck.Terminal.Event
import CommandDeck.Text.Style

/-!
# Events on the screen

An event is shown in the colour of its kind, where colours are wanted. An echo is a sign in a colour
of its own before the line.
-/

namespace CommandDeck

namespace Event

def render (e : Event) (colours : Bool) : String :=
  match e.kind with
  | .input =>
    (Style.plain .green).paint colours "$" ++ " " ++ (Style.plain .white).paint colours e.content
  | .output => e.content
  | .error => (Style.plain .red).paint colours e.content
  | .success => (Style.plain .green).paint colours e.content
  | .info => (Style.plain .blue).paint colours e.content

end Event

def clearScreen : String := "\x1b[2J\x1b[1;1H"

/-- What an action prints. An echo is only printed where the terminal does not show what is typed. -/
def Action.print (a : Action) (echoes colours : Bool) : String :=
  match a with
  | .clear => clearScreen
  | .display e => if e.kind = .input ∧ echoes = false then "" else e.render colours ++ "\n"

end CommandDeck
