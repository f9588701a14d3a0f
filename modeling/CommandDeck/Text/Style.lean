/-!
# Styles of text on the screen

A text is shown in a colour, bold or not, where colours are wanted. A style is switched on before the
text and reset after it. A text that contains a reset itself gets the style again after it, so that
all of the text is shown in the style.
-/

namespace CommandDeck

inductive Colour where
  | red
  | green
  | yellow
  | blue
  | cyan
  | white
  deriving DecidableEq

def Colour.number : Colour → List Char
  | red => ['3', '1']
  | green => ['3', '2']
  | yellow => ['3', '3']
  | blue => ['3', '4']
  | cyan => ['3', '6']
  | white => ['3', '7']

structure Style where
  bold : Bool
  colour : Colour
  deriving DecidableEq

namespace Style

def plain (c : Colour) : Style := ⟨false, c⟩

def strong (c : Colour) : Style := ⟨true, c⟩

def start (s : Style) : List Char :=
  '\x1b' :: '[' :: ((if s.bold then ['1', ';'] else []) ++ s.colour.number ++ ['m'])

def reset : List Char := ['\x1b', '[', '0', 'm']

/-- A text with the style switched on again after every reset in it. -/
def resume (s : Style) : List Char → List Char
  | [] => []
  | '\x1b' :: '[' :: '0' :: 'm' :: rest => reset ++ (s.start ++ s.resume rest)
  | c :: rest => c :: s.resume rest

/-- A text in a style, or as it is where colours are not wanted. -/
def paint (s : Style) (wanted : Bool) (text : String) : String :=
  if wanted then String.ofList (s.start ++ (s.resume text.toList ++ reset)) else text

end Style

end CommandDeck
