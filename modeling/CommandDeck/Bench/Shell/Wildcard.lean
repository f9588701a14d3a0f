import CommandDeck.Bench.Shell.Pattern
import CommandDeck.Bench.Shell.State

/-!
# Words that stand for paths

A word that is a pattern stands for the paths that fit it, in the order of texts. Each part of it between
slashes is matched with the names in the folders that the parts before it lead to. A dot at the beginning
of a name is only matched by a dot. A pattern that no path fits stands for itself.
-/

namespace CommandDeck.Shell

variable {m : Type → Type} [Monad m] [Storage m]

def isPattern (p : List Marked) : Bool :=
  p.any fun c => !c.2 && (c.1 == '*' || c.1 == '?' || c.1 == '[')

/-- The text of a pattern in which every character stands for itself. -/
def written (p : List Marked) : String := String.ofList (p.map (·.1))

def nameFits (p : List Marked) (name : String) : Bool :=
  (name.toList.head? != some '.' || (p.head?.any fun c => c.1 == '.')) && matchesAll p name.toList

/-- The names that fit a pattern in the folder to which a text leads. -/
def namesFitting (folder : String) (p : List Marked) : Run m (List String) := do
  let path := (← get).pathOf (if folder.isEmpty then "." else folder)
  match ← onHost (Storage.entries path) with
  | .ok names => return (names ++ [".", ".."]).filter (nameFits p)
  | .error _ => return []

/-- The paths that begin with a text and go on with names that fit patterns. -/
def pathsFrom (start : String) : List (List Marked) → Run m (List String)
  | [] => return []
  | [last] => do
    if isPattern last then
      return (← namesFitting start last).map (start ++ ·)
    else
      let text := start ++ written last
      return if ← isThere text then [text] else []
  | step :: rest => do
    if isPattern step then
      let mut all := []
      for name in ← namesFitting start step do
        all := all ++ (← pathsFrom (start ++ name ++ "/") rest)
      return all
    else pathsFrom (start ++ written step ++ "/") rest

def stepsOf : List Marked → List (List Marked)
  | [] => [[]]
  | c :: rest =>
    if c.1 = '/' then [] :: stepsOf rest
    else match stepsOf rest with
      | [] => [[c]]
      | step :: more => (c :: step) :: more

def textsOf (field : List Marked) : Run m (List String) := do
  if (← get).switches.keepsPatterns || !isPattern field then return [written field]
  else
    match ← pathsFrom "" (stepsOf field) with
    | [] => return [written field]
    | paths => return paths.mergeSort fun a b => a ≤ b

end CommandDeck.Shell
