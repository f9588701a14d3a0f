import CommandDeck.Text.Blank

/-!
# Paths

A path is a text whose parts stand between slashes. It leads from the root, where it begins with a
slash, or else from the working folder, to a file or a folder. A part is a step to the file or folder of
that name, two dots are the step back, and empty parts and single dots make no step. What the text ends
in says whether a file can be meant.
-/

namespace CommandDeck

structure Path where
  text : String
  deriving DecidableEq

/-- What a path ends in: a step, a step and a slash, or a single dot. -/
inductive PathEnding where
  | step
  | slash
  | dot
  deriving DecidableEq

namespace Path

def ofText (text : String) : Path := ⟨text⟩

def toText (p : Path) : String := p.text

/-- The longest path in octets. -/
def sizeLimit : Nat := 4095

def isIdle (part : List Char) : Bool := part.isEmpty || part == ['.']

def parts (p : Path) : List (List Char) := Text.splitAt '/' p.text.toList

/-- The path of parts that are given with the last one first. -/
def ofParts (backward : List (List Char)) : Path :=
  ⟨String.ofList (['/'].intercalate backward.reverse)⟩

def rooted (p : Path) : Bool := p.text.toList.head? == some '/'

def steps (p : Path) : List String :=
  (p.parts.filter fun part => !isIdle part).map String.ofList

def ending (p : Path) : PathEnding :=
  match p.parts.reverse with
  | [] => .step
  | last :: before =>
    if last.isEmpty then
      match before.dropWhile List.isEmpty with
      | [] => if p.text.isEmpty then .step else .slash
      | part :: _ => if isIdle part then .dot else .slash
    else if isIdle last then .dot
    else .step

/-- The path of the empty text, which leads nowhere. -/
def isEmpty (p : Path) : Bool := p.text.isEmpty

def backward (p : Path) : List (List Char) := p.parts.reverse.dropWhile isIdle

def name? (p : Path) : Option String :=
  match p.backward with
  | last :: _ => if last = ['.', '.'] then none else some (String.ofList last)
  | [] => none

/-- The path without its last step, if there is any step left. -/
def parent? (p : Path) : Option Path :=
  match (p.backward.drop 1).dropWhile isIdle with
  | [] => none
  | before => some (ofParts before)

/-- The paths that end in one of the parts, which are given with the last one first. -/
def pathsTo : List (List Char) → List Path
  | [] => []
  | part :: before => if isIdle part then pathsTo before else ofParts (part :: before) :: pathsTo before

/-- The path and those of the folders it goes through, the nearest first. -/
def ancestry (p : Path) : List Path := p :: pathsTo (p.backward.drop 1)

def child (p : Path) (name : String) : Path :=
  if p.isEmpty || p.text.toList.getLast? == some '/' then ⟨p.text ++ name⟩
  else ⟨p.text ++ "/" ++ name⟩

/-- A name up to its last dot. A dot at the beginning does not count. -/
def stem (name : List Char) : List Char :=
  match name.reverse.dropWhile fun c => c ≠ '.' with
  | _ :: before => if before.isEmpty then name else before.reverse
  | [] => name

/-- The path with the part of its name after the stem replaced. A path without a name stays. -/
def withExtension (p : Path) (extension : String) : Path :=
  match p.backward with
  | [] => p
  | last :: before =>
    if last = ['.', '.'] then p
    else ofParts ((stem last ++ '.' :: extension.toList) :: before)

end Path

end CommandDeck
