/-!
# File trees

A folder holds files and folders under names, and nothing else: a name is never a link to another place,
so one address is the only way to a file. An address is the list of names on the way from the root of a
tree. One of the folders is the working folder.
-/

namespace CommandDeck

inductive Node where
  | file (content : ByteArray)
  | folder (entries : List (String × Node))

/-- What a folder holds. -/
abbrev Entries := List (String × Node)

/-- The names on the way from the root, the first one nearest to it. -/
abbrev Address := List String

structure FileTree where
  root : Entries
  working : Address

namespace Entries

def get? (es : Entries) (name : String) : Option Node := List.lookup name es

/-- Puts something under a name, in the place of what was there. -/
def put (es : Entries) (name : String) (node : Node) : Entries :=
  match es with
  | [] => [(name, node)]
  | e :: rest => if e.1 = name then (name, node) :: rest else e :: put rest name node

def erase (es : Entries) (name : String) : Entries := es.filter fun e => e.1 != name

def change (f : Entries → Entries) : Address → Entries → Entries
  | [], es => f es
  | name :: rest, es =>
    match es.get? name with
    | some (.folder inner) => es.put name (.folder (change f rest inner))
    | _ => es

def at? : Address → Entries → Option Entries
  | [], es => some es
  | name :: rest, es =>
    match es.get? name with
    | some (.folder inner) => at? rest inner
    | _ => none

end Entries

mutual

/-- Everything below a node at an address, and the node itself. -/
def Node.listing (a : Address) : Node → List (Address × Option ByteArray)
  | .file content => [(a, some content)]
  | .folder entries => (a, none) :: listingOf a entries

def listingOf (a : Address) : List (String × Node) → List (Address × Option ByteArray)
  | [] => []
  | (name, node) :: rest => node.listing (a ++ [name]) ++ listingOf a rest

end

namespace FileTree

def empty : FileTree := ⟨[], []⟩

def folder? (t : FileTree) (a : Address) : Option Entries := Entries.at? a t.root

/-- Everything in the folder at an address, each with the names below it: files with their contents,
and folders. -/
def below (t : FileTree) (a : Address) : List (Address × Option ByteArray) :=
  match t.folder? a with
  | some entries => listingOf [] entries
  | none => []

/-- Puts something under a name in the folder at an address. -/
def put (t : FileTree) (a : Address) (name : String) (node : Node) : FileTree :=
  { t with root := Entries.change (·.put name node) a t.root }

/-- Takes away what stands under a name in the folder at an address. -/
def erase (t : FileTree) (a : Address) (name : String) : FileTree :=
  { t with root := Entries.change (·.erase name) a t.root }

end FileTree

end CommandDeck
