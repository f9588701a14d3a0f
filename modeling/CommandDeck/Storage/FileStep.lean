import CommandDeck.Storage.FileError
import CommandDeck.Storage.FileTree
import CommandDeck.Storage.Path

/-!
# Paths in a file tree, and changes of one

Reading a path and performing a step on a tree fail as a file system does: with the first cause on the
way. A step that fails has no effect, except that the folders made on the way stay.
-/

namespace CommandDeck

/-- A change of a file tree. -/
inductive FileStep where
  | makeFolders (p : Path)
  | write (p : Path) (content : ByteArray)
  | append (p : Path) (content : ByteArray)
  | move (source target : Path)
  | remove (p : Path)

/-- Where a path leads: a folder, and a name in it where the path ends in one. Something may stand under
the name or not. -/
structure Location where
  folder : Address
  entries : Entries
  name? : Option String

namespace FileTree

/-- The longest name in octets. -/
def nameLimit : Nat := 255

def lookUp (es : Entries) (name : String) : Except FileError (Option Node) :=
  if nameLimit < name.utf8ByteSize then .error .nameTooLong else .ok (es.get? name)

/-- The folder to which steps lead from the folder at the address `a`, given with its last name first. -/
def walk (t : FileTree) : Address → Entries → List String → Except FileError (Address × Entries)
  | a, es, [] => .ok (a, es)
  | a, es, step :: rest =>
    if step = ".." then
      walk t a.tail ((t.folder? a.tail.reverse).getD []) rest
    else match lookUp es step with
      | .error e => .error e
      | .ok none => .error .notFound
      | .ok (some (.file _)) => .error .notFolder
      | .ok (some (.folder inner)) => walk t (step :: a) inner rest

def locate (t : FileTree) (p : Path) : Except FileError Location :=
  if p.text.toList.contains '\x00' then .error .nulInName
  else if p.isEmpty then .error .notFound
  else if Path.sizeLimit < p.text.utf8ByteSize then .error .nameTooLong
  else
    let steps := p.steps
    let name? := if p.ending = .dot then none else p.name?
    let start := if p.rooted then [] else t.working
    match t.walk start.reverse ((t.folder? start).getD []) (if name?.isSome then steps.dropLast else steps) with
    | .error e => .error e
    | .ok (a, es) => .ok ⟨a.reverse, es, name?⟩

def find (t : FileTree) (p : Path) : Except FileError Node :=
  match t.locate p with
  | .error e => .error e
  | .ok ⟨_, es, none⟩ => .ok (.folder es)
  | .ok ⟨_, es, some name⟩ =>
    match lookUp es name with
    | .error e => .error e
    | .ok none => .error .notFound
    | .ok (some (.folder inner)) => .ok (.folder inner)
    | .ok (some (.file content)) =>
      if p.ending = .slash then .error .notFolder else .ok (.file content)

def isFolder (t : FileTree) (p : Path) : Bool :=
  match t.find p with
  | .ok (.folder _) => true
  | _ => false

def read (t : FileTree) (p : Path) : Except FileError ByteArray :=
  match t.find p with
  | .error e => .error e
  | .ok (.folder _) => .error .isFolder
  | .ok (.file content) => .ok content

def entries (t : FileTree) (p : Path) : Except FileError (List String) :=
  match t.find p with
  | .error e => .error e
  | .ok (.folder es) => .ok (es.map (·.1))
  | .ok (.file _) => .error .notFolder

def makeFolder (t : FileTree) (p : Path) : Except FileError FileTree :=
  match t.locate p with
  | .error e => .error e
  | .ok ⟨_, _, none⟩ => .error .alreadyThere
  | .ok ⟨a, es, some name⟩ =>
    match lookUp es name with
    | .error e => .error e
    | .ok (some _) => .error .alreadyThere
    | .ok none => .ok (t.put a name (.folder []))

/-- Makes the folder at the first of some paths and before it, as far as they are missing, the folders at
the other paths, through which the path goes. -/
def makeFolders (t : FileTree) : List Path → Except FileError Unit × FileTree
  | [] => (.ok (), t)
  | p :: before =>
    match t.makeFolder p with
    | .ok t => (.ok (), t)
    | .error .notFound =>
      match t.makeFolders before with
      | (.error e, t) => (.error e, t)
      | (.ok (), t) =>
        match t.makeFolder p with
        | .ok t => (.ok (), t)
        | .error e => (if t.isFolder p then .ok () else .error e, t)
    | .error e => (if t.isFolder p then .ok () else .error e, t)

/-- Puts a file where a path leads, with a content that depends on the file that stands there. -/
def writeWith (t : FileTree) (p : Path) (content : Option ByteArray → ByteArray) :
    Except FileError FileTree :=
  match t.locate p with
  | .error e => .error e
  | .ok ⟨_, _, none⟩ => .error .isFolder
  | .ok ⟨a, es, some name⟩ =>
    if p.ending = .slash then .error .isFolder
    else match lookUp es name with
      | .error e => .error e
      | .ok (some (.folder _)) => .error .isFolder
      | .ok (some (.file old)) => .ok (t.put a name (.file (content (some old))))
      | .ok none => .ok (t.put a name (.file (content none)))

/-- Moves a file, over another one if need be. -/
def move (t : FileTree) (source target : Path) : Except FileError FileTree :=
  match t.locate source, t.locate target with
  | .error e, _ => .error e
  | _, .error e => .error e
  | .ok ⟨a, es, some name⟩, .ok ⟨b, fs, some onto⟩ =>
    match lookUp es name with
    | .error e => .error e
    | .ok none => .error .notFound
    | .ok (some (.folder _)) => .error .isFolder
    | .ok (some (.file content)) =>
      match lookUp fs onto with
      | .error e => .error e
      | .ok there =>
        if source.ending = .slash ∨ target.ending = .slash then .error .notFolder
        else match there with
          | some (.folder _) => .error .isFolder
          | _ => .ok ((t.erase a name).put b onto (.file content))
  | _, _ => .error .busy

def remove (t : FileTree) (p : Path) : Except FileError FileTree :=
  match t.locate p with
  | .error e => .error e
  | .ok ⟨_, _, none⟩ => .error .isFolder
  | .ok ⟨a, es, some name⟩ =>
    match lookUp es name with
    | .error e => .error e
    | .ok none => .error .notFound
    | .ok (some (.folder _)) => .error .isFolder
    | .ok (some (.file _)) =>
      if p.ending = .slash then .error .notFolder else .ok (t.erase a name)

/-- The tree after an attempt that has no effect if it fails. -/
def attempt (t : FileTree) (r : Except FileError FileTree) : Except FileError Unit × FileTree :=
  match r with
  | .ok t => (.ok (), t)
  | .error e => (.error e, t)

def perform (t : FileTree) : FileStep → Except FileError Unit × FileTree
  | .makeFolders p => if p.isEmpty then (.ok (), t) else t.makeFolders p.ancestry
  | .write p content => t.attempt (t.writeWith p fun _ => content)
  | .append p content => t.attempt (t.writeWith p fun old => old.getD ByteArray.empty ++ content)
  | .move source target => t.attempt (t.move source target)
  | .remove p => t.attempt (t.remove p)

end FileTree

end CommandDeck
