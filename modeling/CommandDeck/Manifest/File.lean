import CommandDeck.Host.Basic
import CommandDeck.Manifest.Document
import CommandDeck.Text.Utf8

/-!
# Manifest files

A manifest is saved next to its place and then moved there, so that the place holds either the whole
new document or what it held before.
-/

namespace CommandDeck

inductive ManifestFileError where
  | file (fault : FileError)
  | text (fault : ManifestTextError)

namespace ManifestTextError

def chain (e : ManifestTextError) : List String :=
  match e with
  | parse fault => [e.message, fault.message]
  | blankNamespace => [e.message]

end ManifestTextError

/-- The message of a file's fault, as the fault of a document. -/
def ioMessage (e : FileError) : String := "IO error: " ++ e.message

namespace ManifestFileError

def message : ManifestFileError → String
  | file fault => ioMessage fault
  | text fault => fault.message

def chain : ManifestFileError → List String
  | file fault => [ioMessage fault, fault.message]
  | text fault => fault.chain

end ManifestFileError

namespace Manifest

def ofContent (content : Except FileError ByteArray) : Except ManifestFileError Manifest :=
  match content with
  | .error e => .error (.file e)
  | .ok bytes =>
    match Text.decode? bytes with
    | none => .error (.file .notText)
    | some s =>
      match ofText s with
      | .error e => .error (.text e)
      | .ok m => .ok m

def content (m : Manifest) : ByteArray := Text.encode (m.toText ++ "\n")

/-- The place where a manifest is written before it is moved to `p`. -/
def draftPath (p : Path) : Path := p.withExtension "json.tmp"

def saveSteps (m : Manifest) (p : Path) : List FileStep :=
  (p.parent?.toList.map FileStep.makeFolders) ++
    [.write (draftPath p) m.content, .move (draftPath p) p]

variable {m : Type → Type} [Monad m] [Host m]

def load (p : Path) : m (Except ManifestFileError Manifest) := do
  return ofContent (← Storage.read p)

def save (manifest : Manifest) (p : Path) : m (Except ManifestFileError Unit) := do
  match ← performAll (manifest.saveSteps p) with
  | .ok () => return .ok ()
  | .error e => return .error (.file e)

end Manifest

end CommandDeck
