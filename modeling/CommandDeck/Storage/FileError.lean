import CommandDeck.Number.Layout

/-!
# What goes wrong with files

Most causes are those of the file system, which has a number for each.
-/

namespace CommandDeck

inductive FileError where
  | notFound
  | denied
  | busy
  | alreadyThere
  | notFolder
  | isFolder
  | nameTooLong
  | nulInName
  | notText
  | other (code : Nat)
  deriving DecidableEq

namespace FileError

def reason : FileError → String
  | notFound => "No such file or directory"
  | denied => "Permission denied"
  | busy => "Device or resource busy"
  | alreadyThere => "File exists"
  | notFolder => "Not a directory"
  | isFolder => "Is a directory"
  | nameTooLong => "File name too long"
  | nulInName => "file name contained an unexpected NUL byte"
  | notText => "stream did not contain valid UTF-8"
  | other _ => "Unknown error"

/-- The number of the cause, if it is one of the file system's. -/
def code? : FileError → Option Nat
  | notFound => some 2
  | denied => some 13
  | busy => some 16
  | alreadyThere => some 17
  | notFolder => some 20
  | isFolder => some 21
  | nameTooLong => some 36
  | nulInName => none
  | notText => none
  | other code => some code

def message (e : FileError) : String :=
  match e.code? with
  | some code => e.reason ++ " (os error " ++ String.ofList (NumberLayout.digits code) ++ ")"
  | none => e.reason

end FileError

end CommandDeck
