import CommandDeck.Bench.Filter.Edit
import CommandDeck.Bench.Filter.Format
import CommandDeck.Bench.Shell.State

/-!
# Programs

The programs that scripts can call: filters, and a few that change files. Each takes its arguments, reads
the input or the files that are named, writes to the descriptors of the shell it runs in, and ends with
a status, of which zero means success.
-/

namespace CommandDeck.Shell

open CommandDeck.Filter

variable {m : Type → Type} [Monad m] [Storage m]

def write (octets : Octets) : Run m Unit := emit 1 ⟨octets.toArray⟩

/-- Tells a fault in the name by which the program has been called. -/
def reproach (message : String) : Run m Unit := do
  complain ((← get).speaker?.getD "" ++ ": " ++ message)

def reproachUse (message : String) : Run m Unit := do
  reproach (message ++ "\nTry '" ++ (← get).speaker?.getD "" ++ " --help' for more information.")

/-- The options of a program with their values, and the other arguments; or what is wrong with an option
that the program does not have. -/
def readOptions (plain valued : String) :
    List String → Except String (List (Char × String) × List String)
  | [] => .ok ([], [])
  | arg :: rest =>
    match arg.toList with
    | ['-', '-'] => .ok ([], rest)
    | '-' :: '-' :: _ => .error ("unrecognized option '" ++ arg ++ "'")
    | '-' :: c :: more =>
      let letters := c :: more
      let flags := letters.takeWhile plain.toList.contains
      let given := flags.map fun c => (c, "")
      match letters.drop flags.length with
      | [] => (readOptions plain valued rest).map fun r => (given ++ r.1, r.2)
      | v :: value =>
        if !valued.toList.contains v then .error ("invalid option -- '" ++ String.singleton v ++ "'")
        else
          match value, rest with
          | [], text :: rest =>
            (readOptions plain valued rest).map fun r => (given ++ (v, text) :: r.1, r.2)
          | [], [] => .error ("option requires an argument -- '" ++ String.singleton v ++ "'")
          | value, rest =>
            (readOptions plain valued rest).map fun r =>
              (given ++ (v, String.ofList value) :: r.1, r.2)
    | _ => (readOptions plain valued rest).map fun r => (r.1, arg :: r.2)

def withOptions (plain valued : String) (failure : Nat) (args : List String)
    (run : List (Char × String) → List String → Run m Nat) : Run m Nat := do
  match readOptions plain valued args with
  | .ok (options, operands) => run options operands
  | .error message =>
    reproachUse message
    return failure

def optionValue? (options : List (Char × String)) (c : Char) : Option String :=
  (options.reverse.find? fun o => o.1 == c).map (·.2)

def hasOption (options : List (Char × String)) (c : Char) : Bool := options.any fun o => o.1 == c

/-- The contents of files under their names, where a dash stands for the input, and whether all could be
read. Without files it is the input that is read. -/
def readFiles (fault : String → FileError → String) (files : List String) :
    Run m (List (String × Octets) × Bool) := do
  if files.isEmpty then return ([("", (← takeInput).toList)], true)
  else
    let mut contents := []
    let mut good := true
    for file in files do
      if file = "-" then contents := contents ++ [(file, (← takeInput).toList)]
      else
        match ← readFile file with
        | .ok content => contents := contents ++ [(file, content.toList)]
        | .error e =>
          reproach (fault file e)
          good := false
    return (contents, good)

/-- What cannot be read, in the usual words. -/
def unreadable (file : String) (e : FileError) : String :=
  (if file.isEmpty then "''" else file) ++ ": " ++ e.reason

def filtering (failure : Nat) (files : List String) (f : Octets → Octets) : Run m Nat := do
  let (contents, good) ← readFiles unreadable files
  write (f (contents.flatMap (·.2)))
  return if good then 0 else failure

/-- The part of an input that a count of lines or octets means. A minus sign turns the first lines into
all but the last ones, a plus sign the last lines into those from that one on. -/
def extent? (fromEnd : Bool) (count : String) : Option Extent :=
  match count.toList with
  | '-' :: digits =>
    (decimal? (String.ofList digits)).map fun n => if fromEnd then .last n else .allButLast n
  | '+' :: digits =>
    (decimal? (String.ofList digits)).map fun n => if fromEnd then .onward n else .first n
  | _ => (decimal? count).map fun n => if fromEnd then .last n else .first n

/-- An old way of giving a count, as an option of its own, in the usual way. -/
def countOption (arg : String) : List String :=
  match arg.toList with
  | '-' :: digits =>
    if (decimal? (String.ofList digits)).isSome then ["-n", String.ofList digits] else [arg]
  | _ => [arg]

def takeEnd (fromEnd : Bool) (args : List String) : Run m Nat :=
  let args := match args with
    | [] => []
    | first :: rest => countOption first ++ rest
  withOptions "qvfz" "nc" 1 args fun options files => do
    let octets? := optionValue? options 'c'
    let count := (octets?.or (optionValue? options 'n')).getD "10"
    match extent? fromEnd count with
    | none =>
      reproach ("invalid number of " ++ (if octets?.isSome then "bytes" else "lines") ++
        ": '" ++ count ++ "'")
      return 1
    | some extent =>
      let (contents, good) ← readFiles
        (fun file e => (if e = .isFolder then "error reading '" ++ file ++ "': "
          else "cannot open '" ++ file ++ "' for reading: ") ++ e.reason) files
      let headed : Bool := 1 < contents.length
      let cut (bytes : Octets) : Octets :=
        if octets?.isSome then extent.cut bytes else (extent.cut (linesOf bytes)).flatten
      write (contents.zipIdx.flatMap fun p =>
        (if headed then octetsOf ((if p.2 = 0 then "" else "\n") ++ "==> " ++ p.1.1 ++ " <==\n")
          else []) ++ cut p.1.2)
      return if good then 0 else 1

/-- Writes files one after the other, or the input if there are none. -/
def concatenate (args : List String) : Run m Nat :=
  withOptions "uvetnbsAET" "" 1 args fun options files => do
    if hasOption options 'n' then filtering 1 files numbered
    else
      let mut status := 0
      for file in if files.isEmpty then ["-"] else files do
        match ← if file = "-" then Except.ok <$> takeInput else readFile file with
        | .ok content => emit 1 content
        | .error e =>
          reproach (unreadable file e)
          status := 1
      return status

def echoArguments (args : List String) : Run m Nat := do
  let isFlags (s : String) : Bool :=
    match s.toList with
    | '-' :: c :: more => (c :: more).all fun c => c == 'n' || c == 'e' || c == 'E'
    | _ => false
  let flags := (args.takeWhile isFlags).flatMap String.toList
  let text := " ".intercalate (args.dropWhile isFlags)
  let (octets, stopped) := if flags.contains 'e' then unescape text else (octetsOf text, false)
  write (octets ++ (if flags.contains 'n' || stopped then [] else [10]))
  return 0

def printArguments (args : List String) : Run m Nat := do
  match (if args.head? = some "--" then args.tail else args) with
  | [] =>
    reproachUse "missing operand"
    return 1
  | format :: args =>
    let (octets, faults) := formatted format args
    for f in faults do
      match f with
      | .notNumeric a => reproach ("'" ++ a ++ "': expected a numeric value")
      | .notWhollyNumeric a => reproach ("'" ++ a ++ "': value not completely converted")
      | .badDirective d => reproach ("" ++ d ++ ": invalid conversion specification")
    write octets
    return if faults.isEmpty then 0 else 1

/-- Counts lines, words, characters and octets. -/
def countAll (args : List String) : Run m Nat :=
  withOptions "clmwL" "" 1 args fun options files => do
    let (contents, good) ← readFiles unreadable files
    let wanted (c : Char) : Bool :=
      hasOption options c || (options.isEmpty && (c == 'l' || c == 'w' || c == 'c'))
    let counts (bytes : Octets) : List Nat :=
      (if wanted 'l' then [bytes.count 10] else []) ++
      (if wanted 'w' then [wordCount false bytes] else []) ++
      (if wanted 'm' then [characterCount bytes] else []) ++
      (if wanted 'c' then [bytes.length] else []) ++
      (if wanted 'L' then [longestLine bytes] else [])
    let total := contents.flatMap (·.2)
    let single : Bool := files.length ≤ 1 && (counts []).length = 1
    let width :=
      if single then 1 else if files.isEmpty then 7 else (natOctets total.length).length
    let line (name : String) (bytes : Octets) : Octets :=
      [32].intercalate ((counts bytes).map (inColumn width)) ++
        (if name.isEmpty then [] else 32 :: octetsOf name) ++ [10]
    write (contents.flatMap fun p => line p.1 p.2)
    if 1 < files.length then write (line "total" total)
    return if good then 0 else 1

/-- Replaces, removes and squeezes octets. -/
def translate (args : List String) : Run m Nat :=
  withOptions "cCdst" "" 1 args fun options sets => do
    let bytes := (← takeInput).toList
    let deletes := hasOption options 'd'
    let squeezes := hasOption options 's'
    let first (s : String) : Octets :=
      if hasOption options 'c' || hasOption options 'C' then complement (octetSet s)
      else octetSet s
    let lacking (s : String) : Run m Nat := do
      reproachUse ("missing operand" ++ s)
      return 1
    match sets with
    | [] => lacking ""
    | [a] =>
      if deletes then
        write (removed (first a) bytes)
        return 0
      else if squeezes then
        write (squeezed (first a) none bytes)
        return 0
      else
        lacking (" after '" ++ a ++
          "'\nTwo strings must be given when translating.")
    | _ :: _ :: c :: _ =>
      reproachUse ("extra operand '" ++ c ++ "'")
      return 1
    | [a, b] =>
      let onto := octetSet b
      if deletes then
        let left := removed (first a) bytes
        write (if squeezes then squeezed onto none left else left)
      else
        let text := translated (first a) onto bytes
        write (if squeezes then squeezed onto none text else text)
      return 0

/-- The number of the script in which a place is, and the place in it, where scripts are put together as
lines. -/
def scriptPlace : Nat → List Nat → Nat → Nat × Nat
  | n, length :: more, place =>
    if place ≤ length ∨ more.isEmpty then (n, place) else scriptPlace (n + 1) more (place - length - 1)
  | n, [], place => (n, place)

/-- Where a script is wrong, in words. A brace that is not closed has no place. -/
def scriptFault (scripts : List String) (e : EditObstacle) : String :=
  let lengths := scripts.map fun s => (octetsOf s).length
  let length := (scripts.flatMap octetsOf).length + (scripts.length - 1)
  let (number, place) := scriptPlace 1 lengths (length - e.left)
  let place := match e.fault with
    | .openBrace => 0
    | _ => place
  "-e expression #" ++ numberText number ++ ", char " ++ numberText place ++ ": " ++ e.fault.message

def editOption (arg : String) : String :=
  if arg = "--quiet" ∨ arg = "--silent" then "-n"
  else if arg = "--regexp-extended" then "-E"
  else if arg = "--null-data" ∨ arg = "--zero-terminated" then "-z"
  else if arg = "--separate" then "-s"
  else if arg = "--unbuffered" then "-u"
  else if arg = "--expression" then "-e"
  else
    let long := "--expression=".toList
    if arg.toList.take long.length = long then "-e" ++ String.ofList (arg.toList.drop long.length)
    else arg

def writeEdits (files : List (Octets × Octets)) : Run m Bool := do
  let mut good := true
  for (name, content) in files do
    let file := Text.decodeLossy ⟨name.toArray⟩
    let s ← get
    match s.device? file with
    | some c => emitTo c ⟨content.toArray⟩
    | none =>
      match ← performStep (.write (s.pathOf file) ⟨content.toArray⟩) with
      | .ok () => pure ()
      | .error e =>
        reproach ("couldn't open file " ++ unreadable file e)
        good := false
  return good

def editLines (args : List String) : Run m Nat :=
  withOptions "nErsuz" "el" 1 (args.map editOption) fun options operands => do
    let given := (options.filter fun o => o.1 == 'e').map (·.2)
    let (scripts, files) : List String × List String := match given, operands with
      | [], [] => ([], [])
      | [], script :: files => ([script], files)
      | scripts, files => (scripts, files)
    if scripts.isEmpty then
      complain "Usage: sed [OPTION]... \x7bscript-only-if-no-other-script\x7d [input-file]..."
      return 1
    let form : EditForm :=
      ⟨hasOption options 'E' || hasOption options 'r', if hasOption options 'z' then 0 else 10⟩
    match EditScript.ofText form (codesOf (octetsOf ("\n".intercalate scripts))) with
    | .error e =>
      reproach (scriptFault scripts e)
      return 1
    | .ok script =>
      match EditScript.lacking? script.commands with
      | some name =>
        reproach ("can't find label for jump to \x60" ++
          Text.decodeLossy ⟨(name.map octetOf).toArray⟩ ++ "'")
        return 4
      | none =>
        let (contents, good) ← readFiles (fun file e => "can't read " ++ file ++ ": " ++ e.reason) files
        let read ← script.filesRead.filterMapM fun name => do
          match ← readFile (Text.decodeLossy ⟨name.toArray⟩) with
          | .ok content => return some (name, content.toList)
          | .error _ => return none
        let width := ((optionValue? options 'l').bind decimal?).getD 70
        let name := octetsOf ((files.head?.filter fun f => !f.isEmpty).getD "-")
        let (text, toFiles, outcome) :=
          edited ⟨form.lineEnd, width, name, read⟩ (hasOption options 'n') script (contents.map (·.2))
        write text
        let written ← writeEdits toFiles
        match outcome with
        | .noSearch =>
          reproach "-e expression #1, char 0: no previous regular expression"
          return 1
        | .status n => return if !written then 4 else if n ≠ 0 then n else if good then 0 else 2

def copyInput (args : List String) : Run m Nat :=
  withOptions "aip" "" 1 args fun options files => do
    let content ← takeInput
    let mut status := 0
    for file in files do
      let s ← get
      let p := s.pathOf file
      match s.device? file with
      | some c => emitTo c content
      | none =>
        match ← performStep (if hasOption options 'a' then .append p content else .write p content) with
        | .ok () => pure ()
        | .error e =>
          reproach (unreadable file e)
          status := 1
    emit 1 content
    return status

def selectLines (args : List String) : Run m Nat :=
  withOptions "vicqnEFxosahHGl" "em" 2 args fun options operands => do
    let given := (options.filter fun o => o.1 == 'e').map (·.2)
    let (patterns, files) : List String × List String := match given, operands with
      | [], pattern :: files => ([pattern], files)
      | patterns, files => (patterns, files)
    if patterns.isEmpty then
      complain "Usage: grep [OPTION]... PATTERNS [FILE]...\nTry 'grep --help' for more information."
      return 2
    else
      let has := hasOption options
      let whole (r : Regex) : Regex :=
        if has 'x' then .sequence (.place .lineStart) (.sequence r (.place .lineEnd)) else r
      let read (s : String) : Except RegexFault Regex :=
        (if has 'F' then .ok (Regex.ofOctets (octetsOf s))
          else Regex.ofText (has 'E') (codesOf (octetsOf s))).map whole
      match patterns.mapM read with
      | .error f =>
        reproach f.message
        return 2
      | .ok expressions =>
        let (contents, good) ← readFiles unreadable files
        let isChosen (body : Octets) : Bool :=
          (expressions.any fun r => r.isFound ⟨has 'i', none⟩ body) != has 'v'
        let mut any := false
        for (name, bytes) in contents do
          let chosen := ((linesOf bytes).zipIdx 1).filter fun p => isChosen (bodyOf p.1)
          let label : Octets :=
            if 1 < contents.length && !has 'h' then octetsOf (name ++ ":") else []
          if !chosen.isEmpty then any := true
          if has 'q' then pure ()
          else if has 'c' then write (label ++ natOctets chosen.length ++ [10])
          else if has 'l' then
            if !chosen.isEmpty then write (octetsOf (name ++ "\n"))
          else
            write (chosen.flatMap fun p =>
              label ++ (if has 'n' then natOctets p.2 ++ [58] else []) ++ ended (bodyOf p.1))
        return if !good then 2 else if any then 0 else 1

def cutLines (args : List String) : Run m Nat :=
  withOptions "sn" "bcfd" 1 args fun options files => do
    let chosen? := (optionValue? options 'c').or (optionValue? options 'b')
    match chosen?.bind ranges?, (optionValue? options 'f').bind ranges? with
    | some ranges, _ => filtering 1 files (columns ranges)
    | none, some ranges =>
      let delimiter := (((optionValue? options 'd').map octetsOf).getD [9]).headD 9
      filtering 1 files (fields delimiter (hasOption options 's') ranges)
    | none, none =>
      reproachUse "you must specify a list of bytes, characters, or fields"
      return 1

def countUp (args : List String) : Run m Nat := do
  let numbers := args.map fun a => (takeInteger a.toList).1
  let write (first step last : Int) : Run m Nat := do
    let count : Nat :=
      if step = 0 then 0
      else if 0 < step then (if last < first then 0 else ((last - first) / step).toNat + 1)
      else if first < last then 0 else ((first - last) / -step).toNat + 1
    say (String.join ((List.range count).map fun (i : Nat) =>
      String.ofList (NumberLayout.integer (first + (i : Int) * step)) ++ "\n"))
    return 0
  match numbers with
  | [some last] => write 1 1 last
  | [some first, some last] => write first 1 last
  | [some first, some step, some last] => write first step last
  | [] =>
    reproachUse "missing operand"
    return 1
  | _ =>
    match (args.zip numbers).find? fun p => p.2.isNone with
    | some (arg, _) => reproachUse ("invalid floating point argument: '" ++ arg ++ "'")
    | none => reproachUse ("extra operand '" ++ args.getLastD "" ++ "'")
    return 1

/-- The name at the end of a path, without an ending. -/
def lastName (text : String) (ending : String) : String :=
  let parts := (Text.splitAt '/' text.toList).filter fun p => !p.isEmpty
  match parts.getLast? with
  | none => if text.isEmpty then "" else "/"
  | some name =>
    match Text.dropEnd? ending.toList name with
    | some stem => String.ofList (if stem.isEmpty then name else stem)
    | none => String.ofList name

def folderName (text : String) : String :=
  let backward := text.toList.reverse.dropWhile (· == '/')
  match (backward.dropWhile (· != '/')).dropWhile (· == '/') with
  | [] => if text.toList.head? = some '/' then "/" else "."
  | folder => String.ofList folder.reverse

def makeFolders (args : List String) : Run m Nat :=
  withOptions "pv" "m" 1 args fun options folders => do
    if folders.isEmpty then
      reproachUse "missing operand"
      return 1
    let mut status := 0
    for folder in folders do
      let p := (← get).pathOf folder
      let there ← readFile folder
      let above ← match p.parent? with
        | some parent => onHost (Storage.read parent)
        | none => pure (.error .isFolder)
      let fault? : Option FileError ← match there, above, hasOption options 'p' with
        | .error .isFolder, _, true => pure none
        | .error .isFolder, _, false => pure (some .alreadyThere)
        | .ok _, _, _ => pure (some .alreadyThere)
        | .error .notFound, .error .notFound, false => pure (some .notFound)
        | _, _, _ =>
          match ← performStep (.makeFolders p) with
          | .ok () => pure none
          | .error e => pure (some e)
      match fault? with
      | none => pure ()
      | some e =>
        reproach ("cannot create directory '" ++ folder ++ "': " ++ e.reason)
        status := 1
    return status

def removeFiles (args : List String) : Run m Nat :=
  withOptions "frRiv" "" 1 args fun options files => do
    if files.isEmpty && !hasOption options 'f' then
      reproachUse "missing operand"
      return 1
    let mut status := 0
    for file in files do
      match ← performStep (.remove ((← get).pathOf file)) with
      | .ok () => pure ()
      | .error e =>
        if !(e == .notFound && hasOption options 'f') then
          reproach ("cannot remove '" ++ file ++ "': " ++ e.reason)
          status := 1
    return status

/-- The path of a file that is put in the place of another, or into a folder. -/
def targetOf (source target : String) : Run m Path := do
  let p := (← get).pathOf target
  match ← onHost (Storage.read p) with
  | .error .isFolder => return p.child (lastName source "")
  | _ => return p

def transfer (moves : Bool) (args : List String) : Run m Nat :=
  withOptions "frRpavn" "" 1 args fun _ files => do
    match files with
    | [source, target] =>
      let origin := (← get).pathOf source
      let onto ← targetOf source target
      match ← onHost (Storage.read origin) with
      | .error e =>
        reproach ("cannot stat '" ++ source ++ "': " ++ e.reason)
        return 1
      | .ok content =>
        match ← performStep (if moves then .move origin onto else .write onto content) with
        | .ok () => return 0
        | .error e =>
          reproach ((if moves then "cannot move '" ++ source ++ "' to '" ++ target ++ "': "
            else "cannot create regular file '" ++ target ++ "': ") ++ e.reason)
          return 1
    | [] =>
      reproachUse "missing file operand"
      return 1
    | first :: _ =>
      reproachUse ("missing destination file operand after '" ++ first ++ "'")
      return 1

/-- Makes files where there are none. -/
def touchFiles (args : List String) : Run m Nat :=
  withOptions "acm" "" 1 args fun _ files => do
    if files.isEmpty then
      reproachUse "missing file operand"
      return 1
    let mut status := 0
    for file in files do
      match ← performStep (.append ((← get).pathOf file) .empty) with
      | .ok () => pure ()
      | .error .isFolder => pure ()
      | .error e =>
        reproach ("cannot touch '" ++ file ++ "': " ++ e.reason)
        status := 1
    return status

/-- Waits, which takes no time here. -/
def sleepFor (args : List String) : Run m Nat := do
  let isLength (s : String) : Bool := !s.isEmpty && s.toList.all fun c => Text.isDigit c || c == '.'
  match args, args.find? fun a => !isLength a with
  | [], _ =>
    reproachUse "missing operand"
    return 1
  | _, some a =>
    reproachUse ("invalid time interval '" ++ a ++ "'")
    return 1
  | _, none => return 0

def programNames : List String := [
  "basename", "cat", "cp", "cut", "dirname", "echo", "false", "grep", "head", "mkdir", "mv", "printf",
  "rev", "rm", "sed", "seq", "sleep", "sort", "tac", "tail", "tee", "touch", "tr", "true", "uniq", "wc"]

/-- The names of all programs: those run here, shells, and one that runs another. -/
def externalNames : List String := ["sh", "dash", "env"] ++ programNames

/-- The steps from the root that a path comes to, if it begins there. A step back undoes one. -/
def stepsFromRoot? (p : Path) : Option (List String) :=
  if p.rooted then
    some (p.steps.foldl (fun steps s => if s = ".." then steps.dropLast else steps ++ [s]) [])
  else none

/-- The program at the beginning of the steps from the root, and the steps after it. -/
def programAmong? (steps : List String) : Option (String × List String) :=
  let fromFolder : List String → Option (String × List String)
    | name :: rest => if externalNames.contains name then some (name, rest) else none
    | [] => none
  match steps with
  | "bin" :: rest => fromFolder rest
  | "usr" :: "bin" :: rest => fromFolder rest
  | _ => none

def programAt? (p : Path) : Option String :=
  match p.ending, (stepsFromRoot? p).bind programAmong? with
  | .step, some (name, []) => some name
  | _, _ => none

/-- The program at the path of a text, or why there is none that can be run. Files are never programs. -/
def programOfPath (text : String) : Run m (Except FileError String) := do
  let p := (← get).pathOf text
  match programAt? p with
  | some name => return .ok name
  | none =>
    if ((stepsFromRoot? p).bind programAmong?).isSome then return .error .notFolder
    else
      match ← onHost (Storage.read p) with
      | .ok _ => return .error .denied
      | .error .isFolder => return .error .denied
      | .error e => return .error e

def isMissing (e : FileError) : Bool := e == .notFound || e == .notFolder

/-- The program of a name in the first of some folders that has it, with the text of its path. Without one,
the answer is what was last in the way, but something that is there goes before what is missing. -/
def searchFor (name : String) : List String → FileError → Run m (Except FileError (String × String))
  | [], e => return .error e
  | folder :: rest, e => do
    let text := if folder.isEmpty then name else folder ++ "/" ++ name
    match ← programOfPath text with
    | .ok program => return .ok (program, text)
    | .error next => searchFor name rest (if isMissing e then next else e)

/-- The program that a text means, with the text of its path. A text without a slash is a name. -/
def findProgram (text : String) : Run m (Except FileError (String × String)) := do
  if text.toList.contains '/' then return (← programOfPath text).map fun name => (name, text)
  else searchFor text (← get).searchFolders .notFound

def runProgram (name : String) (args : List String) : Run m Nat :=
  match name with
  | "basename" =>
    match args with
    | [] => do
      reproachUse "missing operand"
      return 1
    | text :: rest => do
      say (lastName text (rest.headD "") ++ "\n")
      return 0
  | "cat" => concatenate args
  | "cp" => transfer false args
  | "cut" => cutLines args
  | "dirname" => do
    if args.isEmpty then
      reproachUse "missing operand"
      return 1
    for text in args do
      say (folderName text ++ "\n")
    return 0
  | "echo" => echoArguments args
  | "false" => return 1
  | "grep" => selectLines args
  | "head" => takeEnd false args
  | "mkdir" => makeFolders args
  | "mv" => transfer true args
  | "printf" => printArguments args
  | "rev" => filtering 1 args mirrored
  | "rm" => removeFiles args
  | "sed" => editLines args
  | "seq" => countUp args
  | "sleep" => sleepFor args
  | "sort" =>
    withOptions "rnufbds" "kto" 2 args fun options files => do
      let (contents, good) ← readFiles (fun file e =>
        (if e = .isFolder then "read failed: " else "cannot read: ") ++ unreadable file e) files
      if good then
        write (sorted (hasOption options 'r') (hasOption options 'n') (hasOption options 'u')
          (contents.flatMap (·.2)))
      return if good then 0 else 2
  | "tac" => filtering 1 args backwards
  | "tail" => takeEnd true args
  | "tee" => copyInput args
  | "touch" => touchFiles args
  | "tr" => translate args
  | "uniq" =>
    withOptions "cdui" "fsw" 1 args fun options files =>
      filtering 1 files
        (withoutRepeats (hasOption options 'c') (hasOption options 'd') (hasOption options 'u'))
  | "wc" => countAll args
  | _ => return 0

end CommandDeck.Shell
