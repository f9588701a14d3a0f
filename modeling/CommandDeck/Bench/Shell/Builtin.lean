import CommandDeck.Bench.Filter.Format
import CommandDeck.Bench.Shell.Condition
import CommandDeck.Bench.Shell.Expansion
import CommandDeck.Bench.Shell.Program
import CommandDeck.Bench.Shell.Reader

/-!
# Commands of the shell itself

These commands look at the state of the shell or change it, or are done by the shell to spare a program.
A fault in one of the special ones ends the shell. All others end with a status of two in that case.
-/

namespace CommandDeck.Shell

variable {m : Type → Type} [Monad m] [Storage m]

def specialNames : List String := [
  ".", ":", "break", "continue", "eval", "exec", "exit", "export", "local", "readonly", "return", "set",
  "shift", "times", "trap", "unset"]

def ordinaryNames : List String := [
  "[", "alias", "bg", "cd", "command", "echo", "false", "fg", "getopts", "hash", "jobs", "kill", "printf",
  "pwd", "read", "test", "true", "type", "ulimit", "umask", "unalias", "wait"]

def isOwnName (name : String) : Bool := specialNames.contains name || ordinaryNames.contains name

/-- The number in an argument, which is not below zero. -/
def countOf (s : String) : Run m Nat :=
  match Condition.integer? s with
  | some i => if 0 ≤ i ∧ i < 2147483648 then pure i.toNat else fault ("Illegal number: " ++ s)
  | none => fault ("Illegal number: " ++ s)

/-- The letters of the options at the beginning of arguments, with their values, and the other arguments. -/
def takeOptions (plain valued : String) : List String → Run m (List (Char × String) × List String)
  | [] => return ([], [])
  | arg :: rest => do
    match arg.toList with
    | ['-', '-'] => return ([], rest)
    | '-' :: c :: more =>
      let letters := c :: more
      let flags := letters.takeWhile plain.toList.contains
      let given := flags.map fun c => (c, "")
      match letters.drop flags.length with
      | [] =>
        let (options, operands) ← takeOptions plain valued rest
        return (given ++ options, operands)
      | v :: value =>
        if !valued.toList.contains v then fault ("Illegal option -" ++ String.singleton v)
        else if value ≠ [] then
          let (options, operands) ← takeOptions plain valued rest
          return (given ++ (v, String.ofList value) :: options, operands)
        else
          match rest with
          | [] => fault ("No arg for -" ++ String.singleton v ++ " option")
          | text :: rest =>
            let (options, operands) ← takeOptions plain valued rest
            return (given ++ (v, text) :: options, operands)
    | _ => return ([], arg :: rest)

def assignmentOf (arg : String) : String × Option String :=
  let name := arg.toList.takeWhile (· != '=')
  match arg.toList.drop name.length with
  | _ :: value => (String.ofList name, some (String.ofList value))
  | [] => (String.ofList name, none)

/-- A text in single quotes, of which those inside are put in double quotes. -/
def inQuotes (s : String) : String :=
  "'" ++ String.join (s.toList.map fun c => if c = '\'' then "'\"'\"'" else String.singleton c) ++ "'"

/-- Gives names values and marks them. Without arguments the names that are marked are listed. -/
def markVariables (word : String) (isMarked : Variable → Bool) (mark : Variable → Variable)
    (args : List String) : Run m Nat := do
  let (options, names) ← takeOptions "p" "" args
  if names.isEmpty || !options.isEmpty then
    let marked := (← get).values.filter fun p => isMarked p.2
    for (name, v) in marked.mergeSort fun a b => a.1 ≤ b.1 do
      say (word ++ " " ++ name ++ (match v.value? with
        | some value => "=" ++ inQuotes value
        | none => "") ++ "\n")
  else
    for arg in names do
      let (name, value?) := assignmentOf arg
      if !isName name.toList then fault (name ++ ": bad variable name")
      match value? with
      | some value => assign name value
      | none => pure ()
      modify fun s => s.putVariable name (mark ((s.binding? name).getD ⟨none, false, false⟩))
  return 0

/-- Gives variables values that they lose at the end of the function. -/
def makeLocal (args : List String) : Run m Nat := do
  for arg in args do
    let (name, value?) := assignmentOf arg
    let s ← get
    match s.locals? with
    | none => fault "not in a function"
    | some known => set { s with locals? := some ((name, s.binding? name) :: known) }
    if !isName name.toList then fault (name ++ ": bad variable name")
    match value? with
    | some value => assign name value
    | none => pure ()
  return 0

def forget (args : List String) : Run m Nat := do
  let (options, names) ← takeOptions "fv" "" args
  for name in names do
    if options.any fun o => o.1 == 'f' then
      modify fun s => { s with functions := s.functions.filter fun p => p.1 != name }
    else
      let s ← get
      match s.binding? name with
      | some v => if v.locked then fault (name ++ ": is read only") else set (s.dropVariable name)
      | none =>
        if !isName name.toList then fault (name ++ ": bad variable name")
        set { s with functions := s.functions.filter fun p => p.1 != name }
  return 0

/-- Turns a switch, or tells that there is none of that letter. -/
def turn (on : Bool) (letter : Char) : Run m Unit := do
  match letter with
  | 'e' => modify fun s => { s with switches.stopsOnFailure := on }
  | 'u' => modify fun s => { s with switches.refusesUnset := on }
  | 'x' => modify fun s => { s with switches.traces := on }
  | 'n' => modify fun s => { s with switches.idles := on }
  | 'f' => modify fun s => { s with switches.keepsPatterns := on }
  | 'C' => modify fun s => { s with switches.keepsFiles := on }
  | 'a' => modify fun s => { s with switches.exportsAll := on }
  | c =>
    if "bEiImsvV".toList.contains c then pure ()
    else fault ("Illegal option -" ++ String.singleton c)

def switchLetter? (name : String) : Option Char :=
  [("errexit", 'e'), ("nounset", 'u'), ("xtrace", 'x'), ("noglob", 'f'), ("verbose", 'v'),
    ("noexec", 'n'), ("allexport", 'a'), ("noclobber", 'C'), ("monitor", 'm'), ("notify", 'b'),
    ("ignoreeof", 'I'), ("interactive", 'i'), ("stdin", 's'), ("vi", 'V'), ("emacs", 'E')].lookup name

/-- Turns the switches that stand at the beginning of arguments. Answers the other arguments, unless there
are none and nothing has marked the end of the switches. The letters in `own` turn nothing and come in
the answer. -/
def turnSwitches (own : List Char) : List String → Run m (List Char × Option (List String))
  | [] => return ([], none)
  | arg :: rest => do
    match arg.toList with
    | ['-', '-'] => return ([], some rest)
    | ['-'] => return ([], some rest)
    | sign :: letters =>
      if sign = '-' ∨ sign = '+' then
        for c in letters do
          if !own.contains c && c ≠ 'o' then turn (sign == '-') c
        let found := letters.filter own.contains
        match letters.contains 'o', rest with
        | true, name :: rest =>
          match switchLetter? name with
          | some c => turn (sign == '-') c
          | none => fault ("Illegal option -o " ++ name)
          let (more, operands?) ← turnSwitches own rest
          return (found ++ more, operands?)
        | _, rest =>
          let (more, operands?) ← turnSwitches own rest
          return (found ++ more, operands?)
      else return ([], some (arg :: rest))
    | [] => return ([], some (arg :: rest))

def setTraps (args : List String) : Run m Nat := do
  let (_, args) ← takeOptions "" "" args
  let signal? (s : String) : Option Nat := if inCapitals s = "EXIT" then some 0 else signalOfText? s
  match args with
  | [] =>
    for (g, action) in (← get).traps.mergeSort fun a b => a.1 ≤ b.1 do
      say ("trap -- " ++ inQuotes action ++ " " ++ listedName g ++ "\n")
    return 0
  | first :: rest =>
    let (action?, names) : Option String × List String :=
      if rest.isEmpty ∨ (decimal? first).any (· < signalLimit) then (none, args)
      else (if first = "-" then none else some first, rest)
    for name in names do
      match signal? name with
      | none =>
        complain ("trap: " ++ name ++ ": bad trap")
        return 1
      | some g =>
        modify fun s => { s with traps :=
          (action?.toList.map fun action => (g, action)) ++ s.traps.filter fun p => p.1 != g }
    return 0

def receive (signal : Nat) : Run m Unit := do
  let s ← get
  match if signal = 0 ∨ signal = 9 ∨ signal = 19 then none else s.traps.lookup signal with
  | some action =>
    if action.isEmpty then pure () else set { s with pending := s.pending ++ [signal] }
  | none => if isHarmless signal then pure () else throw (.killed signal)

/-- Sends a signal. There is no process but the shell itself. -/
def sendSignal (args : List String) : Run m Nat := do
  let usage : Run m Nat := fault
    ("Usage: kill [-s sigspec | -signum | -sigspec] [pid | job]... or\nkill -l [exitstatus]")
  let send (signal : Nat) (targets : List String) : Run m Nat := do
    if targets.isEmpty then usage
    else
      let mut status := 0
      for target in targets do
        let self ← match target.toList with
          | '-' :: digits => do
            let n ← countOf (String.ofList digits)
            pure (n == processNumber)
          | '%' :: _ => fault ("No such job: " ++ target)
          | _ => do
            let n ← countOf target
            pure (n == processNumber || n == 0)
        if self then receive signal
        else
          warn "No such process\n"
          status := 1
      return status
  match args with
  | [] => usage
  | first :: rest =>
    match first.toList with
    | '-' :: name =>
      match signalOfText? (String.ofList name) with
      | some g => send g rest
      | none =>
        let (options, operands) ← takeOptions "l" "s" args
        if options.any fun o => o.1 == 'l' then
          match operands with
          | [] =>
            say ("0\n" ++ String.join ((List.range (signalLimit - 1)).map fun i =>
              listedName (i + 1) ++ "\n"))
            return 0
          | n :: _ =>
            let given ← countOf n
            let g := if 128 < given then given - 128 else given
            if 0 < g ∧ g < signalLimit then
              say (listedName g ++ "\n")
              return 0
            else fault ("invalid signal number or exit status: " ++ n)
        else
          match options.getLast? with
          | some (_, name) =>
            match signalOfText? name with
            | some g => send g operands
            | none => fault ("invalid signal number or name: " ++ name)
          | none => send 15 operands
    | _ => send 15 args

/-- The field at the beginning of pieces, and what is after it and its end. -/
def takeField (separators : List Char) (ps : List Piece) : List Char × List Piece :=
  let divides : Piece → Bool
    | .given c => separators.contains c
    | _ => false
  let isBlank : Piece → Bool
    | .given c => separators.contains c && (c == ' ' || c == '\t' || c == '\n')
    | _ => false
  let ps := ps.dropWhile isBlank
  let field := ps.takeWhile fun p => !divides p
  let rest := (ps.drop field.length).dropWhile isBlank
  let rest := match rest with
    | p :: more => if divides p then more.dropWhile isBlank else rest
    | [] => []
  (Piece.characters field, rest)

/-- A line divided among so many names. The last one gets all that is left. -/
def shares (separators : List Char) : Nat → List Piece → List (List Char)
  | 0, _ => []
  | 1, ps =>
    let isBlank : Piece → Bool
      | .given c => separators.contains c && (c == ' ' || c == '\t' || c == '\n')
      | _ => false
    let whole := ((ps.dropWhile isBlank).reverse.dropWhile isBlank).reverse
    match takeField separators whole with
    | (field, []) => [field]
    | _ => [Piece.characters whole]
  | n + 1, ps =>
    let (field, rest) := takeField separators ps
    field :: shares separators n rest

/-- The pieces of a line, and whether a backslash joins it to the next one. A backslash protects the
character after it, unless `raw` holds. -/
def linePieces (raw : Bool) : List Char → List Piece × Bool
  | [] => ([], false)
  | ['\\'] => if raw then ([.given '\\'], false) else ([], true)
  | c :: d :: rest =>
    if c = '\\' ∧ raw = false then
      let (more, joined) := linePieces raw rest
      (.quoted d :: more, joined)
    else
      let (more, joined) := linePieces raw (d :: rest)
      (.given c :: more, joined)
  | [c] => ([.given c], false)

/-- Takes a line with the lines joined to it, and tells whether it has an end. The number bounds the
lines. -/
def takeJoined (raw : Bool) : Nat → Run m (List Piece × Bool)
  | 0 => return ([], false)
  | fuel + 1 => do
    let (bytes, isEnded) ← takeLine
    let (pieces, joined) := linePieces raw (Text.decodeLossy bytes).toList
    if joined && isEnded then
      let (more, isEnded) ← takeJoined raw fuel
      return (pieces ++ more, isEnded)
    else return (pieces, isEnded)

def readVariables (args : List String) : Run m Nat := do
  let (options, names) ← takeOptions "r" "p" args
  if names.isEmpty then fault "arg count"
  let (pieces, isEnded) ← takeJoined (options.any fun o => o.1 == 'r') 1000
  let fields := shares (← get).separators names.length pieces
  for (name, field) in names.zip fields do
    if !isName name.toList then fault (name ++ ": bad variable name")
    assign name (String.ofList field)
  return if isEnded then 0 else 1

def changeFolder (args : List String) : Run m Nat := do
  let (_, operands) ← takeOptions "LP" "" args
  let s ← get
  let target := match operands with
    | [] => (s.value? "HOME").getD ""
    | text :: _ => if text = "-" then (s.value? "OLDPWD").getD "" else text
  if target.isEmpty then return 0
  else if ← isFolder target then
    let path := s.pathOf target
    let folder := match stepsFromRoot? path with
      | some steps => "/" ++ "/".intercalate steps
      | none => path.toText
    set { ((s.putVariable "OLDPWD" ⟨some s.folder, true, false⟩).putVariable
      "PWD" ⟨some folder, true, false⟩) with folder := folder }
    if operands = ["-"] then say (folder ++ "\n")
    return 0
  else fault ("can't cd to " ++ target)

/-- Writes the arguments, with marks after backslashes. -/
def speak (args : List String) : Run m Nat := do
  let silent := args.head? == some "-n"
  let (octets, stopped) := Filter.unescape (" ".intercalate (if silent then args.tail else args))
  write (octets ++ (if silent || stopped then [] else [10]))
  return 0

def speakIn (args : List String) : Run m Nat := do
  let (_, operands) ← takeOptions "" "" args
  match operands with
  | [] => fault "usage: printf format [arg ...]"
  | format :: args =>
    let (octets, faults) := Filter.formatted format args
    let mut status := 0
    for f in faults do
      match f with
      | .notNumeric a =>
        warn (a ++ ": expected numeric value")
        status := max status 1
      | .notWhollyNumeric a =>
        warn (a ++ ": not completely converted")
        status := max status 1
      | .badDirective d =>
        warn (if d = "%" then "missing format character" else d ++ ": invalid directive")
        status := 2
    write octets
    return status

/-- Finds out whether a condition holds. In brackets the last word closes them. -/
def testCondition (bracketed : Bool) (args : List String) : Run m Nat := do
  if bracketed && args.getLast? != some "]" then fault "missing ]"
  match Condition.ofWords (if bracketed then args.dropLast else args) with
  | .error e => fault e.message
  | .ok c =>
    match ← c.holds with
    | .ok true => return 0
    | .ok false => return 1
    | .error e => fault e.message

/-- What a name means to the shell, in words or as short as can be. -/
def describeName (long : Bool) (name : String) : Run m Nat := do
  let s ← get
  let tell (short words : String) : Run m Nat := do
    say (if long then name ++ " is " ++ words ++ "\n" else short ++ "\n")
    return 0
  if keywords.contains name then tell name "a shell keyword"
  else if specialNames.contains name then tell name "a special shell builtin"
  else if (s.functions.lookup name).isSome then tell name "a shell function"
  else if ordinaryNames.contains name then tell name "a shell builtin"
  else
    match ← findProgram name with
    | .ok (_, path) => tell path path
    | .error _ =>
      if long then say (name ++ ": not found\n")
      return 127

def awaitJobs (args : List String) : Run m Nat := do
  let s ← get
  let mut status := 0
  for arg in args do
    let n ← countOf arg
    status := (s.jobs.lookup n).getD 127
  return status

def skipLoops (halt : Nat → Halt) (args : List String) : Run m Nat := do
  let s ← get
  let count ← match args with
    | [] => pure 1
    | n :: _ => do
      let i ← countOf n
      if i = 0 then fault ("Illegal number: " ++ n) else pure i
  if s.loops = 0 then return 0 else throw (halt (min count s.loops))

/-- The status in the arguments of a command, or that of the command before it. -/
def statusOf (args : List String) : Run m Nat := do
  match args with
  | [] => return (← get).status
  | n :: _ => countOf n

def builtin? (name : String) (args : List String) : Option (Run m Nat) :=
  match name with
  | ":" => some (pure 0)
  | "true" => some (pure 0)
  | "false" => some (pure 1)
  | "break" => some (skipLoops .left args)
  | "continue" => some (skipLoops .resumed args)
  | "exit" => some do throw (.exit (← statusOf args))
  | "return" => some do throw (.returned (← statusOf args))
  | "export" => some (markVariables "export" (·.exported) (fun v => { v with exported := true }) args)
  | "readonly" => some (markVariables "readonly" (·.locked) (fun v => { v with locked := true }) args)
  | "local" => some (makeLocal args)
  | "unset" => some (forget args)
  | "set" => some do
    let (_, operands?) ← turnSwitches [] args
    match operands? with
    | some operands => modify fun s => { s with arguments := operands }
    | none => pure ()
    return 0
  | "shift" => some do
    let count ← match args with
      | [] => pure 1
      | n :: _ => countOf n
    let s ← get
    if s.arguments.length < count then fault "can't shift that many"
    else
      set { s with arguments := s.arguments.drop count }
      return 0
  | "times" => some do
    say "0m0.000000s 0m0.000000s\n0m0.000000s 0m0.000000s\n"
    return 0
  | "trap" => some (setTraps args)
  | "kill" => some (sendSignal args)
  | "read" => some (readVariables args)
  | "cd" => some (changeFolder args)
  | "pwd" => some do
    let _ ← takeOptions "LP" "" args
    say ((← get).folder ++ "\n")
    return 0
  | "echo" => some (speak args)
  | "printf" => some (speakIn args)
  | "test" => some (testCondition false args)
  | "[" => some (testCondition true args)
  | "type" => some do
    let mut status := 0
    for arg in args do
      let n ← describeName true arg
      if n ≠ 0 then status := n
    return status
  | "umask" => some do
    if args.isEmpty then say "0022\n"
    return 0
  | "ulimit" => some do
    say "unlimited\n"
    return 0
  | "wait" => some (awaitJobs args)
  | "hash" => some do
    let mut status := 0
    for arg in args do
      if !isOwnName arg then
        match ← findProgram arg with
        | .ok _ => pure ()
        | .error e =>
          warn (arg ++ ": " ++ if isMissing e then "not found" else e.reason)
          status := 1
    return status
  | "fg" => some (fault "No current job")
  | "bg" => some (fault "No current job")
  | "jobs" => some (pure 0)
  | "alias" => some (pure 0)
  | "unalias" => some (pure 0)
  | _ => none

end CommandDeck.Shell
