import CommandDeck.Bench.Shell.Builtin

/-!
# Running scripts

The commands of a script are run one after the other, those of a pipeline too: each is done before the
next one reads what it has written. A number bounds how long a script goes on and how deep its commands
stand in each other. A shell that comes to that bound is ended by a signal.
-/

namespace CommandDeck.Shell

variable {m : Type → Type} [Monad m] [Storage m]

/-- The signal that ends a shell without bounds. -/
def overrun {α : Type} : Run m α := throw (.killed 11)

def setStatus (status : Nat) : Run m Unit := modify fun s => { s with status := status }

def connect (descriptor : Nat) (channel? : Option Channel) : Run m Unit :=
  modify fun s => s.connect descriptor channel?

/-- Ends the shell after a command that has failed, where failing is not what it is run for. -/
def conclude (tested : Bool) : Run m Unit := do
  let s ← get
  if s.switches.stopsOnFailure && !tested && s.status ≠ 0 then throw (.exit s.status)

def openOutput (text : String) (step : Path → FileStep) : Run m (Except FileError Channel) := do
  let p := (← get).pathOf text
  return (← performStep (step p)).map fun _ => .file p

/-- Tells that a redirection does not name a descriptor, and how far the script has been read. -/
def refuseDescriptor : Run m Bool := do
  modify fun s => { s with line := s.reached }
  fault "Syntax error: Bad fd number"

/-- Makes a redirection, or tells why it cannot be made. -/
def redirect (output : List Command → Run m ByteArray) (r : Redirection) : Run m Bool := do
  let missing (e : FileError) (words : String) : String :=
    if e = .notFound ∨ e = .notFolder then words else e.reason
  match r with
  | .document d body =>
    let text ← expandText output body
    connect d (some (.stream (← newStream (Text.encode text))))
    return true
  | .copy d target =>
    let text ← expandText output target
    match text.toList with
    | ['-'] =>
      connect d none
      return true
    | [c] =>
      if !Text.isDigit c then refuseDescriptor
      else
        match (← get).channel? (Text.digitValue c) with
        | some channel =>
          connect d (some channel)
          return true
        | none =>
          warn (text ++ ": Bad file descriptor")
          return false
    | _ => refuseDescriptor
  | .file d mode target =>
    let text ← expandText output target
    match (← get).device? text with
    | some channel =>
      connect d (some channel)
      return true
    | none =>
      match mode with
      | .reading =>
        match ← readFile text with
        | .ok content =>
          connect d (some (.stream (← newStream content)))
          return true
        | .error .isFolder =>
          connect d (some .nothing)
          return true
        | .error e =>
          warn ("cannot open " ++ text ++ ": " ++ missing e "No such file")
          return false
      | mode =>
        let step (p : Path) : FileStep :=
          if mode = .appending then .append p .empty else .write p .empty
        let kept ← if mode = .writing && (← get).switches.keepsFiles then isThere text else pure false
        match ← if kept then pure (.error .alreadyThere) else openOutput text step with
        | .ok channel =>
          connect d (some channel)
          return true
        | .error e =>
          warn ("cannot create " ++ text ++ ": " ++ missing e "Directory nonexistent")
          return false

def redirectAll (output : List Command → Run m ByteArray) : List Redirection → Run m Bool
  | [] => return true
  | r :: rest => do
    if ← redirect output r then redirectAll output rest else return false

/-- Runs a round of a loop. Answers whether the loop goes on. -/
def inLoop (part : Run m Unit) : Run m Bool := fun s => do
  let (r, t) ← part { s with loops := s.loops + 1 }
  let t := { t with loops := s.loops }
  match r with
  | .ok () => return (.ok true, t)
  | .error (.left n) => return (if n ≤ 1 then .ok false else .error (.left (n - 1)), t)
  | .error (.resumed n) => return (if n ≤ 1 then .ok true else .error (.resumed (n - 1)), t)
  | .error e => return (.error e, t)

/-- Runs the body of a function with arguments and variables of its own. -/
def inFunction (args : List String) (body : Run m Unit) : Run m Nat := fun s => do
  let (r, t) ← body { s with arguments := args, loops := 0, locals? := some [] }
  let own := t.locals?.getD []
  let back := own.foldl (fun t p =>
    match p.2 with
    | some v => t.putVariable p.1 v
    | none => t.dropVariable p.1) t
  let back := { back with arguments := s.arguments, loops := s.loops, locals? := s.locals? }
  match r with
  | .ok () => return (.ok t.status, back)
  | .error (.returned status) => return (.ok status, back)
  | .error e => return (.error e, back)

/-- Runs a command of the shell itself. Only in a special one does a fault end the shell. -/
def guarded (special : Bool) (part : Run m Nat) : Run m Nat := fun s => do
  match ← part s with
  | (.error .failed, t) => return (if special then .error .failed else .ok 2, t)
  | r => return r

/-- Runs a program. A signal that ends it does not end the shell at hand, which tells of it. -/
def asProgram (part : Run m Nat) : Run m Nat := fun s => do
  match ← part s with
  | (.error (.killed g), t) =>
    let told : Run m Nat := do
      match obituary? g with
      | some words => complain words
      | none => pure ()
      return 128 + g
    told t
  | r => return r

def endOf (part : Run m Unit) : Run m Nat := fun s => do
  match ← part s with
  | (.ok (), t) => return (.ok t.status, t)
  | (.error (.exit status), t) => return (.ok status, t)
  | (.error (.returned status), t) => return (.ok status, t)
  | (.error .failed, t) => return (.ok 2, t)
  | (.error (.killed g), t) => return (.error (.killed g), t)
  | (.error _, t) => return (.ok t.status, t)

/-- The state at the beginning of a subshell: only signals that are ignored stay so. -/
def State.forSubshell (s : State) : State :=
  { s with traps := s.traps.filter fun p => p.1 ≠ 0 ∧ p.2 = "" }

/-- The letters of a shell's options, its script and the arguments of that. -/
structure Invocation where
  title : String
  /-- A script that is given as an argument, or the file that holds it. -/
  script? : Option String
  file? : Option String
  arguments : List String

/-- Reads the arguments of a shell, and turns its switches. -/
def readInvocation (name : String) (args : List String) : Run m Invocation := do
  let (letters, operands?) ← turnSwitches ['c', 's', 'l'] args
  match letters.contains 'c', operands?.getD [] with
  | true, [] => fault "-c requires an argument"
  | true, [script] => return ⟨name, some script, none, []⟩
  | true, script :: title :: arguments => return ⟨title, some script, none, arguments⟩
  | false, [] => return ⟨name, none, none, []⟩
  | false, file :: arguments =>
    if letters.contains 's' then return ⟨name, none, none, file :: arguments⟩
    else return ⟨file, none, some file, arguments⟩

def scriptOf (i : Invocation) : Run m String := do
  match i.script?, i.file? with
  | some script, _ => return script
  | none, none => return Text.decodeLossy (← takeInput)
  | none, some file =>
    match ← readFile file with
    | .ok content => return Text.decodeLossy content
    | .error .isFolder => return ""
    | .error e =>
      let reason := if e = .notFound ∨ e = .notFolder then "No such file" else e.reason
      fault ("cannot open " ++ file ++ ": " ++ reason)

mutual

/-- Runs the commands of a text. Where `tested` holds, failing is what it is run for. -/
def runText : Nat → Bool → List Char → Nat → Run m Unit
  | 0, _, _, _ => overrun
  | fuel + 1, tested, text, line => do
    match readLine? text line with
    | .error (n, f) =>
      modify fun s => { s with line := n }
      fault ("Syntax error: " ++ f.message)
    | .ok none => pure ()
    | .ok (some (commands, rest, next)) =>
      modify fun s => { s with reached := next }
      runEach fuel tested commands
      runText fuel tested rest next

def runEach : Nat → Bool → List Command → Run m Unit
  | 0, _, _ => overrun
  | _, _, [] => pure ()
  | fuel + 1, tested, c :: rest => do
    run fuel tested c
    attend fuel
    runEach fuel tested rest

def attend : Nat → Run m Unit
  | 0 => overrun
  | fuel + 1 => do
    let s ← get
    match s.pending with
    | [] => pure ()
    | g :: rest =>
      set { s with pending := rest }
      runText fuel false ((s.traps.lookup g).getD "").toList 1
      setStatus s.status
      attend fuel

/-- Runs a shell to its end, and then what is to be done at its end. -/
def finish : Nat → Run m Unit → Run m Nat
  | 0, _ => overrun
  | fuel + 1, part => do
    let status ← endOf part
    let s ← get
    match s.traps.lookup 0 with
    | none => return status
    | some action =>
      set { s with traps := s.traps.filter (fun p => p.1 ≠ 0), status := status }
      let last ← endOf do
        runText fuel false action.toList 1
        setStatus status
      return last

def runApart : Nat → Bool → (State → State) → Run m Bool → List Command → Run m Nat
  | 0, _, _, _, _ => overrun
  | fuel + 1, tested, change, opening, body =>
    inShell (fun s => (change s).forSubshell) do
      let status ← finish fuel do
        if ← opening then runEach fuel tested body else setStatus 2
      setStatus status

def outputOf : Nat → List Command → Run m ByteArray
  | 0, _ => overrun
  | fuel + 1, script => do
    let i ← newStream .empty
    let status ← runApart fuel false (fun s => s.connect 1 (some (.stream i))) (pure true) script
    modify fun s => { s with status := status, lastOutput? := some status }
    return (← get).stream i

def runRedirected : Nat → List Redirection → Run m Unit → Run m Unit
  | 0, _, _ => overrun
  | fuel + 1, rs, part => restoring do
    if ← redirectAll (outputOf fuel) rs then part else setStatus 2

def run : Nat → Bool → Command → Run m Unit
  | 0, _, _ => overrun
  | fuel + 1, tested, c => do
    if (← get).switches.idles then return
    match c with
    | .simple line assignments words rs => runSimple fuel tested line assignments words rs
    | .pipeline commands =>
      runPipeline fuel tested commands
      conclude tested
    | .negation c =>
      run fuel true c
      setStatus (if (← get).status = 0 then 1 else 0)
    | .both a b =>
      run fuel true a
      if (← get).status = 0 then run fuel tested b
    | .either a b =>
      run fuel true a
      if (← get).status ≠ 0 then run fuel tested b
    | .background c =>
      let status ← runApart fuel false (fun s => s.connect 0 (some .nothing)) (pure true) [c]
      let s ← get
      let job := processNumber + s.jobs.length + 1
      set { s.putVariable "!" ⟨some (numberText job), false, false⟩ with
        jobs := (job, status) :: s.jobs, status := 0 }
    | .group body rs =>
      if rs.isEmpty then runEach fuel tested body
      else runRedirected fuel rs (runEach fuel tested body)
    | .subshell body rs =>
      setStatus (← runApart fuel tested id (redirectAll (outputOf fuel) rs) body)
      conclude tested
    | .choice branches otherwise rs =>
      runRedirected fuel rs (runChoice fuel tested branches otherwise)
    | .loop untilHolds condition body rs =>
      runRedirected fuel rs (runLoop fuel tested untilHolds condition body 0)
    | .each name words? body rs =>
      runRedirected fuel rs do
        let values ← match words? with
          | some ws => expandWords (outputOf fuel) ws
          | none => pure (← get).arguments
        setStatus 0
        runForEach fuel tested name body values
    | .selection word branches rs =>
      runRedirected fuel rs do
        let value ← expandText (outputOf fuel) word
        runSelection fuel tested value.toList branches
    | .definition name body =>
      modify fun s => { s with
        functions := (name, body) :: s.functions.filter (fun p => p.1 != name)
        status := 0 }

/-- Runs commands, each with the output of the one before it as its input. -/
def runPipeline : Nat → Bool → List Command → Run m Unit
  | 0, _, _ => overrun
  | _, _, [] => pure ()
  | fuel + 1, tested, [c] => do setStatus (← runApart fuel tested id (pure true) [c])
  | fuel + 1, tested, c :: rest => do
    let i ← newStream .empty
    let _ ← runApart fuel tested (fun s => s.connect 1 (some (.stream i))) (pure true) [c]
    restoring do
      connect 0 (some (.stream i))
      runPipeline fuel tested rest

def runChoice : Nat → Bool → List (List Command × List Command) → List Command → Run m Unit
  | 0, _, _, _ => overrun
  | fuel + 1, tested, [], otherwise => do
    setStatus 0
    runEach fuel tested otherwise
  | fuel + 1, tested, (condition, body) :: rest, otherwise => do
    runEach fuel true condition
    if (← get).status = 0 then runEach fuel tested body
    else runChoice fuel tested rest otherwise

def runLoop : Nat → Bool → Bool → List Command → List Command → Nat → Run m Unit
  | 0, _, _, _, _, _ => overrun
  | fuel + 1, tested, untilHolds, condition, body, last => do
    if !(← inLoop (runEach fuel true condition)) then setStatus last
    else if ((← get).status == 0) == untilHolds then setStatus last
    else if ← inLoop (runEach fuel tested body) then
      runLoop fuel tested untilHolds condition body (← get).status

def runForEach : Nat → Bool → String → List Command → List String → Run m Unit
  | 0, _, _, _, _ => overrun
  | _, _, _, _, [] => pure ()
  | fuel + 1, tested, name, body, value :: rest => do
    assign name value
    if ← inLoop (runEach fuel tested body) then runForEach fuel tested name body rest

def runSelection : Nat → Bool → List Char → List (List Word × List Command) → Run m Unit
  | 0, _, _, _ => overrun
  | _, _, _, [] => setStatus 0
  | fuel + 1, tested, value, (patterns, body) :: rest => do
    if ← anyFits fuel value patterns then
      if body.isEmpty then setStatus 0 else runEach fuel tested body
    else runSelection fuel tested value rest

def anyFits : Nat → List Char → List Word → Run m Bool
  | 0, _, _ => overrun
  | _, _, [] => return false
  | fuel + 1, value, w :: rest => do
    let pattern := Piece.pattern (← piecesOf (outputOf fuel) w)
    if matchesAll pattern value then return true else anyFits fuel value rest

/-- The fields of the words of a command. What follows a name and an equals sign is not divided where the
command takes assignments. -/
def fieldsOfCommand : Nat → List Word → Run m (List String)
  | 0, _ => overrun
  | _, [] => return []
  | fuel + 1, w :: rest => do
    let isAssignment : Word → Bool
      | .text s false :: _ =>
        let name := s.takeWhile (· != '=')
        isName name && name.length < s.length
      | _ => false
    match ← expandWords (outputOf fuel) [w] with
    | [] => fieldsOfCommand fuel rest
    | name :: more =>
      let whole := ["export", "readonly", "local", "alias"].contains name
      let mut fields := name :: more
      for w in rest do
        if whole && isAssignment w then fields := fields ++ [← expandText (outputOf fuel) w]
        else fields := fields ++ (← expandWords (outputOf fuel) [w])
      return fields

def runSimple : Nat → Bool → Nat → List (String × Word) → List Word → List Redirection → Run m Unit
  | 0, _, _, _, _, _ => overrun
  | fuel + 1, tested, line, assignments, words, rs => do
    modify fun s => { s with line := line, lastOutput? := none }
    let fields ← fieldsOfCommand fuel words
    let errors? := (← get).channel? 2
    let valuesOf : Run m (List (String × String)) :=
      assignments.mapM fun p => return (p.1, ← expandText (outputOf fuel) p.2)
    let trace (values : List (String × String)) : Run m Unit := do
      let s ← get
      match s.switches.traces, errors? with
      | true, some channel =>
        let items := values.map (fun p => p.1 ++ "=" ++ p.2) ++ fields
        emitTo channel (Text.encode ((s.value? "PS4").getD "" ++ " ".intercalate items ++ "\n"))
      | _, _ => pure ()
    match fields with
    | [] =>
      runRedirected fuel rs do
        let values ← valuesOf
        for (name, value) in values do
          assign name value
        trace values
        setStatus ((← get).lastOutput?.getD 0)
    | ["exec"] =>
      if ← redirectAll (outputOf fuel) rs then
        trace []
        setStatus 0
      else throw .failed
    | name :: args =>
      let special := specialNames.contains name
      restoring do
        if !(← redirectAll (outputOf fuel) rs) then
          if special then throw .failed else setStatus 2
        else
          let part (mark : Variable → Variable) : Run m Unit := do
            let values ← valuesOf
            for (x, value) in values do
              assign x value
              modify fun s => s.putVariable x (mark ((s.binding? x).getD ⟨none, false, false⟩))
            trace values
            setStatus (← call fuel tested false name args)
          if special then part id
          else restoringVariables (assignments.map (·.1)) (part fun v => { v with exported := true })
    conclude tested

/-- Runs a function, a command of the shell or a program. Functions are left out where `bare` holds. -/
def call : Nat → Bool → Bool → String → List String → Run m Nat
  | 0, _, _, _, _ => overrun
  | fuel + 1, tested, bare, name, args => do
    let special := specialNames.contains name
    let functions := (← get).functions
    let function? := if special || bare then none else functions.lookup name
    match function?, name, args with
    | some body, _, _ => inFunction args (run fuel tested body)
    | none, "eval", args => do
      inName name (guarded (!bare) do
        setStatus 0
        runText fuel tested (" ".intercalate args).toList 1
        return (← get).status)
    | none, ".", [] => return 0
    | none, ".", file :: _ => guarded (!bare) do
      match ← inName name (readFile file) with
      | .ok content =>
        setStatus 0
        inName file (runText fuel false (Text.decodeLossy content).toList 1)
        return (← get).status
      | .error _ => inName name (fault (if file.toList.contains '/' then
          "cannot open " ++ file ++ ": No such file" else file ++ ": not found"))
    | none, "exec", program :: more => do
      let status ← inName name (callProgram fuel true program more)
      modify fun s => { s with traps := [] }
      throw (.exit status)
    | none, "command", args => guarded false do
      let (options, operands) ← inName name (takeOptions "pvV" "" args)
      match operands with
      | [] => return 0
      | target :: more =>
        match options.find? fun o => o.1 = 'v' ∨ o.1 = 'V' with
        | some o => describeName (o.1 == 'V') target
        | none => call fuel tested true target more
    | none, name, args =>
      match builtin? name args with
      | some action => inName name (guarded (special && !bare) action)
      | none => callProgram fuel false name args

/-- Runs a program, or tells why it cannot be run. It can take the place of the shell. -/
def callProgram : Nat → Bool → String → List String → Run m Nat
  | 0, _, _, _ => overrun
  | fuel + 1, replaces, text, args => do
    match ← findProgram text with
    | .ok (name, _) =>
      let program : Run m Nat := inName text (runProgramNamed fuel name text args)
      if replaces then program else asProgram program
    | .error e =>
      warn (text ++ ": " ++ if isMissing e then "not found" else e.reason)
      return if e = .denied ∧ (replaces ∨ text.toList.contains '/') then 126 else 127

def runProgramNamed : Nat → String → String → List String → Run m Nat
  | 0, _, _, _ => overrun
  | fuel + 1, name, text, args =>
    match name with
    | "env" => runWithVariables fuel args
    | "sh" => runShell fuel text args
    | "dash" => runShell fuel text args
    | _ => runProgram name args

/-- Runs a program with other variables, or tells the variables. -/
def runWithVariables : Nat → List String → Run m Nat
  | 0, _ => overrun
  | _, [] => do
    for (name, value) in (← get).exported do
      say (name ++ "=" ++ value ++ "\n")
    return 0
  | fuel + 1, arg :: rest => do
    match arg, rest, assignmentOf arg with
    | _, _, (name, some value) =>
      withVariables (fun s => s.putVariable name ⟨some value, true, false⟩) (runWithVariables fuel rest)
    | "-u", name :: rest, _ =>
      withVariables (fun s => s.dropVariable name) (runWithVariables fuel rest)
    | name, rest, _ =>
      if name = "-i" ∨ name = "-" then
        let bare (s : State) : State :=
          (s.dropVariable "PATH").putVariable "PATH" ⟨some "/bin:/usr/bin", false, false⟩
        withVariables (fun s => { bare s with values := (bare s).values.filter fun p => !p.2.exported })
          (runWithVariables fuel rest)
      else
        match ← findProgram name with
        | .ok (program, _) => inName name (runProgramNamed fuel program name rest)
        | .error e =>
          reproach ("'" ++ name ++ "': " ++ e.reason)
          return if e = .notFound then 127 else 126

def runShell : Nat → String → List String → Run m Nat
  | 0, _, _ => overrun
  | fuel + 1, name, args =>
    let change (s : State) : State :=
      { State.start name s.folder s.exported .empty with
        line := 0
        channels := s.channels
        streams := s.streams }
    inShell change do
      let status ← finish fuel do
        let i ← readInvocation name args
        let script ← scriptOf i
        modify fun s => { s with title := i.title, arguments := i.arguments, line := 1 }
        runText fuel false script.toList 1
      setStatus status

end

/-- A script does not go on longer than this. -/
def patience : Nat := 20000

/-- Runs a program, which has been called by a text, on an input and with the variables of its
surroundings. -/
def launch (name : String) (l : Launch) : m ProgramResult := do
  let program : Run m Nat := inName l.program (runProgramNamed patience name l.program l.arguments)
  let (r, s) ← program (.start l.program (← Storage.workingFolder) l.surroundings l.input)
  let ending : Ending := match r with
    | .ok status => .exit (status % 256)
    | .error (.killed g) => .signal g
    | .error _ => .exit 2
  return ⟨ending, s.stream 1, s.stream 2⟩

end CommandDeck.Shell
