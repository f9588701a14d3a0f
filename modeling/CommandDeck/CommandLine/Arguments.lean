import CommandDeck.Text.Blank

/-!
# Arguments of a command

The arguments of a command are options and words. An option has a name after two dashes and may have a
letter after one; letters without values may stand together. The value of an option is joined to it or
is the next argument. After an argument of two dashes all that comes are words. A command with
subcommands leaves the arguments after the name of one to the subcommand.
-/

namespace CommandDeck.CommandLine

inductive OptionKind where
  /-- Given once at most and without a value. -/
  | flag
  /-- Given any number of times and without a value. -/
  | counter
  /-- Given once at most and with a value. -/
  | value
  /-- Given any number of times with a value each, which may begin with a dash if `dashes` says so. -/
  | values (dashes : Bool)
  deriving DecidableEq

structure OptionForm where
  name : String
  letter? : Option Char
  kind : OptionKind
  /-- The value is a path and must not be empty. -/
  isPath : Bool
  deriving DecidableEq

/-- What a command takes. -/
structure Form where
  options : List OptionForm
  /-- The greatest number of words, if there is one. -/
  limit? : Option Nat
  /-- The first word is a path and must not be empty. -/
  beginsWithPath : Bool
  subcommands : List String
  hasVersion : Bool

/-- Why arguments are not obeyed. -/
inductive Halt where
  | misuse
  | help
  | version
  deriving DecidableEq

/-- The options with their values, and the words, both in the order in which they are given. -/
structure Given where
  options : List (String × String)
  words : List String
  deriving DecidableEq

/-- The name of a subcommand and the arguments after it. -/
abbrev Rest := String × List String

namespace OptionForm

def takesValue (o : OptionForm) : Bool :=
  match o.kind with
  | .flag => false
  | .counter => false
  | .value => true
  | .values _ => true

def repeats (o : OptionForm) : Bool :=
  match o.kind with
  | .flag => false
  | .counter => true
  | .value => false
  | .values _ => true

def takesDashes (o : OptionForm) : Bool := o.kind == .values true

end OptionForm

namespace Given

def none : Given := ⟨[], []⟩

def count (g : Given) (name : String) : Nat := (g.options.filter fun o => o.1 == name).length

def has (g : Given) (name : String) : Bool := g.count name != 0

def values (g : Given) (name : String) : List String :=
  (g.options.filter fun o => o.1 == name).map (·.2)

def value? (g : Given) (name : String) : Option String := (g.values name).head?

def takeOption (g : Given) (o : OptionForm) (value : String) : Except Halt Given :=
  if !o.repeats && g.has o.name then .error .misuse
  else if o.isPath && value.isEmpty then .error .misuse
  else .ok { g with options := g.options ++ [(o.name, value)] }

def takeWord (g : Given) (form : Form) (word : String) : Except Halt Given :=
  if form.limit?.any fun limit => limit ≤ g.words.length then .error .misuse
  else if form.beginsWithPath && g.words.isEmpty && word.isEmpty then .error .misuse
  else .ok { g with words := g.words ++ [word] }

end Given

/-- An argument that is an option or the mark after which all are words. -/
def looksLikeOption (arg : String) : Bool :=
  match arg.toList with
  | '-' :: _ :: _ => true
  | _ => false

/-- Options given so far, and the option whose value must come next. -/
abbrev Progress := Given × Option OptionForm

def takeLetters (form : Form) (g : Given) : List Char → Except Halt Progress
  | [] => .ok (g, none)
  | c :: rest =>
    match form.options.find? fun o => o.letter? == some c with
    | some o =>
      if o.takesValue then
        match rest with
        | [] => .ok (g, some o)
        | '=' :: value => (g.takeOption o (String.ofList value)).map fun g => (g, none)
        | value => (g.takeOption o (String.ofList value)).map fun g => (g, none)
      else
        match g.takeOption o "" with
        | .error h => .error h
        | .ok g => takeLetters form g rest
    | none =>
      if c = 'h' then .error .help
      else if c = 'V' ∧ form.hasVersion then .error .version
      else .error .misuse

/-- Takes what follows two dashes: a name, or a name and a value joined by an equals sign. -/
def takeName (form : Form) (g : Given) (s : List Char) : Except Halt Progress :=
  let name := String.ofList (s.takeWhile fun c => c ≠ '=')
  let value? := match s.dropWhile fun c => c ≠ '=' with
    | [] => none
    | _ :: value => some (String.ofList value)
  match form.options.find? fun o => o.name == name, value? with
  | some o, some value =>
    if o.takesValue then (g.takeOption o value).map fun g => (g, none) else .error .misuse
  | some o, none =>
    if o.takesValue then .ok (g, some o) else (g.takeOption o "").map fun g => (g, none)
  | none, none =>
    if name = "help" then .error .help
    else if name = "version" ∧ form.hasVersion then .error .version
    else .error .misuse
  | none, some _ => .error .misuse

def takeOptionText (form : Form) (g : Given) (arg : String) : Except Halt Progress :=
  match arg.toList with
  | '-' :: '-' :: s => takeName form g s
  | '-' :: s => takeLetters form g s
  | _ => .error .misuse

/-- Takes arguments of which all are words. -/
def takeWords (form : Form) (g : Given) : List String → Except Halt Given
  | [] => .ok g
  | word :: rest =>
    match g.takeWord form word with
    | .error h => .error h
    | .ok g => takeWords form g rest

def takeArguments (form : Form) : Progress → List String → Except Halt (Given × Option Rest)
  | (g, none), [] => .ok (g, none)
  | (_, some _), [] => .error .misuse
  | (g, some o), arg :: rest =>
    if looksLikeOption arg && !o.takesDashes then .error .misuse
    else match g.takeOption o arg with
      | .error h => .error h
      | .ok g => takeArguments form (g, none) rest
  | (g, none), arg :: rest =>
    if form.subcommands.contains arg then .ok (g, some (arg, rest))
    else if arg = "--" then (takeWords form g rest).map fun g => (g, none)
    else if looksLikeOption arg then
      match takeOptionText form g arg with
      | .error h => .error h
      | .ok progress => takeArguments form progress rest
    else
      match g.takeWord form arg with
      | .error h => .error h
      | .ok g => takeArguments form (g, none) rest

end CommandDeck.CommandLine
