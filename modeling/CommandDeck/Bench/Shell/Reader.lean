import CommandDeck.Bench.Shell.Script
import CommandDeck.Text.Digit

/-!
# Reading scripts

A script is read one line of commands at a time, a line being as long as its commands. A word that comes
where a command may begin can be a keyword. All readers take a number that bounds how often they call
each other.
-/

namespace CommandDeck.Shell

inductive Token where
  | word (w : Word)
  | sign (s : String)
  | redirection (r : Redirection)
  | newline
  | finish

/-- Where the reading of a script stands: the text that is left, the number of its first line, how many
lines of documents have been taken out after that line, and a token that has been read ahead. -/
structure Cursor where
  rest : List Char
  line : Nat
  taken : Nat
  ahead? : Option Token

abbrev Reading := StateT Cursor (Except (Nat × ScriptFault))

/-- What the text between two ends belongs to. -/
inductive Region where
  | bare
  | quotes
  | braces (quoted : Bool)
  | document
  /-- A calculation, inside so many brackets of its own. -/
  | sum (depth : Nat)
  deriving DecidableEq

def Region.quoted : Region → Bool
  | bare => false
  | braces q => q
  | _ => true

def keywords : List String := [
  "!", "case", "do", "done", "elif", "else", "esac", "fi", "for", "if", "in", "then", "until", "while",
  "\x7b", "\x7d"]

def closingKeywords : List String :=
  ["do", "done", "elif", "else", "esac", "fi", "then", "\x7d"]

namespace Token

def literal? : Token → Option String
  | word [.text s false] => some (String.ofList s)
  | _ => none

def keyword? (t : Token) : Option String := t.literal?.filter keywords.contains

def isKeyword (t : Token) (s : String) : Bool := t.keyword? == some s

def isSign (t : Token) (s : String) : Bool :=
  match t with
  | sign u => u == s
  | _ => false

/-- What a token is called where it is not expected. -/
def title (t : Token) : String :=
  match t with
  | word _ =>
    match t.keyword? with
    | some s => "\"" ++ s ++ "\""
    | none => "word"
  | sign s => "\"" ++ s ++ "\""
  | redirection _ => "redirection"
  | newline => "newline"
  | finish => "end of file"

def closes (t : Token) : Bool :=
  match t with
  | sign s => s == ")" || s == ";;"
  | finish => true
  | _ => t.keyword?.any closingKeywords.contains

end Token

def isParameterSign (c : Char) : Bool :=
  c == '@' || c == '*' || c == '#' || c == '?' || c == '-' || c == '$' || c == '!'

def endsWord (c : Char) : Bool :=
  c == ' ' || c == '\t' || c == '\n' || c == ';' || c == '&' || c == '|' || c == '<' || c == '>' ||
    c == '(' || c == ')'

/-- A part put at the end of a word, together with the last part where both are texts of one kind. -/
def extend (w : Word) (part : WordPart) : Word :=
  match w.getLast?, part with
  | some (.text s q), .text t r =>
    if q = r then w.dropLast ++ [.text (s ++ t) q] else w ++ [part]
  | _, _ => w ++ [part]

namespace Reading

def fail {α : Type} (fault : ScriptFault) : Reading α := do throw ((← get).line, fault)

/-- The token is not one of those that may come. -/
def refuse {α : Type} (t : Token) (expected? : Option String) : Reading α :=
  fail (.unexpected t.title expected?)

def elsewhere {α : Type} (r : Reading α) (text : List Char) : Reading α := do
  match r.run ⟨text, (← get).line, 0, none⟩ with
  | .ok (a, _) => return a
  | .error e => throw e

def skip (n : Nat) : Reading Unit := modify fun c =>
  match ((c.rest.take n).filter (· == '\n')).length with
  | 0 => { c with rest := c.rest.drop n }
  | lines => { c with rest := c.rest.drop n, line := c.line + lines + c.taken, taken := 0 }

def takeUntil (stop : Char → Bool) : Reading (List Char) := do
  let s := (← get).rest.takeWhile fun c => !stop c
  skip s.length
  return s

def putBack (t : Token) : Reading Unit := modify fun c => { c with ahead? := some t }

/-- Passes over blanks, joined lines and a comment. -/
def skipBlanks : Nat → Reading Unit
  | 0 => pure ()
  | fuel + 1 => do
    match (← get).rest with
    | ' ' :: _ =>
      skip 1
      skipBlanks fuel
    | '\t' :: _ =>
      skip 1
      skipBlanks fuel
    | '\\' :: '\n' :: _ =>
      skip 2
      skipBlanks fuel
    | '#' :: _ =>
      let _ ← takeUntil (· == '\n')
    | _ => pure ()

def bracedName : Reading (List Char) := do
  match (← get).rest with
  | [] => fail .openBrace
  | c :: _ =>
    if isNameStart c then takeUntil fun d => !isNameChar d
    else if Text.isDigit c then takeUntil fun d => !Text.isDigit d
    else if isParameterSign c then
      skip 1
      return [c]
    else return []

/-- The text of a command between backquotes, where a backslash protects a few characters. -/
def backquoted (quoted : Bool) : Nat → List Char → Reading (List Char)
  | 0, _ => fail .openBackquote
  | fuel + 1, before => do
    match (← get).rest with
    | [] => fail .openBackquote
    | '\\' :: c :: _ =>
      skip 2
      if c = '\x60' ∨ c = '\\' ∨ c = '$' ∨ (quoted ∧ c = '"') then backquoted quoted fuel (c :: before)
      else backquoted quoted fuel (c :: '\\' :: before)
    | c :: _ =>
      skip 1
      if c = '\x60' then return before.reverse else backquoted quoted fuel (c :: before)

/-- The lines up to one that is `mark`, and the text after it. Tabs at the beginning of the lines are
taken away if `indented` holds. -/
def documentLines (indented : Bool) (mark : List Char) : Nat → List Char → List Char × List Char
  | 0, s => ([], s)
  | _, [] => ([], [])
  | fuel + 1, s =>
    let line := s.takeWhile (· != '\n')
    let rest := s.drop (line.length + 1)
    let line := if indented then line.dropWhile (· == '\t') else line
    if line = mark then ([], rest)
    else
      let (more, rest) := documentLines indented mark fuel rest
      (line ++ '\n' :: more, rest)

/-- Takes the text of a document out of the lines that follow the line at hand. -/
def takeDocument (indented : Bool) (mark : List Char) : Reading (List Char) := do
  let c ← get
  let line := c.rest.takeWhile (· != '\n')
  match c.rest.drop line.length with
  | [] => return []
  | _ :: after =>
    let (body, rest) := documentLines indented mark (after.length + 1) after
    let size := ((after.take (after.length - rest.length)).filter (· == '\n')).length
    set { c with rest := line ++ '\n' :: rest, taken := c.taken + size }
    return body

/-- The text of a word as it is written in a mark, and whether any of it is quoted. -/
def markOf (w : Word) : List Char × Bool :=
  (w.flatMap fun
    | .text s _ => s
    | _ => [],
  w.any fun
    | .text _ quoted => quoted
    | _ => false)

mutual

/-- The parts of a word up to the end of its region, after those that have been read. -/
def parts : Nat → Region → Word → Reading Word
  | 0, _, w => pure w
  | fuel + 1, region, w => do
    let quoted := region.quoted
    let literal (s : List Char) (n : Nat) : Reading Word := do
      skip n
      parts fuel region (extend w (.text s quoted))
    match (← get).rest with
    | [] =>
      match region with
      | .bare => return w
      | .document => return w
      | .quotes => fail .openQuote
      | .braces _ => fail .openBrace
      | .sum _ => fail .openSum
    | '\\' :: '\n' :: _ =>
      skip 2
      parts fuel region w
    | '\\' :: c :: _ =>
      let protects : Bool := match region with
        | .bare => true
        | .braces false => true
        | .braces true => c == '$' || c == '\x60' || c == '"' || c == '\\' || c == '\x7d'
        | .quotes => c == '$' || c == '\x60' || c == '"' || c == '\\'
        | _ => c == '$' || c == '\x60' || c == '\\'
      skip 2
      if protects then parts fuel region (extend w (.text [c] true))
      else parts fuel region (extend w (.text ['\\', c] quoted))
    | '$' :: _ =>
      skip 1
      let part ← dollar fuel quoted
      parts fuel region (extend w part)
    | c :: rest =>
      if c = '\x60' then
        skip 1
        let script ← backquoted quoted fuel []
        let body ← elsewhere (listOf fuel false) script
        parts fuel region (extend w (.output body quoted))
      else
        match region with
        | .bare =>
          if endsWord c then return w
          else if c = '\'' then
            skip 1
            singleQuoted fuel region w
          else if c = '"' then
            skip 1
            let inner ← parts fuel .quotes []
            let inner : Word := if inner.isEmpty then [.text [] true] else inner
            parts fuel region (inner.foldl extend w)
          else literal [c] 1
        | .quotes =>
          if c = '"' then
            skip 1
            return w
          else literal [c] 1
        | .braces q =>
          if c = '\x7d' then
            skip 1
            return w
          else if c = '\'' ∧ q = false then
            skip 1
            singleQuoted fuel region w
          else if c = '"' then
            skip 1
            let inner ← parts fuel .quotes []
            let inner : Word := if inner.isEmpty then [.text [] true] else inner
            parts fuel region (inner.foldl extend w)
          else literal [c] 1
        | .document => literal [c] 1
        | .sum depth =>
          if c = '(' then
            skip 1
            parts fuel (.sum (depth + 1)) (extend w (.text [c] quoted))
          else if c = ')' then
            if depth = 0 then
              match rest with
              | ')' :: _ =>
                skip 2
                return w
              | _ => fail .openSum
            else
              skip 1
              parts fuel (.sum (depth - 1)) (extend w (.text [c] quoted))
          else literal [c] 1

/-- A text between single quotes, and the parts after it. -/
def singleQuoted : Nat → Region → Word → Reading Word
  | 0, _, w => pure w
  | fuel + 1, region, w => do
    let s ← takeUntil (· == '\'')
    if (← get).rest.isEmpty then fail .openQuote
    else
      skip 1
      parts fuel region (extend w (.text s true))

def dollar : Nat → Bool → Reading WordPart
  | 0, quoted => pure (.text ['$'] quoted)
  | fuel + 1, quoted => do
    match (← get).rest with
    | '(' :: '(' :: _ =>
      skip 2
      return .result (← parts fuel (.sum 0) []) quoted
    | '(' :: _ =>
      skip 1
      let body ← listOf fuel false
      let t ← next fuel
      if t.isSign ")" then return .output body quoted else refuse t (some "\")\"")
    | '\x7b' :: _ =>
      skip 1
      braced fuel quoted
    | c :: _ =>
      if isNameStart c then
        return .parameter (String.ofList (← takeUntil fun d => !isNameChar d)) .plain quoted
      else if Text.isDigit c || isParameterSign c then
        skip 1
        return .parameter (String.singleton c) .plain quoted
      else return .text ['$'] quoted
    | [] => return .text ['$'] quoted

def braced : Nat → Bool → Reading WordPart
  | 0, quoted => pure (.text [] quoted)
  | fuel + 1, quoted => do
    let inside : Reading Word := parts fuel (.braces quoted) []
    match (← get).rest with
    | '#' :: c :: _ =>
      if c ≠ '\x7d' then
        skip 1
        let name ← bracedName
        let more ← inside
        return .parameter (String.ofList name) (if more.isEmpty ∧ name ≠ [] then .size else .bad) quoted
      else
        skip 2
        return .parameter "#" .plain quoted
    | _ =>
      let name ← bracedName
      let use (n : Nat) (f : Word → ParameterUse) : Reading WordPart := do
        skip n
        let w ← inside
        return .parameter (String.ofList name) (if name.isEmpty then .bad else f w) quoted
      match (← get).rest with
      | '\x7d' :: _ => use 0 fun _ => .plain
      | ':' :: '-' :: _ => use 2 (.orElse true)
      | ':' :: '=' :: _ => use 2 (.orAssign true)
      | ':' :: '?' :: _ => use 2 (.orFail true)
      | ':' :: '+' :: _ => use 2 (.ifGiven true)
      | '-' :: _ => use 1 (.orElse false)
      | '=' :: _ => use 1 (.orAssign false)
      | '?' :: _ => use 1 (.orFail false)
      | '+' :: _ => use 1 (.ifGiven false)
      | '#' :: '#' :: _ => use 2 (.withoutStart true)
      | '#' :: _ => use 1 (.withoutStart false)
      | '%' :: '%' :: _ => use 2 (.withoutEnd true)
      | '%' :: _ => use 1 (.withoutEnd false)
      | _ => use 0 fun _ => .bad

def next : Nat → Reading Token
  | 0 => pure .finish
  | fuel + 1 => do
    let c ← get
    match c.ahead? with
    | some t =>
      set { c with ahead? := none }
      return t
    | none =>
      skipBlanks fuel
      let sign (s : String) : Reading Token := do
        skip s.length
        return .sign s
      match (← get).rest with
      | [] => return .finish
      | '\n' :: _ =>
        skip 1
        return .newline
      | ';' :: ';' :: _ => sign ";;"
      | ';' :: _ => sign ";"
      | '&' :: '&' :: _ => sign "&&"
      | '&' :: _ => sign "&"
      | '|' :: '|' :: _ => sign "||"
      | '|' :: _ => sign "|"
      | '(' :: _ => sign "("
      | ')' :: _ => sign ")"
      | '<' :: _ => redirection fuel 0
      | '>' :: _ => redirection fuel 1
      | c :: d :: _ =>
        if Text.isDigit c ∧ (d = '<' ∨ d = '>') then
          skip 1
          redirection fuel (Text.digitValue c)
        else return .word (← parts fuel .bare [])
      | _ => return .word (← parts fuel .bare [])

/-- A redirection of a descriptor, from its sign on. -/
def redirection : Nat → Nat → Reading Token
  | 0, _ => pure .finish
  | fuel + 1, descriptor => do
    let onto (n : Nat) (make : Word → Redirection) : Reading Token := do
      skip n
      match ← next fuel with
      | .word w => return .redirection (make w)
      | t => refuse t none
    let document (n : Nat) (indented : Bool) : Reading Token := do
      skip n
      match ← next fuel with
      | .word w =>
        let (mark, quoted) := markOf w
        let text ← takeDocument indented mark
        if quoted then return .redirection (.document descriptor [.text text true])
        else
          let body ← elsewhere (parts fuel .document []) text
          return .redirection (.document descriptor body)
      | t => refuse t none
    match (← get).rest with
    | '<' :: '<' :: '-' :: _ => document 3 true
    | '<' :: '<' :: _ => document 2 false
    | '<' :: '&' :: _ => onto 2 (.copy descriptor)
    | '<' :: '>' :: _ => onto 2 (.file descriptor .reading)
    | '<' :: _ => onto 1 (.file descriptor .reading)
    | '>' :: '>' :: _ => onto 2 (.file descriptor .appending)
    | '>' :: '&' :: _ => onto 2 (.copy descriptor)
    | '>' :: '|' :: _ => onto 2 (.file descriptor .replacing)
    | _ => onto 1 (.file descriptor .writing)

def nextOnAnyLine : Nat → Reading Token
  | 0 => pure .finish
  | fuel + 1 => do
    match ← next fuel with
    | .newline => nextOnAnyLine fuel
    | t => return t

def expect : Nat → String → Reading Unit
  | 0, _ => pure ()
  | fuel + 1, s => do
    let t ← nextOnAnyLine fuel
    if t.isKeyword s then pure () else refuse t (some ("\"" ++ s ++ "\""))

/-- Commands up to a token that closes a list. There is at least one unless `mayBeEmpty` holds. -/
def listOf : Nat → Bool → Reading (List Command)
  | 0, _ => pure []
  | fuel + 1, mayBeEmpty => do
    let t ← nextOnAnyLine fuel
    putBack t
    match t with
    | .finish => return []
    | t =>
      if mayBeEmpty ∧ t.closes then return []
      else
        let c ← chain fuel
        match ← next fuel with
        | .sign "&" => return .background c :: (← listOf fuel true)
        | .sign ";" => return c :: (← listOf fuel true)
        | .newline => return c :: (← listOf fuel true)
        | t =>
          putBack t
          return [c]

/-- Pipelines of which each after the first depends on how the ones before it end. -/
def chain : Nat → Reading Command
  | 0 => pure (.group [] [])
  | fuel + 1 => do chained fuel (← piped fuel)

def chained : Nat → Command → Reading Command
  | 0, c => pure c
  | fuel + 1, c => do
    match ← next fuel with
    | .sign "&&" =>
      let t ← nextOnAnyLine fuel
      putBack t
      chained fuel (.both c (← piped fuel))
    | .sign "||" =>
      let t ← nextOnAnyLine fuel
      putBack t
      chained fuel (.either c (← piped fuel))
    | t =>
      putBack t
      return c

/-- A pipeline, which may be negated. -/
def piped : Nat → Reading Command
  | 0 => pure (.group [] [])
  | fuel + 1 => do
    let t ← next fuel
    if t.isKeyword "!" then
      let t ← next fuel
      if t.isKeyword "!" then refuse t none
      else
        putBack t
        return .negation (← piped fuel)
    else
      putBack t
      let first ← command fuel
      match ← morePiped fuel with
      | [] => return first
      | more => return .pipeline (first :: more)

def morePiped : Nat → Reading (List Command)
  | 0 => pure []
  | fuel + 1 => do
    match ← next fuel with
    | .sign "|" =>
      let t ← nextOnAnyLine fuel
      putBack t
      let c ← command fuel
      return c :: (← morePiped fuel)
    | t =>
      putBack t
      return []

/-- The redirections after a command of several words. -/
def redirections : Nat → Reading (List Redirection)
  | 0 => pure []
  | fuel + 1 => do
    match ← next fuel with
    | .redirection r => return r :: (← redirections fuel)
    | t =>
      putBack t
      return []

def command : Nat → Reading Command
  | 0 => pure (.group [] [])
  | fuel + 1 => do
    let t ← next fuel
    let line := (← get).line
    match t with
    | .sign "(" =>
      let body ← listOf fuel false
      let t ← nextOnAnyLine fuel
      if t.isSign ")" then return .subshell body (← redirections fuel)
      else refuse t (some "\")\"")
    | .redirection r => simple fuel line [] [] [r]
    | .word w =>
      match t.keyword? with
      | none => simpleFrom fuel line [] [] [] w
      | some "if" =>
        let (branches, otherwise) ← conditions fuel
        return .choice branches otherwise (← redirections fuel)
      | some "while" => loopOf fuel false
      | some "until" => loopOf fuel true
      | some "for" => eachOf fuel
      | some "case" =>
        match ← next fuel with
        | .word w =>
          expect fuel "in"
          let branches ← selectionBranches fuel
          return .selection w branches (← redirections fuel)
        | t => refuse t (some "word")
      | some "\x7b" =>
        let body ← listOf fuel false
        expect fuel "\x7d"
        return .group body (← redirections fuel)
      | some _ => refuse t none
    | t => refuse t none

def loopOf : Nat → Bool → Reading Command
  | 0, _ => pure (.group [] [])
  | fuel + 1, untilHolds => do
    let condition ← listOf fuel false
    expect fuel "do"
    let body ← listOf fuel false
    expect fuel "done"
    return .loop untilHolds condition body (← redirections fuel)

def eachOf : Nat → Reading Command
  | 0 => pure (.group [] [])
  | fuel + 1 => do
    let t ← next fuel
    match t.literal? with
    | none => fail .badLoopVariable
    | some name =>
      if !isName name.toList then fail .badLoopVariable
      else
        let t ← nextOnAnyLine fuel
        let words? ← if t.isKeyword "in" then some <$> loopWords fuel
          else do
            if !t.isSign ";" then putBack t
            pure none
        expect fuel "do"
        let body ← listOf fuel false
        expect fuel "done"
        return .each name words? body (← redirections fuel)

/-- The words of a loop up to the end of the line or a semicolon. -/
def loopWords : Nat → Reading (List Word)
  | 0 => pure []
  | fuel + 1 => do
    match ← next fuel with
    | .word w => return w :: (← loopWords fuel)
    | .newline => return []
    | .sign ";" => return []
    | t => refuse t none

/-- The conditions of a choice with what is done after each, and what is done otherwise. -/
def conditions : Nat → Reading (List (List Command × List Command) × List Command)
  | 0 => pure ([], [])
  | fuel + 1 => do
    let condition ← listOf fuel false
    expect fuel "then"
    let body ← listOf fuel false
    let t ← nextOnAnyLine fuel
    if t.isKeyword "elif" then
      let (branches, otherwise) ← conditions fuel
      return ((condition, body) :: branches, otherwise)
    else if t.isKeyword "else" then
      let otherwise ← listOf fuel false
      expect fuel "fi"
      return ([(condition, body)], otherwise)
    else if t.isKeyword "fi" then return ([(condition, body)], [])
    else refuse t (some "\"fi\"")

def selectionBranches : Nat → Reading (List (List Word × List Command))
  | 0 => pure []
  | fuel + 1 => do
    let t ← nextOnAnyLine fuel
    if t.isKeyword "esac" then return []
    else
      if !t.isSign "(" then putBack t
      let patterns ← branchPatterns fuel
      let body ← listOf fuel true
      let t ← nextOnAnyLine fuel
      if t.isKeyword "esac" then return [(patterns, body)]
      else if t.isSign ";;" then return (patterns, body) :: (← selectionBranches fuel)
      else refuse t (some "\";;\"")

/-- The patterns of a branch, with bars between them. -/
def branchPatterns : Nat → Reading (List Word)
  | 0 => pure []
  | fuel + 1 => do
    match ← next fuel with
    | .word w =>
      let t ← next fuel
      if t.isSign "|" then return w :: (← branchPatterns fuel)
      else if t.isSign ")" then return [w]
      else refuse t (some "\")\"")
    | t => refuse t (some "\")\"")

/-- A simple command of which one more word has been read. A word that gives a value to a name is an
assignment if no other word has come before it. -/
def simpleFrom : Nat → Nat → List (String × Word) → List Word → List Redirection → Word →
    Reading Command
  | 0, line, as, ws, rs, w => pure (.simple line as (ws ++ [w]) rs)
  | fuel + 1, line, as, ws, rs, w => do
    let asWord : Reading Command := simple fuel line as (ws ++ [w]) rs
    match w with
    | .text s false :: more =>
      let name := s.takeWhile (· != '=')
      match s.drop name.length with
      | '=' :: value =>
        if ws.isEmpty ∧ isName name then
          let rest : Word := if value.isEmpty then more else .text value false :: more
          simple fuel line (as ++ [(String.ofList name, rest)]) ws rs
        else asWord
      | _ => asWord
    | _ => asWord

/-- The rest of a simple command, or of the definition of a function. -/
def simple : Nat → Nat → List (String × Word) → List Word → List Redirection → Reading Command
  | 0, line, as, ws, rs => pure (.simple line as ws rs)
  | fuel + 1, line, as, ws, rs => do
    match ← next fuel with
    | .word w => simpleFrom fuel line as ws rs w
    | .redirection r => simple fuel line as ws (rs ++ [r])
    | .sign "(" =>
      match as, ws, rs with
      | [], [w], [] =>
        let t ← next fuel
        if t.isSign ")" then
          match (Token.word w).literal? with
          | some name =>
            if isName name.toList then
              let t ← nextOnAnyLine fuel
              putBack t
              return .definition name (← command fuel)
            else fail .badFunctionName
          | none => fail .badFunctionName
        else refuse t (some "\")\"")
      | _, _, _ => refuse (.sign "(") none
    | t =>
      putBack t
      return .simple line as ws rs

end

def lineOf : Nat → Reading (List Command)
  | 0 => pure []
  | fuel + 1 => do
    match ← next fuel with
    | .newline => return []
    | .finish => return []
    | t =>
      putBack t
      let c ← chain fuel
      match ← next fuel with
      | .sign "&" => return .background c :: (← lineOf fuel)
      | .sign ";" => return c :: (← lineOf fuel)
      | .newline => return [c]
      | .finish => return [c]
      | t => refuse t none

end Reading

/-- Reads the commands of the first line of a text that is not blank, unless there is none. Answers the
text after it too, with the number of its first line. -/
def readLine? (text : List Char) (line : Nat) :
    Except (Nat × ScriptFault) (Option (List Command × List Char × Nat)) :=
  if text.isEmpty then .ok none
  else
    match (Reading.lineOf (20 * text.length + 100)).run ⟨text, line, 0, none⟩ with
    | .error e => .error e
    | .ok (commands, c) => .ok (some (commands, c.rest, c.line))

end CommandDeck.Shell
