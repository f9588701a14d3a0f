import CommandDeck.Manifest.Edit
import CommandDeck.Proofs.Manifest.Rules
import CommandDeck.Proofs.Registry.Isolation
import CommandDeck.Proofs.Terminal.Delay
import CommandDeck.Proofs.Terminal.Transcript

/-!
# Lines that run a published command

A line names a command by one word and gives its flags as further words. What may be published has names
and flags that are words, so the line that shows how a command is used runs this command, wherever its
name means it. No rule is about the form of an id. An id that is a word runs its command; one that is
blank or holds white space is never the target of a line, and its command is reached by its name or not
at all.
-/

namespace CommandDeck

theorem isBlank_of_isKebabChar {c : Char} (h : isKebabChar c = true) : isBlank c = false := by
  rw [isKebabChar_iff] at h
  have bounds : (97 ≤ c.toNat ∧ c.toNat ≤ 122) ∨ (48 ≤ c.toNat ∧ c.toNat ≤ 57) ∨ c.toNat = 45 := by
    rcases h with h | h | rfl
    · exact Or.inl h
    · exact Or.inr (Or.inl h)
    · exact Or.inr (Or.inr rfl)
  simp only [isBlank, Bool.or_eq_false_iff, Bool.and_eq_false_iff, decide_eq_false_iff_not,
    beq_eq_false_iff_ne]
  omega

theorem isWord_of_mem_kebabNames {s : String} (h : s.toList ∈ kebabNames) : Text.IsWord s :=
  ⟨h.1, fun c hc => isBlank_of_isKebabChar ((isKebabChar_iff c).mpr (h.2 c hc))⟩

theorem isWord_of_mem_flags {s : String} (h : s.toList ∈ flags) : Text.IsWord s := by
  have dash : isBlank '-' = false := by decide
  obtain ⟨body, ⟨_, letters⟩, chars⟩ := mem_flags.mp h
  have filled : ∀ c ∈ body, isBlank c = false := fun c hc =>
    isBlank_of_isKebabChar ((isKebabChar_iff c).mpr (letters c hc))
  rcases chars with chars | chars <;> simp only [Text.IsWord, chars, List.forall_mem_cons]
  · exact ⟨List.cons_ne_nil _ _, dash, filled⟩
  · exact ⟨List.cons_ne_nil _ _, dash, dash, filled⟩

namespace Command

/-- What stands for the arguments of a command where its use is shown. -/
def placeholders (c : Command) : List String := c.arguments.flatMap fun a => [a.cli, "<value>"]

/-- The flags without which a command is not run. -/
def requiredFlags (c : Command) : List String := c.requiredArguments.map (·.cli)

/-- A line that names a command by its id and gives the flags that are required. -/
def lineById (c : Command) : String := " ".intercalate (("nexus run " ++ c.id) :: c.requiredFlags)

theorem wordsOf_run (target : String) :
    Text.wordsOf ("nexus run " ++ target) = "nexus" :: "run" :: Text.wordsOf target := by
  have parts : "nexus run " = "nexus run" ++ " " := rfl
  have start : Text.wordsOf "nexus run" = ["nexus", "run"] := by decide
  rw [parts, Text.wordsOf_space, start]
  rfl

theorem wordsOf_usage {c : Command} (name : Text.IsWord c.name)
    (flags : ∀ a ∈ c.arguments, Text.IsWord a.cli) :
    Text.wordsOf c.usage = "nexus" :: "run" :: c.name :: c.placeholders := by
  have value : Text.wordsOf "<value>" = ["<value>"] := by decide
  have parts : c.arguments.flatMap (fun a => Text.wordsOf (a.cli ++ " <value>")) =
      c.placeholders := by
    refine List.flatMap_congr fun a ha => ?_
    have split : a.cli ++ " <value>" = a.cli ++ " " ++ "<value>" := by
      rw [String.append_assoc]
      rfl
    rw [split, Text.wordsOf_space, (Text.wordsOf_eq_self_iff a.cli).mpr (flags a ha), value]
    rfl
  rw [usage, Text.wordsOf_intercalate, List.flatMap_cons, wordsOf_run,
    (Text.wordsOf_eq_self_iff c.name).mpr name, List.flatMap_map, parts]
  rfl

theorem wordsOf_lineById {c : Command} (flags : ∀ a ∈ c.arguments, Text.IsWord a.cli) :
    Text.wordsOf c.lineById = "nexus" :: "run" :: (Text.wordsOf c.id ++ c.requiredFlags) := by
  have parts : c.requiredFlags.flatMap Text.wordsOf = c.requiredFlags.flatMap ([·]) := by
    refine List.flatMap_congr fun flag hflag => ?_
    obtain ⟨a, ha, rfl⟩ := List.mem_map.mp hflag
    exact (Text.wordsOf_eq_self_iff a.cli).mpr (flags a (List.mem_of_mem_filter ha))
  rw [lineById, Text.wordsOf_intercalate, List.flatMap_cons, wordsOf_run, parts,
    List.flatMap_singleton']
  rfl

/-- Nothing is missing where each required flag is a word that is given. -/
theorem missingFlags_eq_nil {c : Command} {words : List String}
    (given : ∀ a ∈ c.requiredArguments, a.cli ∈ words) : c.missingFlags words = [] := by
  rw [missingFlags, List.map_eq_nil_iff, List.filter_eq_nil_iff]
  intro a ha
  have found : isGiven a.cli words = true :=
    List.any_eq_true.mpr ⟨a.cli, given a ha, List.isPrefixOf_iff_prefix.mpr (List.prefix_refl _)⟩
  simp [found]

end Command

namespace Terminal

/-- The turn of a line that runs an invocation to its end: after the echo it shows the run, which holds
no error and ends with the success, and the session is as before. -/
structure Ran (o : TerminalOptions) (clock : Watch) (s : Session) (line : String)
    (inv : Invocation) (turn : Turn) : Prop where
  starts : Starts s line inv
  emissions : turn.emissions =
    .event .input (echo line) 0 :: (inv.run o.stages clock .start).emissions
  no_error : ∀ e ∈ turn.emissions, ∀ content, e.action ≠ .display ⟨.error, content⟩
  success : turn.emissions.getLast? =
    some (.event .success "[nexus] Command finished with exit code 0" turn.duration)
  session : turn.session = s

section

variable (o : TerminalOptions) (r : Registry) (clock : Watch) {s : Session} {line : String}

theorem Starts.ran {inv : Invocation} (h : Starts s line inv) :
    Ran o clock s line inv (interpret o r clock s line) := by
  rw [interpret_of_starts o r clock h]
  refine ⟨h, by rw [inv.run_eq]; rfl, ?_, rfl, rfl⟩
  intro e he content error
  rcases List.mem_cons.mp he with rfl | he
  · cases error
  · obtain ⟨event, display, _, plain⟩ := inv.emissionsFrom_plain o.stages clock 0 e he
    rw [error] at display
    cases display
    exact plain rfl

theorem starts_of_words (entered : s.state.isLoggedIn = true) {target : String}
    {given : List String} (words : Text.wordsOf line = "nexus" :: "run" :: target :: given)
    {m : Manifest} {c : Command} (resolved : resolve? s.cache target = some ⟨m, c⟩)
    (complete : c.missingFlags given = []) : Starts s line ⟨m.namespaceName, c, given⟩ :=
  ⟨entered, _, words, ⟨target, m, rfl, resolved, rfl⟩, complete⟩

end

section

variable {r : Registry} {s : Session} {m : Manifest} {c : Command}

/-- The target of a line that runs something is a word. -/
theorem Starts.isWord_target {line : String} {inv : Invocation} (h : Starts s line inv) :
    ∃ target k, Text.IsWord target ∧ resolve? s.cache target = some ⟨k, inv.command⟩ ∧
      k.namespaceName = inv.namespaceName := by
  obtain ⟨words, split, ⟨target, k, rfl, resolved, named⟩, _⟩ := h.invokes
  have mem : target ∈ Text.wordsOf line := by simp [split]
  exact ⟨target, k, Text.isWord_of_mem_wordsOf mem, resolved, named⟩

theorem starts_usage (h : r.Coherent) (entered : s.state.isLoggedIn = true)
    (filled : s.cache = r.manifests) (resolved : resolve? r.manifests c.name = some ⟨m, c⟩) :
    Starts s c.usage ⟨m.namespaceName, c, c.placeholders⟩ := by
  obtain ⟨hm, hc, _⟩ := mem_of_resolve? resolved
  obtain ⟨name, flags⟩ := Manifest.forms_of_validate (h.deployable m hm) hc
  have words := Command.wordsOf_usage (isWord_of_mem_kebabNames name) fun a ha =>
    isWord_of_mem_flags (flags a ha)
  refine starts_of_words entered words (filled ▸ resolved) (Command.missingFlags_eq_nil ?_)
  intro a ha
  exact List.mem_flatMap.mpr ⟨a, List.mem_of_mem_filter ha, List.mem_cons_self⟩

theorem starts_lineById (h : r.Coherent) (entered : s.state.isLoggedIn = true)
    (filled : s.cache = r.manifests) (hm : m ∈ r.manifests) (hc : c ∈ m.commands)
    (id : Text.IsWord c.id) :
    Starts s c.lineById ⟨m.namespaceName, c, c.requiredFlags⟩ := by
  obtain ⟨_, flags⟩ := Manifest.forms_of_validate (h.deployable m hm) hc
  have words := Command.wordsOf_lineById fun a ha => isWord_of_mem_flags (flags a ha)
  rw [(Text.wordsOf_eq_self_iff c.id).mpr id] at words
  have resolved : resolve? s.cache c.id = some ⟨m, c⟩ := by
    rw [filled]
    exact h.lookup?_id hm hc
  exact starts_of_words entered words resolved
    (Command.missingFlags_eq_nil fun a ha => List.mem_map_of_mem ha)

/-- Some line runs a published command exactly when its id is a word or its name means it. -/
theorem exists_starts_iff (h : r.Coherent) (entered : s.state.isLoggedIn = true)
    (filled : s.cache = r.manifests) (hm : m ∈ r.manifests) (hc : c ∈ m.commands) :
    (∃ line given, Starts s line ⟨m.namespaceName, c, given⟩) ↔
      Text.IsWord c.id ∨ resolve? r.manifests c.name = some ⟨m, c⟩ := by
  constructor
  · rintro ⟨line, given, starts⟩
    obtain ⟨target, k, word, resolved, named⟩ := starts.isWord_target
    rw [filled] at resolved
    obtain ⟨hk, _, rfl | rfl⟩ := mem_of_resolve? resolved
    · exact Or.inl word
    · obtain rfl : k = m := List.inj_on_of_nodup_map h.namespaces_nodup hk hm named
      exact Or.inr resolved
  · rintro (id | resolved)
    · exact ⟨_, _, starts_lineById h entered filled hm hc id⟩
    · exact ⟨_, _, starts_usage h entered filled resolved⟩

end

/-- A command with a required flag and another one, under the given id. -/
def fetch (id : String) : Command where
  name := "fetch"
  id := id
  description := ""
  sourceFile := ""
  sourceRange? := none
  language := "go"
  entrypoint := ""
  runtime := "go:1"
  arguments := [
    { Argument.fresh with name := "out", cli := "--out", required := true },
    { Argument.fresh with name := "all", cli := "-a" }]
  returns := "text"
  isAsync := false
  confidence := Binary64.one
  examples := []

/-- The manifest that publishes this command. -/
def fetchers (id : String) : Manifest :=
  { Manifest.scaffold "0" with namespaceName := "ops", commands := [fetch id] }

theorem reachable_after_fetchers (id : String) :
    (Registry.empty.after ⟨"0", fetchers id⟩).Reachable :=
  ⟨_, [⟨"0", fetchers id⟩], .empty, rfl⟩

/-- After a synchronisation, the line that names a published command by its id runs it if the id is a
word. A command whose id is no word is run by no line at all, unless its name means it. -/
theorem words_as_ids_run {r : Registry} (reachable : r.Reachable) {s : Session}
    (entered : s.state.isLoggedIn = true) {line : String} {more : List String}
    (sync : Text.wordsOf line = "nexus" :: "sync" :: more) (o : TerminalOptions)
    (clock : Watch) :
    let synced := (interpret o r clock s line).session
    ∀ m ∈ r.manifests, ∀ c ∈ m.commands,
      (Text.IsWord c.id → ∀ watch,
        Ran o watch synced c.lineById ⟨m.namespaceName, c, c.requiredArguments.map (·.cli)⟩
          (interpret o r watch synced c.lineById)) ∧
      ((∃ text given, Starts synced text ⟨m.namespaceName, c, given⟩) ↔
        Text.IsWord c.id ∨ resolve? r.manifests c.name = some ⟨m, c⟩) := by
  intro synced m hm c hc
  have filled : synced = ⟨.loggedIn true, r.manifests⟩ := interpret_of_sync o r clock entered sync
  rw [filled]
  constructor
  · intro id watch
    exact (starts_lineById reachable.coherent rfl rfl hm hc id).ran o r watch
  · exact exists_starts_iff reachable.coherent rfl rfl hm hc

/-- A command with the id `ops:fetch` runs by its id and its required flag. -/
theorem fetch_runs_by_id :
    let c := fetch "ops:fetch"
    let r := Registry.empty.after ⟨"0", fetchers "ops:fetch"⟩
    let o : TerminalOptions := ⟨"me", 800, ⟨400, 400, 600⟩⟩
    let s : Session := ⟨.loggedIn false, []⟩
    let synced := (interpret o r (.showing "noon") s "nexus sync").session
    r.Reachable ∧ s.state.isLoggedIn = true ∧ Text.wordsOf "nexus sync" = ["nexus", "sync"] ∧
    fetchers "ops:fetch" ∈ r.manifests ∧ c.lineById = "nexus run ops:fetch --out" ∧
    Ran o (.showing "later") synced c.lineById ⟨"ops", c, ["--out"]⟩
      (interpret o r (.showing "later") synced c.lineById) := by
  intro c r o s synced
  have reachable : r.Reachable := reachable_after_fetchers _
  have entered : s.state.isLoggedIn = true := rfl
  have words : Text.wordsOf "nexus sync" = "nexus" :: "sync" :: [] := by decide
  have published : fetchers "ops:fetch" ∈ r.manifests := by
    rw [Registry.manifests_after_empty (by decide)]
    exact List.mem_singleton_self _
  have id : Text.IsWord c.id := (Text.wordsOf_eq_self_iff c.id).mp (by decide)
  have runs := (words_as_ids_run reachable entered words o (.showing "noon") _ published c
    List.mem_cons_self).1 id (.showing "later")
  exact ⟨reachable, entered, words, published, by decide, runs⟩

/-- A command with white space in its id is published, and the line that names it by its id is refused. -/
theorem blank_in_id_is_not_found :
    let c := fetch "ops fetch"
    let r := Registry.empty.after ⟨"0", fetchers "ops fetch"⟩
    let o : TerminalOptions := ⟨"me", 0, .none⟩
    let synced := (interpret o r (.showing "noon") ⟨.loggedIn false, []⟩ "nexus sync").session
    r.Reachable ∧ fetchers "ops fetch" ∈ r.manifests ∧ c ∈ (fetchers "ops fetch").commands ∧
    c.lineById = "nexus run ops fetch --out" ∧
    (interpret o r (.showing "noon") synced c.lineById).emissions = [
      .event .input "nexus run ops fetch --out" 0,
      .event .error "Error: Command \"ops\" not found in local cache." 0] := by
  intro c r o synced
  have words : Text.wordsOf "nexus sync" = "nexus" :: "sync" :: [] := by decide
  have published : r.manifests = [fetchers "ops fetch"] :=
    Registry.manifests_after_empty (by decide)
  have filled : synced = ⟨.loggedIn true, [fetchers "ops fetch"]⟩ := by
    rw [← published]
    exact interpret_of_sync o r _ rfl words
  have line : c.lineById = "nexus run ops fetch --out" := by decide
  refine ⟨reachable_after_fetchers _, ?_, List.mem_cons_self, line, ?_⟩
  · rw [published]
    exact List.mem_singleton_self _
  · rw [filled, line]
    rfl

end Terminal

end CommandDeck
