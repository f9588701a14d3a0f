import CommandDeck.CommandLine.Commands
import CommandDeck.Proofs.Host.Workbench
import CommandDeck.Proofs.Manifest.Readable
import CommandDeck.Proofs.Storage.Move
import CommandDeck.Proofs.Storage.Path

/-!
# Manifests survive their file

A manifest that has been saved is what its file holds: what was written to the draft is what the move
puts in its place. When the file is loaded the manifest is read, unless its namespace is blank. Neither
writing a manifest by hand nor an analysis asks for a namespace that is not.
-/

namespace CommandDeck

namespace Manifest

/-- What is loaded where a manifest under this namespace has been saved: a manifest under it, unless the
namespace is blank. -/
def Loads (namespaceName : String) (answer : Except ManifestFileError Manifest) : Prop :=
  if Text.isBlankText namespaceName then answer = .error (.text .blankNamespace)
  else ∃ n, answer = .ok n ∧ n.namespaceName = namespaceName

theorem ofContent_of_reads {m n : Manifest} (read : Json.Reads 5 layout.read m.toJson n) :
    ofContent (.ok m.content) =
      if Text.isBlankText n.namespaceName then .error (.text .blankNamespace) else .ok n := by
  have blank : Json.Blank ['\n'] := by
    intro c mem
    rw [List.mem_singleton.mp mem]
    rfl
  have text : ofText (m.toText ++ "\n") = _ :=
    ofText_of_reads read blank (Json.ends_cons.mpr (by decide))
  simp only [ofContent, content, Text.decode?_encode, text]
  cases Text.isBlankText n.namespaceName with
  | false => rfl
  | true => rfl

/-- What has been saved of an integral manifest is read as an equal one. -/
theorem ofContent_content {m : Manifest} (named : Text.isBlankText m.namespaceName = false)
    (integral : m.IsIntegral) : ofContent (.ok m.content) = .ok m.plainZero :=
  (ofContent_of_reads (reads_toJson integral)).trans (if_neg (by rw [plainZero, named]; decide))

theorem loads_content (m : Manifest) : Loads m.namespaceName (ofContent (.ok m.content)) := by
  obtain ⟨n, read, same, -⟩ := m.exists_reads
  rw [ofContent_of_reads read, ← same, Loads]
  split
  · rfl
  · exact ⟨n, rfl, rfl⟩

/-! ### Saving -/

/-- The draft and the file are in one folder, so what has been written to the draft is what the file
holds after the move. -/
theorem read_moved {t drafted t' : FileTree} {p : Path} {content : ByteArray}
    (wrote : t.writeWith (draftPath p) (fun _ => content) = .ok drafted)
    (moved : drafted.move (draftPath p) p = .ok t') : t'.read p = .ok content := by
  obtain ⟨a, name, b, onto, -, names, names', -⟩ := FileTree.move_ok moved
  have named : ∀ {q : Path} {a : Address} {name : String}, drafted.placeOf q = (a, some name) →
      q.lastName?.isSome := fun place =>
    Option.isSome_of_eq_some (congrArg Prod.snd place)
  have beside := drafted.placeOf_withExtension "json.tmp" (by decide) (named names'.place)
    (named names.place)
  obtain ⟨found, draft, read⟩ := FileTree.read_move beside moved
  rw [read, FileTree.eq_of_read_writeWith wrote draft]

theorem replace_done {p : Path} {content : ByteArray} {w w' : Workbench}
    (done : onWorkbench (performAll [.write (draftPath p) content, .move (draftPath p) p]) w =
      (.ok (), w')) : w'.files.read p = .ok content := by
  simp only [Workbench.performAll_cons, FileTree.perform, FileTree.attempt] at done
  cases wrote : w.files.writeWith (draftPath p) fun _ => content with
  | error e =>
    rw [wrote] at done
    cases done
  | ok drafted =>
    simp only [wrote] at done
    cases moved : drafted.move (draftPath p) p with
    | error e =>
      rw [moved] at done
      cases done
    | ok files =>
      rw [moved] at done
      cases done
      exact read_moved wrote moved

theorem saveSteps_done {m : Manifest} {p : Path} {w w' : Workbench}
    (done : onWorkbench (performAll (m.saveSteps p)) w = (.ok (), w')) :
    w'.files.read p = .ok m.content := by
  obtain ⟨files, -, done⟩ := Workbench.makeFolders_done done
  exact replace_done done

theorem load_answer (p : Path) (w : Workbench) :
    (onWorkbench (load p) w).1 = ofContent (w.files.read p) := rfl

theorem save_onWorkbench (m : Manifest) (p : Path) (w : Workbench) :
    onWorkbench (m.save p) w =
      match onWorkbench (performAll (m.saveSteps p)) w with
      | (.ok (), w') => (.ok (), w')
      | (.error e, w') => (.error (.file e), w') := by
  rw [save, onWorkbench_bind]
  rcases onWorkbench (performAll (m.saveSteps p)) w with ⟨_ | _, w'⟩
  · rfl
  · rfl

/-! ### Commands -/

open CommandLine (putOut scaffoldManifest analyseFile sourceText)

/-- A manifest that has been put out is what the file holds, and only a note follows. -/
theorem putOut_done {j : Journal} {m : Manifest} {file : String} {message : String → String}
    {w w' : Workbench}
    (done : onWorkbench (putOut j m (some file) message) w = (.ok (), w')) :
    ∃ saved : Workbench, saved.files.read (Path.ofText file) = .ok m.content ∧
      w' = (onWorkbench (j.success (message file)) saved).2 := by
  rw [putOut, onWorkbench_bind, save_onWorkbench] at done
  rcases steps : onWorkbench (performAll (m.saveSteps (Path.ofText file))) w with ⟨_ | ⟨⟨⟩⟩, saved⟩
  · rw [steps] at done
    cases done
  · rw [steps] at done
    exact ⟨saved, saveSteps_done steps, (congrArg Prod.snd done).symm⟩

/-- The journal is another file than the one at `p`. -/
def Apart (j : Journal) (p : Path) (t : FileTree) : Prop := ∀ q ∈ j.file?, t.placeOf q ≠ t.placeOf p

theorem loads_putOut {j : Journal} {m : Manifest} {file : String} {message : String → String}
    {w w' : Workbench} (done : onWorkbench (putOut j m (some file) message) w = (.ok (), w'))
    (apart : Apart j (Path.ofText file) w'.files) :
    Loads m.namespaceName (onWorkbench (load (Path.ofText file)) w').1 := by
  obtain ⟨saved, read, noted⟩ := putOut_done done
  have grown := Workbench.success_extends (w := saved) j (message file)
  rw [← noted] at grown
  have elsewhere : ∀ q ∈ j.file?,
      saved.files.placeOf q ≠ saved.files.placeOf (Path.ofText file) := by
    intro q journal
    rw [← grown.placeOf, ← grown.placeOf]
    exact apart q journal
  have kept := Workbench.read_success (message file) elsewhere read
  rw [← noted] at kept
  rw [load_answer, kept]
  exact loads_content m

theorem loads_scaffold {j : Journal} {file : String} {namespaceName? : Option String}
    {w w' : Workbench}
    (done : onWorkbench (scaffoldManifest j (some file) namespaceName?) w = (.ok (), w'))
    (apart : Apart j (Path.ofText file) w'.files) :
    Loads (namespaceName?.getD "new-project") (onWorkbench (load (Path.ofText file)) w').1 := by
  rw [scaffoldManifest, onWorkbench_bind] at done
  exact loads_putOut done apart

/-- An analysis that ends well has run a program to its end, and the program has answered with a
manifest. -/
theorem analyse_done {surroundings : List (String × String)} {program : String}
    {arguments : List String} {text filename : String} {m : Manifest} {w : Workbench}
    (done : (onWorkbench (Analysis.analyse surroundings program arguments text filename) w).1 = .ok m) :
    let l : Launch :=
      ⟨program, arguments, surroundings, Text.encode (Analysis.request text filename)⟩
    ∃ result, (w.programs l w.files).1 = .ok result ∧ result.ending = .exit 0 ∧
      Analysis.readResponse (Text.decodeLossy result.output) = .ok m := by
  intro l
  unfold Analysis.analyse at done
  split at done
  · cases done
  · have answered : (Analysis.responseOf program (w.programs l w.files).1).bind
        Analysis.readResponse = .ok m := done
    cases ran : (w.programs l w.files).1 with
    | error e =>
      rw [ran] at answered
      cases e <;> cases answered
    | ok result =>
      rw [ran, Analysis.responseOf] at answered
      by_cases well : result.ending = .exit 0
      · rw [if_pos well] at answered
        exact ⟨result, rfl, well, answered⟩
      · rw [if_neg well] at answered
        cases answered

/-- An analysis that has been put out has read its source and got a manifest, which is loaded. -/
theorem loads_analysis {env : Environment} {j : Journal} {source program : String}
    {arguments : List String} {file : String} {w w' : Workbench}
    (done : onWorkbench (analyseFile env j source program arguments (some file)) w = (.ok (), w'))
    (apart : Apart j (Path.ofText file) w'.files) :
    ∃ text m, sourceText (w.files.read (Path.ofText source)) = .ok text ∧
      (onWorkbench (Analysis.analyse env.values program arguments text
        ((Path.ofText source).name?.getD source)) w).1 = .ok m ∧
      Loads m.namespaceName (onWorkbench (load (Path.ofText file)) w').1 := by
  rw [analyseFile, onWorkbench_bind] at done
  simp only at done
  split at done
  · cases done
  · rename_i text read
    rw [onWorkbench_bind] at done
    split at done
    · rw [onWorkbench_bind] at done
      cases done
    · rename_i m analysed
      refine ⟨text, m, read, analysed, ?_⟩
      rw [onWorkbench_bind, onWorkbench_bind] at done
      -- the listing of errors that the manifest may have comes before it is put out
      split at done
      · rw [onWorkbench_bind, onWorkbench_bind] at done
        exact loads_putOut done apart
      · exact loads_putOut done apart

/-- After a manifest written by hand has been saved, it is loaded from its file, unless its namespace is
blank. So is the manifest of an analysis, whichever program was run and whatever it has done to the files:
it has ended with success, and the manifest is what its response reads as. -/
theorem saved_manifests_load (j : Journal) (file : String) (w : Workbench) :
    (∀ namespaceName? w',
      onWorkbench (scaffoldManifest j (some file) namespaceName?) w = (.ok (), w') →
        Apart j (Path.ofText file) w'.files →
          Loads (namespaceName?.getD "new-project") (onWorkbench (load (Path.ofText file)) w').1) ∧
    ∀ env source program arguments w',
      onWorkbench (analyseFile env j source program arguments (some file)) w = (.ok (), w') →
        Apart j (Path.ofText file) w'.files →
          ∃ text result m, sourceText (w.files.read (Path.ofText source)) = .ok text ∧
            (w.programs ⟨program, arguments, env.values, Text.encode
              (Analysis.request text ((Path.ofText source).name?.getD source))⟩ w.files).1 =
                .ok result ∧
            result.ending = .exit 0 ∧
            Analysis.readResponse (Text.decodeLossy result.output) = .ok m ∧
            Loads m.namespaceName (onWorkbench (load (Path.ofText file)) w').1 := by
  constructor
  · intro namespaceName? w' done apart
    exact loads_scaffold done apart
  · intro env source program arguments w' done apart
    obtain ⟨text, m, read, analysed, loads⟩ := loads_analysis done apart
    obtain ⟨result, ran, well, response⟩ := analyse_done analysed
    exact ⟨text, result, m, read, ran, well, response, loads⟩

/-- Programs that print their arguments, as `echo` does. -/
def echoing : Programs := fun l files =>
  (.ok ⟨.exit 0, Text.encode (" ".intercalate l.arguments ++ "\n"), .empty⟩, files)

/-- A workbench with a source file, on which nothing has been saved yet. -/
def sourceBench : Workbench :=
  { Workbench.fresh ⟨[("work", .folder [("a.go", .file (Text.encode "x"))])], ["work"]⟩
      (.atInstant 0) .empty with programs := echoing }

/-- A journal beside the files. -/
def benchJournal : Journal := ⟨some ⟨"nexus.log"⟩, ⟨0, false⟩, false⟩

def benchEnvironment : Environment := ⟨[("PATH", "/bin")], "/root", none, none, false, false⟩

/-- What a program answers that has found no command. -/
def bareAnswer : String :=
  "\x7b\"namespace\":\"ops\",\"source\":\"\",\"generated_at\":\"\",\"language\":\"\"\x7d"

/-- A manifest written by hand on the bench, in a folder that is made for it. -/
def writtenByHand (namespaceName : String) : Except CommandLine.Failure Unit × Workbench :=
  onWorkbench (scaffoldManifest benchJournal (some "new/ops.json") (some namespaceName)) sourceBench

/-- The bench after an analysis that answers with the bare manifest. -/
def analysedBare : Except CommandLine.Failure Unit × Workbench :=
  onWorkbench (analyseFile benchEnvironment benchJournal "a.go" "echo" [bareAnswer] (some "ops.json"))
    sourceBench

theorem eq_of_isOk {r : Except CommandLine.Failure Unit × Workbench} (ok : r.1.isOk) :
    r = (.ok (), r.2) := by
  obtain ⟨_ | _, w⟩ := r
  · cases ok
  · rfl

theorem ops_manifests_load :
    ((writtenByHand "ops").1.isOk ∧
      Loads "ops" (onWorkbench (load (Path.ofText "new/ops.json")) (writtenByHand "ops").2).1) ∧
    analysedBare.1.isOk ∧
      ∃ text result m, sourceText (sourceBench.files.read (Path.ofText "a.go")) = .ok text ∧
        (echoing ⟨"echo", [bareAnswer], benchEnvironment.values, Text.encode
          (Analysis.request text ((Path.ofText "a.go").name?.getD "a.go"))⟩ sourceBench.files).1 =
            .ok result ∧
        result.ending = .exit 0 ∧
        Analysis.readResponse (Text.decodeLossy result.output) = .ok m ∧
        Loads m.namespaceName (onWorkbench (load (Path.ofText "ops.json")) analysedBare.2).1 := by
  have written : (writtenByHand "ops").1.isOk := by decide +kernel
  have analysed : analysedBare.1.isOk := by decide +kernel
  have apart : Apart benchJournal (Path.ofText "new/ops.json") (writtenByHand "ops").2.files := by
    rintro q ⟨⟩
    decide +kernel
  have apart' : Apart benchJournal (Path.ofText "ops.json") analysedBare.2.files := by
    rintro q ⟨⟩
    decide +kernel
  refine ⟨⟨written, ?_⟩, analysed, ?_⟩
  · exact (saved_manifests_load benchJournal "new/ops.json" sourceBench).1 (some "ops") _
      (eq_of_isOk written) apart
  · exact (saved_manifests_load benchJournal "ops.json" sourceBench).2 benchEnvironment "a.go"
      "echo" [bareAnswer] _ (eq_of_isOk analysed) apart'

/-- A manifest under a blank namespace is written without complaint, and what was written is refused. -/
theorem blank_namespace_is_saved_and_refused :
    (writtenByHand " ").1.isOk ∧
      (onWorkbench (load (Path.ofText "new/ops.json")) (writtenByHand " ").2).1 =
        .error (.text .blankNamespace) := by
  have written : (writtenByHand " ").1.isOk := by decide +kernel
  have apart : Apart benchJournal (Path.ofText "new/ops.json") (writtenByHand " ").2.files := by
    rintro q ⟨⟩
    decide +kernel
  have saved := eq_of_isOk written
  have loads := @loads_scaffold benchJournal "new/ops.json" (some " ") sourceBench
    (writtenByHand " ").2 saved apart
  have blank : Text.isBlankText ((some " ").getD "new-project") = true := by decide
  unfold Loads at loads
  rw [if_pos blank] at loads
  exact ⟨written, loads⟩

end Manifest

end CommandDeck
