import CommandDeck.CommandLine.Commands
import CommandDeck.Proofs.Host.Workbench
import CommandDeck.Proofs.Settings.Document

/-!
# Settings survive their file

On a workbench, settings that have been saved are what the file holds from then on, and setting a key
leaves the file as it is or replaces the value of this key and nothing else.
-/

namespace CommandDeck

namespace Settings

theorem ofContent_content {s : Settings} (bounded : s.Bounded) :
    ofContent (.ok s.content) = .ok s := by
  simp only [ofContent, content, Text.decode?_encode, ofText_toText bounded]

theorem ofContent_bounded {content : Except FileError ByteArray} {s : Settings}
    (h : ofContent content = .ok s) : s.Bounded := by
  have bounded : empty.Bounded := by decide
  unfold ofContent at h
  split at h
  · cases h
    exact bounded
  · cases h
    exact bounded
  · cases h
    exact bounded
  · cases h
    exact bounded
  · cases h
  · split at h
    · cases h
    · split at h
      · cases h
      · cases h
        exact ofText_bounded ‹_›

/-- Steps that have saved settings have written their text, and no folder is gone. -/
theorem saveSteps_done {s : Settings} {p : Path} {w : Workbench} (home : w.files.HasHome)
    (done : (onWorkbench (performAll (s.saveSteps p)) w).1 = .ok ()) :
    (onWorkbench (performAll (s.saveSteps p)) w).2.files.read p = .ok s.content ∧
      FileTree.Extends w.files (onWorkbench (performAll (s.saveSteps p)) w).2.files := by
  obtain ⟨files, grown, written⟩ := Workbench.makeFolders_done (Prod.ext done rfl)
  obtain ⟨read, kept⟩ := Workbench.write_done (grown.home home) written
  exact ⟨read, grown.trans kept⟩

/-! ### Commands -/

/-- The path of the settings file. -/
def pathOn (env : Environment) (w : Workbench) : Path := Path.ofText (onWorkbench (filePath env) w).1

theorem filePath_keeps (env : Environment) (w : Workbench) :
    (onWorkbench (filePath env) w).2 = w := by
  unfold filePath
  cases env.settings? with
  | none => rfl
  | some path => rfl

theorem load_onWorkbench (env : Environment) (w : Workbench) :
    onWorkbench (load env) w = (ofContent (w.files.read (pathOn env w)), w) := by
  rw [load, onWorkbench_bind, filePath_keeps]
  rfl

theorem save_onWorkbench (s : Settings) (env : Environment) (w : Workbench) :
    onWorkbench (s.save env) w =
      match onWorkbench (performAll (s.saveSteps (pathOn env w))) w with
      | (.ok (), w') => (.ok (), w')
      | (.error e, w') => (.error (.file e), w') := by
  rw [save, onWorkbench_bind, filePath_keeps, onWorkbench_bind]
  simp only [pathOn]
  rcases onWorkbench (performAll (s.saveSteps (Path.ofText (onWorkbench (filePath env) w).1))) w with
    ⟨_ | _, w'⟩
  · rfl
  · rfl

open CommandLine (setSetting)

/-- What becomes of a workbench and of the settings file at `p` when a key is set. The note of the
success comes after the settings have been saved, and leaves them alone where the journal is another
file. -/
inductive SetOutcome (p : Path) (j : Journal) (key value : String) (w : Workbench) :
    Except SettingsFileError Unit × Workbench → Prop where
  | unread {e : SettingsFileError} : ofContent (w.files.read p) = .error e →
      SetOutcome p j key value w (.error e, w)
  | refused {s : Settings} {e : SettingsError} : ofContent (w.files.read p) = .ok s →
      s.setNamed key value = .error e → SetOutcome p j key value w (.error (.settings e), w)
  | unsaved {s t : Settings} {e : FileError} {w' : Workbench} :
      ofContent (w.files.read p) = .ok s → s.setNamed key value = .ok t →
      onWorkbench (performAll (t.saveSteps p)) w = (.error e, w') →
      SetOutcome p j key value w (.error (.file e), w')
  | changed {s t : Settings} {k : SettingKey} {saved w' : Workbench} :
      ofContent (w.files.read p) = .ok s → k.name = key → s.set k value = .ok t →
      t.without k = s.without k → onWorkbench (performAll (t.saveSteps p)) w = (.ok (), saved) →
      ofContent (saved.files.read p) = .ok t →
      w' = (onWorkbench (j.success ("Set " ++ key ++ " = " ++ value)) saved).2 →
      ((∀ q ∈ j.file?, w.files.placeOf q ≠ w.files.placeOf p) →
        ofContent (w'.files.read p) = .ok t) →
      SetOutcome p j key value w (.ok (), w')

theorem setSetting_outcome (env : Environment) (j : Journal) (key value : String) {w : Workbench}
    (home : w.files.HasHome) :
    SetOutcome (pathOn env w) j key value w (onWorkbench (setSetting env j key value) w) := by
  rw [setSetting, onWorkbench_bind, load_onWorkbench]
  simp only
  cases loaded : ofContent (w.files.read (pathOn env w)) with
  | error e => exact .unread loaded
  | ok s =>
    simp only
    cases given : s.setNamed key value with
    | error e => exact .refused loaded given
    | ok t =>
      obtain ⟨k, name, change, changes⟩ := setNamed_changes given
      have bounded : t.Bounded := changes.bounded (ofContent_bounded loaded)
      have done := saveSteps_done (s := t) (p := pathOn env w) home
      simp only
      rw [onWorkbench_bind, save_onWorkbench]
      rcases steps : onWorkbench (performAll (t.saveSteps (pathOn env w))) w with ⟨_ | _, saved⟩
      · exact .unsaved loaded given steps
      · rw [steps] at done
        obtain ⟨written, grown⟩ := done rfl
        have reads : ofContent (saved.files.read (pathOn env w)) = .ok t := by
          rw [written, ofContent_content bounded]
        refine .changed loaded name change changes.others steps reads rfl fun apart => ?_
        have elsewhere : ∀ q ∈ j.file?,
            saved.files.placeOf q ≠ saved.files.placeOf (pathOn env w) := by
          intro q journal
          rw [grown.placeOf, grown.placeOf]
          exact apart q journal
        exact (congrArg ofContent
          (Workbench.read_success _ elsewhere written)).trans
            (ofContent_content bounded)

/-- Settings that have been saved are read again as they were, whatever their strings. Setting a key
fails before anything is written, or at a step that writes, or else it changes what the file says of this
key and nothing else. -/
theorem settings_survive_their_file :
    (∀ (s : Settings) (p : Path) (w : Workbench), s.Bounded → w.files.HasHome →
      (onWorkbench (performAll (s.saveSteps p)) w).1 = .ok () →
      ofContent ((onWorkbench (performAll (s.saveSteps p)) w).2.files.read p) = .ok s) ∧
    ∀ (env : Environment) (j : Journal) (key value : String) (w : Workbench), w.files.HasHome →
      SetOutcome (pathOn env w) j key value w (onWorkbench (setSetting env j key value) w) := by
  constructor
  · intro s p w bounded home done
    rw [(saveSteps_done home done).1, ofContent_content bounded]
  · intro env j key value w home
    exact setSetting_outcome env j key value home

/-- A workbench on which nothing has been saved yet. -/
def cleanBench : Workbench := .fresh ⟨[("work", .folder [])], ["work"]⟩ (.atInstant 0) .empty

/-- Settings with a string for every style, the greatest delay and the least. -/
def awkward : Settings where
  account? := some "it's \"\"\"three\"\"\" \\ and\n'''more''' \x07"
  syncDelay? := some millisLimit
  resolveDelay? := none
  bridgeDelay? := none
  payloadDelay? := some 0
  seedDemo? := some false
  manifests? := some ["", "plain.json", "C:\\tools", "say \"it's\"", "it's '''a\n\\'''"]

/-- The awkward settings are saved, and then another account is set: the file says the new account, and
of the other keys what it said before. -/
theorem awkward_survives :
    let p : Path := ⟨"conf/a.toml"⟩
    let env : Environment := ⟨[], "/root", some p.text, none, false, false⟩
    let j : Journal := ⟨some ⟨"nexus.log"⟩, ⟨0, false⟩, false⟩
    let saved := (onWorkbench (performAll (awkward.saveSteps p)) cleanBench).2
    let changed := onWorkbench (setSetting env j "account" "x") saved
    awkward.Bounded ∧ cleanBench.files.HasHome ∧ ofContent (saved.files.read p) = .ok awkward ∧
      saved.files.HasHome ∧ SetOutcome (pathOn env saved) j "account" "x" saved changed ∧
      changed.1.isOk ∧
      ofContent (changed.2.files.read p) = .ok { awkward with account? := some "x" } := by
  intro p env j saved changed
  have bounded : awkward.Bounded := by decide
  have home : cleanBench.files.HasHome := rfl
  have done : (onWorkbench (performAll (awkward.saveSteps p)) cleanBench).1 = .ok () := by
    decide +kernel
  have kept : ofContent (saved.files.read p) = .ok awkward :=
    settings_survive_their_file.1 awkward p cleanBench bounded home done
  have grown : FileTree.Extends cleanBench.files saved.files :=
    (saveSteps_done (s := awkward) (p := p) home done).2
  have savedHome : saved.files.HasHome := grown.home home
  have outcome : SetOutcome (pathOn env saved) j "account" "x" saved changed :=
    settings_survive_their_file.2 env j "account" "x" saved savedHome
  have apart : ∀ q ∈ j.file?, saved.files.placeOf q ≠ saved.files.placeOf p := by
    intro q journal
    obtain rfl : ⟨"nexus.log"⟩ = q := Option.some.inj journal
    rw [grown.placeOf, grown.placeOf]
    decide +kernel
  have resaved : (onWorkbench (performAll ({ awkward with account? := some "x" }.saveSteps p))
      saved).1 = .ok () := by
    decide +kernel
  have set : changed.1.isOk ∧
      ofContent (changed.2.files.read p) = .ok { awkward with account? := some "x" } := by
    generalize changed = result at outcome
    cases outcome with
    | unread loaded => cases kept.symm.trans loaded
    | refused loaded given =>
      obtain rfl := Except.ok.inj (kept.symm.trans loaded)
      cases given
    | unsaved loaded given steps =>
      obtain rfl := Except.ok.inj (kept.symm.trans loaded)
      obtain rfl := Except.ok.inj given
      cases resaved.symm.trans (congrArg Prod.fst steps)
    | changed loaded name given _ _ _ _ reads =>
      obtain rfl := Except.ok.inj (kept.symm.trans loaded)
      obtain rfl := SettingKey.name_injective (l := .account) name
      obtain rfl := Except.ok.inj given
      exact ⟨rfl, reads apart⟩
  exact ⟨bounded, home, kept, savedHome, outcome, set⟩

end Settings

end CommandDeck
