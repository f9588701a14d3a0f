import CommandDeck.Host.Basic
import CommandDeck.Proofs.Storage.Frame

/-!
# Disks that fail

A host on which any step can fail on the way, for any cause. Of the folders that are to be made those far
from the end of the path may be there by then, and of a content that is to be written the beginning. A
move is done as a whole or not at all. Nothing is shown, there is no input, and no program is installed.
-/

namespace CommandDeck

/-- Why a step fails on the way, and how far it has come, if it has begun. -/
structure Fault where
  cause : FileError
  reached? : Option Nat

namespace FileTree

/-- What a step leaves that fails when it has come so far. -/
def broken (t : FileTree) : FileStep → Option Nat → FileTree
  | .makeFolders p, some k => if t.isFolder p then t else (t.makeFolders (p.ancestry.drop k)).2
  | .write p content, some k => (t.perform (.write p (content.extract 0 k))).2
  | .append p content, some k => (t.perform (.append p (content.extract 0 k))).2
  | _, _ => t

/-- Performs a step that may meet a fault. -/
def performUnder (t : FileTree) (step : FileStep) : Option Fault → Except FileError Unit × FileTree
  | none => t.perform step
  | some fault => (.error fault.cause, t.broken step fault.reached?)

theorem attempt_cases (t : FileTree) (r : Except FileError FileTree) :
    (∃ t', r = .ok t' ∧ t.attempt r = (.ok (), t')) ∨ ∃ e, t.attempt r = (.error e, t) := by
  cases r with
  | ok t' => exact .inl ⟨t', rfl, rfl⟩
  | error e => exact .inr ⟨e, rfl⟩

/-- Whatever happens, making folders makes some of those on the way, and none where they are there. -/
theorem performUnder_makeFolders (t : FileTree) (p : Path) (fault? : Option Fault) :
    Raised p.ancestry t (t.performUnder (.makeFolders p) fault?).2 ∧
      (t.isFolder p → (t.performUnder (.makeFolders p) fault?).2 = t) := by
  cases fault? with
  | none =>
    rw [performUnder, perform]
    split
    · exact ⟨.refl, fun _ => rfl⟩
    · exact ⟨makeFolders_raised _, fun there => by rw [Path.ancestry, makeFolders_of_folder there]⟩
  | some fault =>
    obtain ⟨cause, _ | k⟩ := fault
    · exact ⟨.refl, fun _ => rfl⟩
    · rw [performUnder, broken]
      split
      · exact ⟨.refl, fun _ => rfl⟩
      · rename_i missing
        exact ⟨raised_mono (fun _ => List.mem_of_mem_drop) (makeFolders_raised _),
          fun there => absurd there missing⟩

/-- A write is done, or it leaves the tree as it is or with another content in the place of the file. -/
theorem performUnder_write (t : FileTree) (p : Path) (content : ByteArray) (fault? : Option Fault) :
    (∃ t', t.writeWith p (fun _ => content) = .ok t' ∧
      t.performUnder (.write p content) fault? = (.ok (), t')) ∨
    ∃ e t', t.performUnder (.write p content) fault? = (.error e, t') ∧
      (t' = t ∨ ∃ part, t.writeWith p (fun _ => part) = .ok t') := by
  cases fault? with
  | none =>
    rcases attempt_cases t (t.writeWith p fun _ => content) with ⟨t', wrote, done⟩ | ⟨e, failed⟩
    · exact .inl ⟨t', wrote, done⟩
    · exact .inr ⟨e, t, failed, .inl rfl⟩
  | some fault =>
    obtain ⟨cause, _ | k⟩ := fault
    · exact .inr ⟨cause, t, rfl, .inl rfl⟩
    · refine .inr ⟨cause, _, rfl, ?_⟩
      rw [broken, perform]
      rcases attempt_cases t (t.writeWith p fun _ => content.extract 0 k) with
        ⟨t', wrote, done⟩ | ⟨e, failed⟩
      · rw [done]
        exact .inr ⟨_, wrote⟩
      · rw [failed]
        exact .inl rfl

/-- A move is done or leaves the tree as it is. -/
theorem performUnder_move (t : FileTree) (source target : Path) (fault? : Option Fault) :
    (∃ t', t.move source target = .ok t' ∧
      t.performUnder (.move source target) fault? = (.ok (), t')) ∨
    ∃ e, t.performUnder (.move source target) fault? = (.error e, t) := by
  cases fault? with
  | none => exact attempt_cases t (t.move source target)
  | some fault => exact .inr ⟨fault.cause, rfl⟩

end FileTree

/-- Files with the faults that the next steps on them meet. -/
structure Disk where
  files : FileTree
  clock : Clock
  faults : List (Option Fault)

namespace Disk

/-- The fault that the next step meets. -/
def fault? (d : Disk) : Option Fault := d.faults.headD none

/-- The disk after a step that has left these files. -/
def left (d : Disk) (files : FileTree) : Disk := { d with files := files, faults := d.faults.tail }

def perform (d : Disk) (step : FileStep) : Except FileError Unit × Disk :=
  let (r, files) := d.files.performUnder step d.fault?
  (r, d.left files)

instance : Storage (StateM Disk) where
  read p := fun d => (d.files.read p, d)
  workingFolder := fun d => ("/" ++ "/".intercalate d.files.working, d)
  entries p := fun d => (d.files.entries p, d)
  perform step := fun d => d.perform step

instance : Host (StateM Disk) where
  clock := fun d => (d.clock, d)
  pause _ := pure ()
  print _ := pure ()
  printError _ := pure ()
  eachLine _ _ := pure ()
  launch _ := pure (.error (.unstarted FileError.notFound.message))

end Disk

/-- The answer of an action on a disk, and the disk after it. -/
def onDisk {α : Type} (action : StateM Disk α) (d : Disk) : α × Disk := action d

theorem onDisk_bind {α β : Type} (action : StateM Disk α) (next : α → StateM Disk β) (d : Disk) :
    onDisk (action >>= next) d = onDisk (next (onDisk action d).1) (onDisk action d).2 := rfl

namespace Disk

variable {d : Disk} {step : FileStep} {files : FileTree}

theorem performAll_done (rest : List FileStep)
    (done : d.files.performUnder step d.fault? = (.ok (), files)) :
    onDisk (performAll (step :: rest)) d = onDisk (performAll rest) (d.left files) := by
  simp [onDisk, performAll, bind, StateT.bind, Storage.perform, perform, done]

theorem performAll_failed {e : FileError} (rest : List FileStep)
    (failed : d.files.performUnder step d.fault? = (.error e, files)) :
    onDisk (performAll (step :: rest)) d = (.error e, d.left files) := by
  simp [onDisk, performAll, bind, StateT.bind, Storage.perform, perform, failed]
  rfl

end Disk

end CommandDeck
