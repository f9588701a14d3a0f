import CommandDeck.Text.BreakClass

/-!
# Clusters

A text falls into clusters, each of which a reader takes for one character. Whether a character goes
on with a cluster depends on its class and on the end of the cluster. Main statement: the clusters
of a text put together are the text.
-/

namespace CommandDeck.Text

/-- The part of a sequence of joined pictographs that a cluster ends in: none, a pictograph with its
extenders, or one with a joiner after them. -/
inductive Pictures where
  | none
  | started
  | joined
  deriving DecidableEq

/-- The part of linked consonants that a cluster ends in: none, a consonant with its marks, or one
with a linker among them. -/
inductive Conjunct where
  | none
  | started
  | linked
  deriving DecidableEq

/-- What of a cluster decides which characters go on with it. -/
structure ClusterEnd where
  last : BreakClass
  pictures : Pictures
  conjunct : Conjunct
  /-- The cluster ends in a letter of a flag that has no second one. -/
  halfFlag : Bool
  deriving DecidableEq

namespace Pictures

def next (p : Pictures) (c : BreakClass) : Pictures :=
  match c, p with
  | .pictograph, _ => started
  | .extender, started => started
  | .nonJoiner, started => started
  | .linker, started => started
  | .joiner, started => joined
  | _, _ => none

end Pictures

namespace Conjunct

def next (p : Conjunct) (c : BreakClass) : Conjunct :=
  match c, p with
  | .consonant, _ => started
  | _, none => none
  | .linker, _ => linked
  | .extender, p => p
  | .joiner, p => p
  | _, _ => none

end Conjunct

namespace ClusterEnd

def single (c : BreakClass) : ClusterEnd :=
  ⟨c, Pictures.none.next c, Conjunct.none.next c, c = .regional⟩

def next (e : ClusterEnd) (c : BreakClass) : ClusterEnd :=
  ⟨c, e.pictures.next c, e.conjunct.next c, c = .regional && !e.halfFlag⟩

/-- A character of the class goes on with the cluster. -/
def admits (e : ClusterEnd) (c : BreakClass) : Bool :=
  if e.last.isControl || c.isControl then e.last = .carriageReturn && c = .lineFeed
  else c.isMark || e.last = .prepended || e.last.joinsSyllable c
    || (c = .consonant && e.conjunct = .linked)
    || (c = .pictograph && e.pictures = .joined)
    || (c = .regional && e.halfFlag)

end ClusterEnd

/-- The clusters of a text whose first characters, the last one first, have been found to belong
together. -/
def clustersFrom (e : ClusterEnd) (before : List Char) : List Char → List (List Char)
  | [] => [before.reverse]
  | c :: rest =>
    let kind := BreakClass.ofChar c
    if e.admits kind then clustersFrom (e.next kind) (c :: before) rest
    else before.reverse :: clustersFrom (.single kind) [c] rest

def clusters : List Char → List (List Char)
  | [] => []
  | c :: rest => clustersFrom (.single (BreakClass.ofChar c)) [c] rest

theorem clustersFrom_flatten (e : ClusterEnd) (before s : List Char) :
    (clustersFrom e before s).flatten = before.reverse ++ s := by
  induction s generalizing e before with
  | nil => simp [clustersFrom]
  | cons c rest ih =>
    simp only [clustersFrom]
    split <;> simp [ih]

/-- No character is lost or moved. -/
theorem clusters_flatten (s : List Char) : (clusters s).flatten = s := by
  cases s with
  | nil => rfl
  | cons c rest => simp [clusters, clustersFrom_flatten]

end CommandDeck.Text
