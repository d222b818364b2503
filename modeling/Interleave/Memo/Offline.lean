import Interleave.Databases
import Interleave.Random

/-!
# Changing memo files between campaigns

A change loads a memo from one file, changes it in memory and saves it in the same or another file.
Two of the changes fold in a second memo. If a memo that is to be read does not exist yet, there is
nothing to do. Nothing is written unless everything was loaded.
-/

namespace Interleave

/-- One change to a memo file. -/
inductive MemoChange where
  /-- The program's input changed: predictions and queue are void. -/
  | inputChange
  /-- Give up everything that was not exposed. -/
  | close
  | refine (respectFailed : Bool)
  /-- Fold in the memo of another file. -/
  | merge (other : String)
  /-- Fold in another memo, then refine. -/
  | apply (other : String) (respectFailed : Bool)
  /-- Keep some candidates of an idiom, drawn from a seed. Without one a seed has to be chosen. -/
  | sample (idiom : Idiom) (num : Nat) (seed : Option UInt64)
  deriving DecidableEq

namespace MemoChange

def text : MemoChange → String
  | inputChange => "input-change"
  | close => "close"
  | refine _ => "refine"
  | merge _ => "merge"
  | apply .. => "apply"
  | sample .. => "sample"

/-- The file of the memo that is folded in. -/
def other? : MemoChange → Option String
  | merge other => some other
  | apply other _ => some other
  | inputChange | close | refine _ | sample .. => none

/-- The change in memory. `other` is the memo that is folded in, `chosen` the seed if none is
given. -/
def applyTo (c : MemoChange) (catalog : Catalog) (chosen : UInt64) (other m : Memo) : Memo :=
  match c with
  | inputChange => m.clearPredicted.clearCandidates
  | close => m.closeUnexposed
  | refine respectFailed => (m.refine respectFailed).memo
  | merge _ => m.merge other
  | apply _ respectFailed => ((m.merge other).refine respectFailed).memo
  | sample idiom num seed =>
    (m.sample shuffle catalog idiom num (WordStream.ofSeed (seed.getD chosen))).1.memo

/-! ## On files -/

/-- Whether a memo file exists. -/
def present (t : Tree) (path : String) : Except Failure Bool :=
  (t.exists path).mapError (Snapshot.refusal path)

/-- Whether all memos that a change reads exist; the second is looked for only if there is a
first. -/
def inputsPresent (t : Tree) (c : MemoChange) (source : String) : Except Failure Bool := do
  if ← present t source then
    match c.other? with
    | none => return true
    | some other => present t other
  else return false

def loadCatalogOf (t : Tree) (paths : SnapshotPaths) : Except Failure Catalog := do
  let registry ← t.loadRegistry paths.registry
  t.loadCatalog paths.catalog registry

/-- The memo that is folded in; an empty one stands for none. -/
def loadOther (c : MemoChange) (t : Tree) (catalog : Catalog) : Except Failure Memo :=
  match c.other? with
  | none => .ok {}
  | some other => t.loadMemo other catalog

/-- The catalog, and the memo that a change makes of the files. -/
def compute (t : Tree) (paths : SnapshotPaths) (c : MemoChange) (source : String)
    (chosen : UInt64) : Except Failure (Catalog × Memo) := do
  let catalog ← loadCatalogOf t paths
  let m ← t.loadMemo source catalog
  let other ← c.loadOther t catalog
  return (catalog, c.applyTo catalog chosen other m)

/-- Applies a change to the memo in `source` and saves the result in `target`. The answer is the
summary of the new memo, or none if there was nothing to do. -/
def run (t : Tree) (paths : SnapshotPaths) (c : MemoChange) (source target tag : String)
    (chosen : UInt64) : Tree × Except Failure (Option MemoSummary) :=
  match inputsPresent t c source with
  | .error e => (t, .error e)
  | .ok false => (t, .ok none)
  | .ok true =>
    match compute t paths c source chosen with
    | .error e => (t, .error e)
    | .ok (catalog, m) =>
      match t.saveMemo target tag m with
      | (t, some e) => (t, .error e)
      | (t, none) => (t, .ok (some (m.summary catalog)))

end MemoChange

/-- Loads a memo with its catalog, changing nothing. -/
def loadMemoFile (t : Tree) (paths : SnapshotPaths) (source : String) :
    Except Failure (Catalog × Memo) := do
  let catalog ← MemoChange.loadCatalogOf t paths
  let m ← t.loadMemo source catalog
  return (catalog, m)

end Interleave
