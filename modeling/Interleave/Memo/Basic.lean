import Interleave.Basic
import Interleave.Catalog
import Interleave.Data.SortedMap

/-!
# The memo

The memo is what is known about every iRoot that was ever observed or tested. Each of them has its
evidence: how often runs have targeted it, and whether it involves asynchronous events. Four sets
classify iRoots, not exclusively: exposed by a targeted run, given up (failed), predicted, and
exposed by chance in a run that targeted something else (shadow-exposed). The candidates are the
work queue; each carries the number of targeted runs it has had while queued.

Everything recorded about an iRoot first makes sure that there is evidence for it, and exposure wins
over giving up. Counters are words: the count after the greatest one is zero again.
-/

namespace Interleave

/-- The next value of a counter; a full counter starts again at zero. -/
def nextCount (n : UInt32) : UInt32 := n + 1

/-- What is known about one iRoot. -/
structure Evidence where
  /-- The iRoot that this is about. -/
  iroot : IRootId
  /-- Targeted runs over all campaigns. -/
  runs : UInt32 := 0
  /-- Whether asynchronous events are involved; unknown until reported. -/
  isAsync : Option Bool := none
  deriving DecidableEq, Inhabited

structure Memo where
  info : SortedMap IRootId Evidence := ∅
  /-- Confirmed by a targeted run. -/
  exposed : SortedSet IRootId := ∅
  /-- Given up. -/
  failed : SortedSet IRootId := ∅
  predicted : SortedSet IRootId := ∅
  /-- Confirmed outside targeted runs. -/
  shadowExposed : SortedSet IRootId := ∅
  /-- The work queue, with the targeted runs of each candidate while queued. -/
  candidates : SortedMap IRootId UInt32 := ∅
  deriving DecidableEq, Inhabited

namespace Memo

/-- Targeted runs after which a candidate leaves the queue. -/
def retryLimit : UInt32 := 2

/-- Targeted runs after which an iRoot is given up. -/
def failureLimit : UInt32 := 6

/-! ## Recording -/

/-- Changes the evidence of an iRoot, which is created if there is none. -/
def updateInfo (m : Memo) (id : IRootId) (f : Evidence → Evidence) : Memo :=
  { m with info := m.info.alter id fun old ↦ some (f (old.getD { iroot := id })) }

/-- Makes sure that there is evidence for an iRoot. -/
def observe (m : Memo) (id : IRootId) : Memo := m.updateInfo id fun e ↦ e

/-- The evidence of an iRoot; none if it was never observed. -/
def info? (m : Memo) (id : IRootId) : Option Evidence := m.info.get? id

def setAsync (m : Memo) (id : IRootId) (isAsync : Bool) : Memo :=
  m.updateInfo id fun e ↦ { e with isAsync := some isAsync }

def predict (m : Memo) (id : IRootId) : Memo :=
  let m := m.observe id
  { m with predicted := m.predicted.add id }

def markShadowExposed (m : Memo) (id : IRootId) : Memo :=
  let m := m.observe id
  { m with shadowExposed := m.shadowExposed.add id }

/-- Queues an iRoot; one that is queued already keeps its count. -/
def addCandidate (m : Memo) (id : IRootId) : Memo :=
  let m := m.observe id
  { m with candidates := m.candidates.insertIfNew id 0 }

/-- Counts a targeted run of an iRoot, which is queued if it was not. -/
def countRun (m : Memo) (id : IRootId) : Memo :=
  let m := m.updateInfo id fun e ↦ { e with runs := nextCount e.runs }
  { m with candidates := m.candidates.alter id fun old ↦ some (nextCount (old.getD 0)) }

/-- A targeted run exposed the iRoot. -/
def recordSuccess (m : Memo) (id : IRootId) : Memo :=
  let m := m.countRun id
  { m with failed := m.failed.erase id, exposed := m.exposed.add id }

/-- A targeted run did not expose the iRoot. It is given up when its runs reach the limit, unless
it was exposed before. -/
def recordFailure (m : Memo) (id : IRootId) : Memo :=
  let m := m.countRun id
  let runs := ((m.info? id).getD { iroot := id }).runs
  if failureLimit ≤ runs ∧ !m.exposed.contains id then { m with failed := m.failed.add id } else m

/-! ## Queries -/

/-- The members of one of the classes. -/
def members (m : Memo) : MemoClass → SortedSet IRootId
  | .exposed => m.exposed
  | .failed => m.failed
  | .predicted => m.predicted
  | .shadowExposed => m.shadowExposed
  | .candidates => SortedSet.ofKeys m.candidates

/-- The targeted runs of a candidate while queued. -/
def candidateRuns? (m : Memo) (id : IRootId) : Option UInt32 := m.candidates.get? id

/-- The number of iRoots with evidence. -/
def size (m : Memo) : Nat := m.info.size

end Memo

/-!
## Refining, closing and merging memos

Between campaigns a memo is tidied. Refining drops candidates that need no more targeted runs;
closing gives up everything that was not exposed; after a change of the program's input the
predictions and the queue are emptied. Merging joins what two memos know: counters take their
maximum, sets their union, and exposure wins over giving up.
-/

/-- A memo after candidates were removed, and how many they were. -/
structure Trimmed where
  memo : Memo
  removed : Nat

namespace Memo

/-- Whether a candidate stays in the queue: it has retries left, was not exposed, and, if failures
are respected, was not given up. -/
def staysQueued (m : Memo) (respectFailed : Bool) (id : IRootId) (runs : UInt32) : Bool :=
  runs < retryLimit && !m.exposed.contains id && !(respectFailed && m.failed.contains id)

def refine (m : Memo) (respectFailed : Bool) : Trimmed :=
  let candidates := m.candidates.filter (m.staysQueued respectFailed)
  ⟨{ m with candidates }, m.candidates.size - candidates.size⟩

/-- Gives up every iRoot with evidence that was not exposed. -/
def closeUnexposed (m : Memo) : Memo :=
  let unexposed := SortedSet.ofKeys (m.info.filter fun id _ ↦ !m.exposed.contains id)
  { m with failed := SortedSet.union m.failed unexposed }

def clearPredicted (m : Memo) : Memo := { m with predicted := ∅ }

def clearCandidates (m : Memo) : Memo := { m with candidates := ∅ }

end Memo

/-- Joins two pieces of evidence about one iRoot: the greater number of runs, and an asynchronous
event if either saw one. -/
def Evidence.join (a b : Evidence) : Evidence where
  iroot := a.iroot
  runs := max a.runs b.runs
  isAsync :=
    match a.isAsync, b.isAsync with
    | none, none => none
    | x, y => some (x.getD false || y.getD false)

namespace Memo

/-- All that two memos know. -/
def merge (a b : Memo) : Memo :=
  let exposed := SortedSet.union a.exposed b.exposed
  { info := a.info.mergeWith Evidence.join b.info
    exposed
    failed := SortedSet.diff (SortedSet.union a.failed b.failed) exposed
    predicted := SortedSet.union a.predicted b.predicted
    shadowExposed := SortedSet.union a.shadowExposed b.shadowExposed
    candidates := a.candidates.mergeWith max b.candidates }

end Memo

/-!
## Snapshots of memos

A memo is persisted as lists in ascending order of identifier. It is loaded against a catalog, which
has to know every iRoot with evidence, and every other list may only name iRoots with evidence. The
first name that dangles is reported. An iRoot listed as both exposed and failed counts as exposed.
-/

def Evidence.shape : Shape Evidence :=
  .record "IRootInfo"
    (.cons (.required "iroot_id" Id.shape) <| .cons (.required "total_test_runs" .word32) <|
      .cons (.omittable "is_async" .bool) .nil)
    (fun e ↦ (e.iroot, e.runs, e.isAsync, ())) fun (iroot, runs, isAsync, ()) ↦
      ⟨iroot, runs, isAsync⟩

namespace Memo

/-- A queued iRoot. -/
structure CandidateRecord where
  iroot : IRootId
  runs : UInt32
  deriving DecidableEq

/-- The persisted form of a memo. -/
structure Snapshot where
  info : List Evidence := []
  exposed : List IRootId := []
  failed : List IRootId := []
  predicted : List IRootId := []
  shadowExposed : List IRootId := []
  candidates : List CandidateRecord := []
  deriving DecidableEq

def CandidateRecord.shape : Shape CandidateRecord :=
  .record "CandidateRecord"
    (.cons (.required "iroot_id" Id.shape) <| .cons (.required "test_runs" .word32) .nil)
    (fun r ↦ (r.iroot, r.runs, ())) fun (iroot, runs, ()) ↦ ⟨iroot, runs⟩

def Snapshot.shape : Shape Snapshot :=
  let ids := fun (name : String) ↦ Field.withDefault name (.list (Id.shape : Shape IRootId)) []
  .record "MemoSnapshot"
    (.cons (.withDefault "iroot_info" (.list Evidence.shape) []) <| .cons (ids "exposed") <|
      .cons (ids "failed") <| .cons (ids "predicted") <| .cons (ids "shadow_exposed") <|
      .cons (.withDefault "candidates" (.list CandidateRecord.shape) []) .nil)
    (fun s ↦
      (s.info, s.exposed, s.failed, s.predicted, s.shadowExposed, s.candidates, ()))
    fun (info, exposed, failed, predicted, shadowExposed, candidates, ()) ↦
      ⟨info, exposed, failed, predicted, shadowExposed, candidates⟩

/-- The identifiers that a snapshot lists in one of the classes. -/
def Snapshot.listed (s : Snapshot) : MemoClass → List IRootId
  | .exposed => s.exposed
  | .failed => s.failed
  | .predicted => s.predicted
  | .shadowExposed => s.shadowExposed
  | .candidates => s.candidates.map (·.iroot)

/-- The first class, in order, with an identifier for which there is no evidence, and the first
such identifier in it. -/
def Snapshot.dangling? (s : Snapshot) (info : SortedMap IRootId Evidence) : Option Failure :=
  MemoClass.all.findSome? fun c ↦
    ((s.listed c).find? fun id ↦ !info.contains id).map (.dangling c)

/-- The memo of a snapshot over a catalog. Of several entries with one identifier the last
counts. -/
def ofSnapshot (s : Snapshot) (catalog : Catalog) : Except Failure Memo :=
  match s.info.find? fun e ↦ !catalog.contains e.iroot with
  | some e => .error (.unknownIRoot e.iroot)
  | none =>
    let info := SortedMap.ofList (s.info.map fun e ↦ (e.iroot, e))
    match s.dangling? info with
    | some failure => .error failure
    | none =>
      let exposed := SortedSet.ofList s.exposed
      .ok {
        info, exposed
        failed := SortedSet.diff (SortedSet.ofList s.failed) exposed
        predicted := SortedSet.ofList s.predicted
        shadowExposed := SortedSet.ofList s.shadowExposed
        candidates := SortedMap.ofList (s.candidates.map fun r ↦ (r.iroot, r.runs)) }

/-- The memo in order of identifier. Each piece of evidence is written as it is stored. -/
def toSnapshot (m : Memo) : Snapshot where
  info := m.info.values
  exposed := m.exposed.keys
  failed := m.failed.keys
  predicted := m.predicted.keys
  shadowExposed := m.shadowExposed.keys
  candidates := m.candidates.entries.map fun (id, runs) ↦ ⟨id, runs⟩

end Memo

/-!
## A memo seen through a catalog

The catalog knows the idiom of every iRoot, so each class of a memo falls into one part for each
idiom. Reports count these parts.

The candidates of one idiom can be thinned out to a number of them drawn at random. They are
shuffled, starting from ascending order, and those in front are removed. What shuffles them is left
open here; it is given the candidates with a source of randomness, and gives the source back.
-/

namespace Memo

/-- The members of a set that have an idiom. -/
def ofIdiom (catalog : Catalog) (idiom : Idiom) (ids : SortedSet IRootId) : SortedSet IRootId :=
  SortedSet.filter ids fun id ↦ catalog.idiomOf? id == some idiom

/-- The members of a class that have an idiom. -/
def membersFor (m : Memo) (catalog : Catalog) (idiom : Idiom) (c : MemoClass) :
    SortedSet IRootId :=
  ofIdiom catalog idiom (m.members c)

/-- The candidates of an idiom with their counts. -/
def candidatesFor (m : Memo) (catalog : Catalog) (idiom : Idiom) : SortedMap IRootId UInt32 :=
  m.candidates.filter fun id _ ↦ catalog.idiomOf? id == some idiom

/-- The iRoots of an idiom that were seen to happen, in targeted runs or outside them. -/
def observedFor (m : Memo) (catalog : Catalog) (idiom : Idiom) : SortedSet IRootId :=
  ofIdiom catalog idiom (SortedSet.union m.exposed m.shadowExposed)

/-- How many iRoots of each idiom were seen to happen. -/
def observedCounts (m : Memo) (catalog : Catalog) : PerIdiom Nat := fun idiom ↦
  (m.observedFor catalog idiom).size

/-- Whether anything is queued, of one idiom or of any. -/
def hasCandidate (m : Memo) (catalog : Catalog) : Option Idiom → Bool
  | none => !m.candidates.isEmpty
  | some idiom => m.candidates.keys.any fun id ↦ catalog.idiomOf? id == some idiom

end Memo

/-! ### Sampling the queue -/

/-- A way to bring candidates into another order by means of a source of randomness. -/
abbrev Shuffle (ρ : Type) : Type := List IRootId → ρ → List IRootId × ρ

/-- Keeps `num` candidates of an idiom. If there are no more than that, nothing is drawn. -/
def Memo.sample {ρ : Type} (shuffle : Shuffle ρ) (m : Memo) (catalog : Catalog) (idiom : Idiom)
    (num : Nat) (r : ρ) : Trimmed × ρ :=
  let queued := (m.candidatesFor catalog idiom).keys
  if queued.length ≤ num then (⟨m, 0⟩, r)
  else
    let (order, r) := shuffle queued r
    let removed := queued.length - num
    let dropped := order.take removed
    (⟨{ m with candidates := m.candidates.filter fun id _ ↦ !dropped.contains id }, removed⟩, r)

/-! ### Summaries -/

/-- The size of a class and of its parts. -/
structure ClassCounts where
  total : Nat
  perIdiom : PerIdiom Nat

/-- The sizes of all classes of a memo. -/
structure MemoSummary where
  counts : MemoClass → ClassCounts
  /-- The number of iRoots with evidence. -/
  withInfo : Nat

/-- The counts while the members of a class are gone through: of all so far, and of each idiom at
its index. -/
structure ClassTally where
  total : Nat := 0
  atIndex : { l : List Nat // l.length = 5 } := ⟨[0, 0, 0, 0, 0], rfl⟩

/-- Counts one more iRoot; one that the catalog does not know counts in the total only. -/
def ClassTally.count (catalog : Catalog) (t : ClassTally) (id : IRootId) : ClassTally where
  total := t.total + 1
  atIndex :=
    match catalog.idiomOf? id with
    | some idiom =>
      ⟨t.atIndex.1.modify idiom.index (· + 1), by rw [List.length_modify]; exact t.atIndex.2⟩
    | none => t.atIndex

/-- The counts of all members of a class, gone through in order. -/
def ClassCounts.ofIds (catalog : Catalog) (ids : SortedSet IRootId) : ClassCounts :=
  let t := ids.keys.foldl (ClassTally.count catalog) {}
  { total := t.total, perIdiom := .ofList t.atIndex }

def Memo.summary (m : Memo) (catalog : Catalog) : MemoSummary where
  counts c := .ofIds catalog (m.members c)
  withInfo := m.size

/-- One count for each idiom, as a list of five. -/
def PerIdiom.shape {α : Type} (s : Shape α) : Shape (PerIdiom α) :=
  (Shape.row 5 s).iso (fun f ↦ ⟨f.toList, rfl⟩) PerIdiom.ofList

def ClassCounts.shape : Shape ClassCounts :=
  .record "ClassCounts"
    (.cons (.required "total" .count) <| .cons (.required "per_idiom" (PerIdiom.shape .count)) .nil)
    (fun c ↦ (c.total, c.perIdiom, ())) fun (total, perIdiom, ()) ↦ ⟨total, perIdiom⟩

namespace MemoSummary

def shape : Shape MemoSummary :=
  let cls := fun (c : MemoClass) ↦ Field.required c.key ClassCounts.shape
  .record "MemoSummary"
    (.cons (cls .exposed) <| .cons (cls .failed) <| .cons (cls .predicted) <|
      .cons (cls .shadowExposed) <| .cons (cls .candidates) <|
      .cons (.required "total_iroot_info" .count) .nil)
    (fun s ↦ (s.counts .exposed, s.counts .failed, s.counts .predicted, s.counts .shadowExposed,
      s.counts .candidates, s.withInfo, ()))
    fun (exposed, failed, predicted, shadowExposed, candidates, withInfo, ()) ↦
      ⟨fun
        | .exposed => exposed
        | .failed => failed
        | .predicted => predicted
        | .shadowExposed => shadowExposed
        | .candidates => candidates, withInfo⟩

/-- The report: each class with its total and its parts. -/
def text (s : MemoSummary) : String :=
  let cls := fun (c : MemoClass) ↦
    "# total " ++ padRight 15 c.label ++ " = " ++ toString (s.counts c).total ++ "\n" ++
      String.join (Idiom.all.map fun i ↦
        "  # " ++ padRight 18 i.text ++ " = " ++ toString ((s.counts c).perIdiom i) ++ "\n")
  "Memoization Summary\n---------------------------\n" ++ String.join (MemoClass.all.map cls) ++
    "# total iroot_info      = " ++ toString s.withInfo ++ "\n"

end MemoSummary

end Interleave
