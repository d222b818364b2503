import Interleave.Campaign.Basic
import Interleave.Catalog
import Interleave.Files.Tree
import Interleave.History
import Interleave.Json.Record
import Interleave.Memo.Basic

/-!
# Databases

The race database and the progress of a search, and how each database is loaded from its file.
-/

namespace Interleave

/-!
## Progress of a systematic search

A scheduler that enumerates schedules says whether it has seen them all.
-/

structure SearchInfo where
  done : Bool := false
  runs : UInt64 := 0
  deriving DecidableEq, Inhabited

def SearchInfo.shape : Shape SearchInfo :=
  .record "SearchInfo"
    (.cons (.withDefault "done" .bool false) <| .cons (.withDefault "num_runs" .word64 0) .nil)
    (fun s ↦ (s.done, s.runs, ())) fun (done, runs, ()) ↦ ⟨done, runs⟩

/-!
## The race database

A race detector reports static races, each a set of racing events, and the instructions that take
part in any race. Campaigns follow the numbers of both. Every racy instruction has to be registered;
the events and races are taken as they are.
-/

/-- One side of a race. Its number is local to the race database. -/
structure RaceEvent where
  id : UInt32
  inst : InstId
  kind : EventKind
  deriving DecidableEq

structure Race where
  id : UInt32
  events : List UInt32
  deriving DecidableEq

def RaceEvent.shape : Shape RaceEvent :=
  .record "StaticRaceEvent"
    (.cons (.required "id" .word32) <| .cons (.required "inst_id" Id.shape) <|
      .cons (.required "kind" EventKind.shape) .nil)
    (fun e ↦ (e.id, e.inst, e.kind, ())) fun (id, inst, kind, ()) ↦ ⟨id, inst, kind⟩

def Race.shape : Shape Race :=
  .record "StaticRace"
    (.cons (.required "id" .word32) <| .cons (.required "event_ids" (.list .word32)) .nil)
    (fun r ↦ (r.id, r.events, ())) fun (id, events, ()) ↦ ⟨id, events⟩

structure RaceDb where
  events : SortedMap UInt32 RaceEvent := ∅
  races : SortedMap UInt32 Race := ∅
  racyInsts : SortedSet InstId := ∅
  deriving DecidableEq

/-- The persisted form of a race database. -/
structure RaceDb.Snapshot where
  events : List RaceEvent := []
  races : List Race := []
  racyInsts : List InstId := []
  deriving DecidableEq

namespace RaceDb

def Snapshot.shape : Shape Snapshot :=
  .record "RaceDbSnapshot"
    (.cons (.withDefault "static_events" (.list RaceEvent.shape) []) <|
      .cons (.withDefault "static_races" (.list Race.shape) []) <|
      .cons (.withDefault "racy_insts" (.list (Id.shape : Shape InstId)) []) .nil)
    (fun s ↦ (s.events, s.races, s.racyInsts, ())) fun (events, races, racyInsts, ()) ↦
      ⟨events, races, racyInsts⟩

def ofSnapshot (s : Snapshot) (registry : Registry) : Except Failure RaceDb :=
  match s.racyInsts.find? fun id ↦ !registry.containsInst id with
  | some id => .error (.unknownInst id)
  | none => .ok {
      events := .ofList (s.events.map fun e ↦ (e.id, e))
      races := .ofList (s.races.map fun r ↦ (r.id, r))
      racyInsts := SortedSet.ofList s.racyInsts }

/-- The number of races and of racy instructions. -/
def metric (db : RaceDb) : Metric := ⟨db.races.size, db.racyInsts.size⟩

end RaceDb

/-!
## Loading the databases

Each database is read from its file and resolved against those it refers to: the catalog against the
registry, memo and history against the catalog. A missing file is an empty database.
-/

/-- The files of the databases. -/
structure SnapshotPaths where
  registry : String := "sinfo.json"
  catalog : String := "iroot.json"
  memo : String := "memo.json"
  race : String := "race.json"
  search : String := "search.json"
  history : String := "test_history.json"
  deriving DecidableEq, Inhabited

/-- A registry with a catalog over it and a memo over that. -/
structure Databases where
  registry : Registry := {}
  catalog : Catalog := {}
  memo : Memo := {}

namespace Tree

/-- The snapshot in a file, or an empty one. -/
def loadSnapshot {α : Type} (s : Shape α) (blank : α) (t : Tree) (path : String) :
    Except Failure α :=
  (Snapshot.read s t path).map (·.getD blank)

def loadRegistry (t : Tree) (path : String) : Except Failure Registry := do
  Registry.ofSnapshot (← t.loadSnapshot Registry.Snapshot.shape {} path)

def loadCatalog (t : Tree) (path : String) (registry : Registry) : Except Failure Catalog := do
  Catalog.ofSnapshot (← t.loadSnapshot Catalog.Snapshot.shape {} path) registry

def loadMemo (t : Tree) (path : String) (catalog : Catalog) : Except Failure Memo := do
  Memo.ofSnapshot (← t.loadSnapshot Memo.Snapshot.shape {} path) catalog

def loadRaceDb (t : Tree) (path : String) (registry : Registry) : Except Failure RaceDb := do
  RaceDb.ofSnapshot (← t.loadSnapshot RaceDb.Snapshot.shape {} path) registry

def loadSearch (t : Tree) (path : String) : Except Failure SearchInfo :=
  t.loadSnapshot SearchInfo.shape {} path

def loadHistory (t : Tree) (path : String) (catalog : Catalog) : Except Failure History := do
  History.ofSnapshot (← t.loadSnapshot History.Snapshot.shape {} path) catalog

/-- Registry, catalog and memo together. -/
def loadDatabases (t : Tree) (paths : SnapshotPaths) : Except Failure Databases := do
  let registry ← t.loadRegistry paths.registry
  let catalog ← t.loadCatalog paths.catalog registry
  let memo ← t.loadMemo paths.memo catalog
  return { registry, catalog, memo }

/-- Replaces the file of a memo. -/
def saveMemo (t : Tree) (path tag : String) (m : Memo) : Tree × Option Failure :=
  Snapshot.save t path tag (Memo.Snapshot.shape.write m.toSnapshot)

end Tree

end Interleave
