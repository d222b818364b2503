import Interleave.Catalog

/-!
# The history of targeted runs

Every targeted run is logged with the iRoot that it targeted, the seed of its scheduler and, once it
has ended, whether it exposed its target. Loaded against a catalog, every entry gets the idiom of
its iRoot, and the entries can be counted for each idiom.
-/

namespace Interleave

/-- One targeted run. -/
structure HistoryEntry where
  iroot : IRootId
  seed : UInt64
  /-- Unknown if the run never reported a result. -/
  success : Option Bool := none
  deriving DecidableEq

def HistoryEntry.resultText (e : HistoryEntry) : String :=
  match e.success with
  | some true => "Success"
  | some false => "Fail"
  | none => "None"

def HistoryEntry.shape : Shape HistoryEntry :=
  .record "TestHistoryEntry"
    (.cons (.required "iroot_id" Id.shape) <| .cons (.required "seed" .word64) <|
      .cons (.omittable "success" .bool) .nil)
    (fun e ↦ (e.iroot, e.seed, e.success, ())) fun (iroot, seed, success, ()) ↦
      ⟨iroot, seed, success⟩

/-- Targeted runs in order, each with the idiom of its iRoot. -/
structure History where
  entries : List (HistoryEntry × Idiom) := []
  deriving DecidableEq

/-- The persisted form of a history. -/
structure History.Snapshot where
  entries : List HistoryEntry := []
  deriving DecidableEq

/-- The runs of one idiom, counted. -/
structure IdiomHistory where
  /-- Runs that exposed their target. -/
  success : Nat
  /-- Runs that ended without exposing it. -/
  fail : Nat
  /-- Targets exposed at least once. -/
  successIRoots : Nat
  /-- Targets never exposed. -/
  failIRoots : Nat
  deriving DecidableEq

namespace History

def Snapshot.shape : Shape Snapshot :=
  .record "TestHistorySnapshot"
    (.cons (.withDefault "history" (.list HistoryEntry.shape) []) .nil)
    (fun s ↦ (s.entries, ())) fun (entries, ()) ↦ ⟨entries⟩

/-- The entry with its idiom. -/
def resolve (catalog : Catalog) (e : HistoryEntry) : Except Failure (HistoryEntry × Idiom) :=
  match catalog.idiomOf? e.iroot with
  | some idiom => .ok (e, idiom)
  | none => .error (.unknownIRoot e.iroot)

def ofSnapshot (s : Snapshot) (catalog : Catalog) : Except Failure History :=
  (s.entries.mapM (resolve catalog)).map fun entries ↦ ⟨entries⟩

def size (h : History) : Nat := h.entries.length

def isEmpty (h : History) : Bool := h.entries.isEmpty

/-- The runs that targeted an iRoot of an idiom. -/
def of (h : History) (idiom : Idiom) : List HistoryEntry :=
  (h.entries.filter fun e ↦ e.2 == idiom).map (·.1)

/-- The runs of an idiom with a given result. -/
def withResult (h : History) (idiom : Idiom) (result : Bool) : List HistoryEntry :=
  (h.of idiom).filter fun e ↦ e.success == some result

/-- The different targets of some runs. -/
def targets (l : List HistoryEntry) : SortedSet IRootId := SortedSet.ofList (l.map (·.iroot))

def successCount (h : History) (idiom : Idiom) : Nat := (h.withResult idiom true).length

def failCount (h : History) (idiom : Idiom) : Nat := (h.withResult idiom false).length

def targetCount (h : History) (idiom : Idiom) : Nat := (targets (h.of idiom)).size

def successTargetCount (h : History) (idiom : Idiom) : Nat :=
  (targets (h.withResult idiom true)).size

def summary (h : History) : PerIdiom IdiomHistory := fun idiom ↦
  { success := h.successCount idiom
    fail := h.failCount idiom
    successIRoots := h.successTargetCount idiom
    failIRoots := h.targetCount idiom - h.successTargetCount idiom }

end History

/-! ## Summaries -/

namespace IdiomHistory

/-- The runs with a result. -/
def tests (c : IdiomHistory) : Nat := c.success + c.fail

def write (idiom : Idiom) (c : IdiomHistory) : Json :=
  .object [("idiom", Idiom.shape.write idiom), ("success", .nat c.success), ("fail", .nat c.fail),
    ("success_iroots", .nat c.successIRoots), ("fail_iroots", .nat c.failIRoots)]

end IdiomHistory

namespace History

def writeSummary (s : PerIdiom IdiomHistory) : Json :=
  .object [("per_idiom", .list (Idiom.all.map fun i ↦ (s i).write i))]

/-- The report: the counts of each idiom. -/
def summaryText (s : PerIdiom IdiomHistory) : String :=
  "Test History Summary\n---------------------------\n" ++ String.join (Idiom.all.map fun i ↦
    "# " ++ padRight 17 (i.text ++ " tests") ++ " = " ++ toString (s i).tests ++
      "\n  # succ            = " ++ toString (s i).success ++
      "\n  # fail            = " ++ toString (s i).fail ++
      "\n  # succ iroot      = " ++ toString (s i).successIRoots ++
      "\n  # fail iroot      = " ++ toString (s i).failIRoots ++ "\n")

end History

end Interleave
