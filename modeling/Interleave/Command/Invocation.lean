import Interleave.Campaign.Plan
import Interleave.Command.Level
import Interleave.Display
import Interleave.Memo.Offline

/-!
# Commands

What can be displayed of the databases, and what a command line asks for.
-/

namespace Interleave

/-!
## Views of the databases

Each view loads what it shows from files, with all that these files refer to, and comes out both as
a text and as a JSON value.
-/

inductive View where
  | images
  | insts
  | iroots
  | memoSummary
  | memoExposed
  /-- Whether a candidate of an idiom, or of any, is queued. -/
  | hasCandidate (idiom : Option Idiom)
  | testHistory
  | testHistorySummary
  deriving DecidableEq

/-- Files to show in place of those of the settings. -/
structure ViewFiles where
  registry : Option String := none
  catalog : Option String := none
  memo : Option String := none
  history : Option String := none
  deriving DecidableEq

/-- A file that could not be loaded, and what it was loaded as. -/
structure LoadFailure where
  what : String
  path : String
  cause : Failure

/-- What was attempted. -/
def LoadFailure.attempt (f : LoadFailure) : String := "Failed to load " ++ f.what ++ " " ++ f.path

/-- Something to show. -/
structure Shown where
  text : String
  json : Json

namespace View

variable (t : Tree) (p : SnapshotPaths)

def loading {α : Type} (what path : String) (r : Except Failure α) : Except LoadFailure α :=
  r.mapError fun cause ↦ { what, path, cause }

def loadRegistry : Except LoadFailure Registry :=
  loading "static registry" p.registry (t.loadRegistry p.registry)

def loadCatalog : Except LoadFailure (Registry × Catalog) := do
  let registry ← loadRegistry t p
  let catalog ← loading "iRoot catalog" p.catalog (t.loadCatalog p.catalog registry)
  return (registry, catalog)

def loadMemo : Except LoadFailure (Catalog × Memo) := do
  let (_, catalog) ← loadCatalog t p
  let memo ← loading "memo" p.memo (t.loadMemo p.memo catalog)
  return (catalog, memo)

def loadHistory : Except LoadFailure History := do
  let (_, catalog) ← loadCatalog t p
  loading "test history" p.history (t.loadHistory p.history catalog)

/-! ### What the views show -/

/-- The exposed iRoots of the catalog with their idioms. -/
def exposed (c : Catalog) (m : Memo) : List (IRootId × Idiom) :=
  m.exposed.keys.filterMap fun id ↦ (c.idiomOf? id).map fun idiom ↦ (id, idiom)

def exposedText (l : List (IRootId × Idiom)) : String :=
  if l.isEmpty then "No exposed iRoots."
  else "\n".intercalate (l.map fun (id, idiom) ↦ padRight 5 id.text ++ " " ++ idiom.text)

def exposedJson (l : List (IRootId × Idiom)) : Json :=
  .list (l.map fun (id, idiom) ↦
    .object [("id", Id.shape.write id), ("idiom", Idiom.shape.write idiom)])

/-- Loads and shows a view of some files. -/
def showFiles (v : View) : Except LoadFailure Shown :=
  match v with
  | images => (loadRegistry t p).map fun r ↦
      ⟨(Table.ofImages r).text, .list (r.images.values.map Image.shape.write)⟩
  | insts => (loadRegistry t p).map fun r ↦
      ⟨(Table.ofInsts r).text, .list (r.insts.values.map Inst.shape.write)⟩
  | iroots => (loadCatalog t p).map fun (r, c) ↦
      ⟨(Table.ofIRoots c r).text, Catalog.Snapshot.shape.write c.toSnapshot⟩
  | memoSummary => (loadMemo t p).map fun (c, m) ↦
      let s := m.summary c
      ⟨Table.summaryText s, MemoSummary.shape.write s⟩
  | memoExposed => (loadMemo t p).map fun (c, m) ↦
      let l := exposed c m
      ⟨exposedText l, exposedJson l⟩
  | hasCandidate idiom => (loadMemo t p).map fun (c, m) ↦
      let found := m.hasCandidate c idiom
      ⟨if found then "1" else "0",
        .object [("idiom", Json.nullable Idiom.shape.write idiom), ("has_candidate", .bool found)]⟩
  | testHistory => (loadHistory t p).map fun h ↦
      ⟨(Table.ofHistory h).text, .list (h.entries.map fun (e, _) ↦ HistoryEntry.shape.write e)⟩
  | testHistorySummary => (loadHistory t p).map fun h ↦
      let s := h.summary
      ⟨(Table.ofHistorySummary s).text, History.writeSummary s⟩

end View

/-- The files to show: those that are named, and for the rest those of the settings. -/
def ViewFiles.withDefaults (f : ViewFiles) (p : SnapshotPaths) : SnapshotPaths :=
  { p with
    registry := f.registry.getD p.registry
    catalog := f.catalog.getD p.catalog
    memo := f.memo.getD p.memo
    history := f.history.getD p.history }

/-!
## What a command line asks for

The meaning of a command line that has been read: the options of the program, and one of a
campaign, a change to a memo, or a view of the databases.

An inherited option may be given at several levels. Then a value from the command line counts more
than one from the environment, and among equals the deepest level counts.
-/

inductive Command where
  | campaign (request : CampaignRequest)
  /-- A change from one memo file to another; without a name each is the file of the settings. -/
  | memo (source target : Option String) (change : MemoChange)
  | display (files : ViewFiles) (view : View)
  deriving DecidableEq

structure Invocation where
  /-- Whether results and failures are written as JSON. -/
  json : Bool := false
  /-- The file of settings to use in place of the project's. -/
  config : Option String := none
  verbose : Nat := 0
  command : Command
  deriving DecidableEq

/-- What is given at the levels of a command line. -/
abbrev Levels := List (String × Givens)

namespace Levels

/-- Whether one source counts at least as much as another. -/
def atLeast : ArgSource → ArgSource → Bool
  | .commandLine, _ => true
  | .environment, s => s == .environment

/-- What is given for an option or operand. -/
def find? (ls : Levels) (name : String) : Option Given :=
  ls.foldl (fun best (_, givens) ↦
    match givens.lookup name, best with
    | some g, some b => if atLeast g.source b.source then some g else some b
    | some g, none => some g
    | none, best => best) none

def has (ls : Levels) (name : String) : Bool := (ls.find? name).isSome

def values (ls : Levels) (name : String) : List ArgValue := (ls.find? name).elim [] (·.values)

def count (ls : Levels) (name : String) : Nat := (ls.find? name).elim 0 (·.count)

def path? (ls : Levels) (name : String) : Option String :=
  (ls.values name).findSome? fun
    | .path p => some p
    | _ => none

def number? (ls : Levels) (name : String) : Option UInt64 :=
  (ls.values name).findSome? fun
    | .number n => some n
    | _ => none

def mode? (ls : Levels) (name : String) : Option Mode :=
  (ls.values name).findSome? fun
    | .mode m => some m
    | _ => none

def idiom? (ls : Levels) (name : String) : Option Idiom :=
  (ls.values name).findSome? fun
    | .idiom i => some i
    | _ => none

def scheduler? (ls : Levels) (name : String) : Option Scheduler :=
  (ls.values name).findSome? fun
    | .scheduler s => some s
    | _ => none

def knobs (ls : Levels) (name : String) : List (String × String) :=
  (ls.values name).filterMap fun
    | .knob n v => some (n, v)
    | _ => none

def words (ls : Levels) (name : String) : List String :=
  (ls.values name).filterMap fun
    | .word s => some s
    | _ => none

/-! ### Commands -/

def request (ls : Levels) (plan : Plan) : Command :=
  .campaign
    { plan
      options := ls.knobs "option"
      maxRuns := ls.number? "max-runs"
      program := ls.words "program" }

/-- The choice for the phase of a campaign that has only one. -/
def choice (ls : Levels) : PhaseChoice := ⟨ls.mode? "mode", ls.number? "threshold"⟩

def choiceOf (ls : Levels) (phase : String) : PhaseChoice :=
  ⟨ls.mode? (phase ++ "-mode"), ls.number? (phase ++ "-threshold")⟩

def plan? (ls : Levels) : String → Option Plan
  | "native" => some (.single .native ls.choice)
  | "profile" => some (.single .profile ls.choice)
  | "active" => some (.single (.active (ls.idiom? "idiom")) ls.choice)
  | "race" => some (.single .race ls.choice)
  | "chess" => some (.single (.chess false) ls.choice)
  | "random" => some (.single (.random ((ls.scheduler? "scheduler").getD .pct)) ls.choice)
  | "idiom" => some (.idiom (ls.idiom? "idiom") (ls.choiceOf "profile") (ls.choiceOf "active"))
  | "chess-race" => some (.chessRace (ls.choiceOf "race") (ls.choiceOf "chess"))
  | _ => none

def change? (ls : Levels) : String → Option MemoChange
  | "merge" => (ls.path? "other").map .merge
  | "apply" => (ls.path? "other").map fun other ↦ .apply other !(ls.has "no-memo-failed")
  | "refine" => some (.refine !(ls.has "no-memo-failed"))
  | "close" => some .close
  | "input-change" => some .inputChange
  | "sample" =>
    match ls.idiom? "idiom", ls.number? "num" with
    | some idiom, some num => some (.sample idiom num.toNat (ls.number? "seed"))
    | _, _ => none
  | _ => none

def view? (ls : Levels) : String → Option View
  | "images" => some .images
  | "insts" => some .insts
  | "iroots" => some .iroots
  | "memo-summary" => some .memoSummary
  | "memo-exposed" => some .memoExposed
  | "has-candidate" => some (.hasCandidate (ls.idiom? "idiom"))
  | "test-history" => some .testHistory
  | "test-history-summary" => some .testHistorySummary
  | _ => none

def viewFiles (ls : Levels) : ViewFiles where
  registry := ls.path? "sinfo-in"
  catalog := ls.path? "iroot-in"
  memo := ls.path? "memo-in"
  history := ls.path? "test-history"

/-- The command that the names of the levels below the first one make up. -/
def command? (ls : Levels) : Option Command :=
  match ls.tail.map (·.1) with
  | [name] => (ls.plan? name).map ls.request
  | ["memo", name] =>
    (ls.change? name).map fun c ↦ .memo (ls.path? "memo-in") (ls.path? "memo-out") c
  | ["display", name] => (ls.view? name).map fun v ↦ .display ls.viewFiles v
  | _ => none

end Levels

namespace Invocation

def ofLevels (ls : Levels) : Except UsageFault Invocation :=
  match ls.command? with
  | some command => .ok
      { json := ls.has "json"
        config := ls.path? "config"
        verbose := ls.count "verbose"
        command }
  | none => .error .missingCommand

/-- What the arguments behind the name of the program ask for. -/
def read (env : Environment) (args : List String) : Except UsageFault Invocation :=
  (Usage.read env args).bind ofLevels

end Invocation

end Interleave
