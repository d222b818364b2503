import Interleave.Campaign.Phase
import Interleave.Databases

/-!
# The kinds of campaigns

* *native*: plain runs; their times are logged;
* *profile*: builds coverage and follows the number of predicted iRoots;
* *active*: targets queued candidates, of one idiom or of any, until none is left;
* *race*: looks for races and follows the numbers of races and racy instructions;
* *chess*: enumerates schedules until the search is done, with or without the races found before;
* *random*: runs under a randomized scheduler, which gives its name to the coverage lines.

After each run a kind reloads the snapshots that it follows. What it knows between runs is its
`Progress`.
-/

namespace Interleave

inductive CampaignKind where
  | native
  | profile
  | active (target : Option Idiom)
  | race
  | chess (withRaces : Bool)
  | random (scheduler : Scheduler)
  deriving DecidableEq

/-- What a campaign of any kind knows of its progress. -/
structure Progress where
  metric : Metric := .zero
  exhausted : Bool := false
  deriving DecidableEq, Inhabited

/-- Where a campaign reads its snapshots and reports to. -/
structure Reporting (ω : Type) where
  tree : ω → Tree
  recordCoverage : (label : String) → (used : Span) → (observed : PerIdiom Nat) → Act ω Unit
  recordTiming : (used : Span) → Act ω Unit

namespace CampaignKind

def label : CampaignKind → String
  | native => "native"
  | profile => "profile"
  | active _ => "active"
  | race => "race"
  | chess _ => "chess"
  | random _ => "random"

/-! ## Options -/

/-- One file for both input and output. -/
def inOut (name path : String) (r : RunSpec) : RunSpec :=
  (r.withOption (name ++ "_in") path).withOption (name ++ "_out") path

/-- The files of registry, catalog and memo. -/
def memoOptions (p : SnapshotPaths) (r : RunSpec) : RunSpec :=
  inOut "memo" p.memo (inOut "iroot" p.catalog (inOut "sinfo" p.registry r))

def configure (k : CampaignKind) (p : SnapshotPaths) (r : RunSpec) : RunSpec :=
  match k with
  | native => r
  | profile => memoOptions p r
  | active none => memoOptions p r
  | active (some idiom) =>
    (memoOptions p r).withOption "target_idiom" (toString (idiom.index + 1))
  | race => inOut "race" p.race (inOut "sinfo" p.registry r)
  | chess withRaces =>
    let r := inOut "search" p.search (memoOptions p r)
    if withRaces then (r.withOption "sched_race" "1").withOption "race_in" p.race else r
  | random .pct => (memoOptions p r).withOption "strict" "1"
  | random .pctLarge => memoOptions p r
  | random .randDelay => (memoOptions p r).withOption "delay" "1"

/-! ## Bookkeeping -/

section

variable {ω : Type}

/-- An action on the world alone. -/
def onWorld {κ α : Type} (act : Act ω α) : Act (κ × ω) α := fun (k, w) ↦
  match act w with
  | .ok a w => .ok a (k, w)
  | .error e w => .error e (k, w)

/-- Sets what is known of the progress. -/
def setProgress (p : Progress) : Act (Progress × ω) Unit := fun (_, w) ↦ .ok () (p, w)

/-- Loads something from the tree as it is now. -/
def fromTree {κ α : Type} (r : Reporting ω) (load : Tree → Except Failure α) : Act (κ × ω) α :=
  fun (k, w) ↦
    match load (r.tree w) with
    | .ok a => .ok a (k, w)
    | .error e => .error e (k, w)

/-- Reloads the databases and reports what the memo has seen happen. -/
def logCoverage {κ : Type} (r : Reporting ω) (p : SnapshotPaths) (name : String)
    (record : RunRecord) : Act (κ × ω) Databases := do
  let d ← fromTree r fun t ↦ t.loadDatabases p
  onWorld (r.recordCoverage name record.used (d.memo.observedCounts d.catalog))
  return d

def afterRun (k : CampaignKind) (r : Reporting ω) (p : SnapshotPaths) (record : RunRecord) :
    Act (Progress × ω) Unit :=
  match k with
  | native => onWorld (r.recordTiming record.used)
  | profile => do
    let d ← logCoverage r p k.label record
    setProgress { metric := .single d.memo.predicted.size }
  | active target => do
    let d ← logCoverage r p k.label record
    setProgress { exhausted := !d.memo.hasCandidate d.catalog target }
  | race => do
    let races ← fromTree r fun t ↦ do
      let registry ← t.loadRegistry p.registry
      t.loadRaceDb p.race registry
    setProgress { metric := races.metric }
  | chess _ => do
    let search ← fromTree r fun t ↦ t.loadSearch p.search
    setProgress { exhausted := search.done }
    let _ ← logCoverage r p k.label record
  | random scheduler => do
    let _ ← logCoverage r p scheduler.text record

def metric? (k : CampaignKind) (progress : Progress) : Option Metric :=
  match k with
  | profile | race => some progress.metric
  | native | active _ | chess _ | random _ => none

/-- The policy of a kind of campaign over some snapshot files. -/
def policy (k : CampaignKind) (r : Reporting ω) (p : SnapshotPaths) : Policy Progress ω where
  label := k.label
  configure := k.configure p
  afterRun _ record := k.afterRun r p record
  metric := k.metric?
  exhausted progress := progress.exhausted

end

end CampaignKind

end Interleave
