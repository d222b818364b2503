import Interleave.Campaign.Kinds
import Interleave.Campaign.Phase
import Interleave.Display
import Interleave.Settings.Basic

/-!
# Plans of campaigns

A plan says which phases a campaign has and when each of them stops. What it leaves open is taken
from the settings. Everything is checked before the first run.
-/

namespace Interleave

/-- What is chosen for a phase; the settings say the rest. -/
structure PhaseChoice where
  mode : Option Mode := none
  threshold : Option UInt64 := none
  deriving DecidableEq

inductive Plan where
  | single (kind : CampaignKind) (choice : PhaseChoice)
  /-- Profile, and then test the candidates that were found, of one idiom or of any. -/
  | idiom (target : Option Idiom) (profile active : PhaseChoice)
  /-- Look for races, and then enumerate schedules that use them. -/
  | chessRace (race chess : PhaseChoice)
  deriving DecidableEq

/-- What a campaign runs, how far, and by which plan. -/
structure CampaignRequest where
  plan : Plan
  /-- Options of the engine, in the order in which they are set. -/
  options : List (String × String) := []
  /-- A cap on the runs of each phase. -/
  maxRuns : Option UInt64 := none
  /-- The program and its arguments. -/
  program : List String
  deriving DecidableEq

/-- The settings that a phase of a kind has. -/
def CampaignKind.phaseName : CampaignKind → PhaseName
  | native => .native
  | profile => .profile
  | active _ => .active
  | race => .race
  | chess _ => .chess
  | random _ => .random

/-- Why a campaign was not begun. -/
inductive PlanFault where
  | noProgram
  | zeroCap
  | phase (fault : SettingsFault)
  deriving DecidableEq

def PlanFault.message : PlanFault → String
  | noProgram => "No program given; pass it after \x60--\x60"
  | zeroCap => "--max-runs must be at least 1"
  | phase fault => fault.message

namespace Plan

/-- The name of the campaign. -/
def name : Plan → String
  | single kind _ => kind.label
  | idiom .. => "idiom"
  | chessRace .. => "chess-race"

def first : Plan → CampaignKind × PhaseChoice
  | single kind choice => (kind, choice)
  | idiom _ profile _ => (.profile, profile)
  | chessRace race _ => (.race, race)

/-- The second phase, if there is one. -/
def second? : Plan → Option (CampaignKind × PhaseChoice)
  | single .. => none
  | idiom target _ active => some (.active target, active)
  | chessRace _ chess => some (.chess true, chess)

end Plan

namespace PhaseChoice

/-- What is chosen, and for the rest what the settings say. -/
def withDefaults (c : PhaseChoice) (s : PhaseSettings) : PhaseSettings :=
  ⟨c.mode.getD s.mode, c.threshold.getD s.threshold⟩

/-- The stop rule of a phase. -/
def rule (c : PhaseChoice) (kind : CampaignKind) (s : CampaignSettings) (cap : Option UInt64) :
    Except PlanFault StopRule :=
  let settings := c.withDefaults (s.phase kind.phaseName)
  match settings.fault? kind.phaseName.text cap with
  | some e => .error (.phase e)
  | none => .ok settings.rule

end PhaseChoice

namespace CampaignRequest

/-- The run that is repeated. -/
def spec? (r : CampaignRequest) : Option RunSpec :=
  match r.program with
  | [] => none
  | program :: args =>
    some (r.options.foldl (fun spec (name, value) ↦ spec.withOption name value) { program, args })

/-- The cap on runs: the request's own, or else the one of the settings. -/
def cap (r : CampaignRequest) (s : CampaignSettings) : Option UInt64 := r.maxRuns.or s.maxRuns

end CampaignRequest

/-- A phase that has been checked. -/
structure PlannedPhase where
  kind : CampaignKind
  rule : StopRule
  deriving DecidableEq

/-- A campaign that has been checked. -/
structure Campaign where
  name : String
  spec : RunSpec
  cap : Option UInt64
  first : PlannedPhase
  second : Option PlannedPhase

/-- What a campaign came to. -/
structure CampaignReport where
  name : String
  status : Status
  fatal : Bool
  /-- The phases that ran. -/
  phases : List PhaseStats
  deriving DecidableEq

/-- How a campaign ended. -/
inductive CampaignResult where
  | report (r : CampaignReport)
  | failed (e : Failure)
  /-- The turns were not enough. -/
  | unfinished

namespace Campaign

/-- Checks a phase. -/
def plan (s : CampaignSettings) (cap : Option UInt64) (p : CampaignKind × PhaseChoice) :
    Except PlanFault PlannedPhase :=
  (p.2.rule p.1 s cap).map fun rule ↦ ⟨p.1, rule⟩

/-- Checks a request against the settings. -/
def ofRequest (r : CampaignRequest) (s : CampaignSettings) : Except PlanFault Campaign :=
  match r.spec? with
  | none => .error .noProgram
  | some spec =>
    let cap := r.cap s
    if cap = some 0 then .error .zeroCap
    else do
      let first ← plan s cap r.plan.first
      let second ← r.plan.second?.mapM (plan s cap)
      return { name := r.plan.name, spec, cap, first, second }

section

variable {ω : Type}

/-- A phase of the campaign over a world. -/
def phase (c : Campaign) (files : SnapshotPaths) (r : Reporting ω) (l : Launcher ω)
    (p : PlannedPhase) : Phase Progress ω where
  policy := p.kind.policy r files
  launcher := l
  rule := p.rule
  spec := c.spec
  maxRuns := c.cap

/-- What a call that came back says of the campaign. -/
def conclude {σ : Type} (c : Campaign) (r : Call σ ω) (fatal : Bool) (phases : List PhaseStats) :
    CampaignResult :=
  match r.answer with
  | .status status => .report { name := c.name, status, fatal, phases }
  | .failed e => .failed e
  | .unfinished => .unfinished

/-- Runs the campaign from its beginning, each phase for at most `turns` turns. -/
def run (c : Campaign) (files : SnapshotPaths) (r : Reporting ω) (l : Launcher ω) (turns : Nat)
    (w : ω) : CampaignResult × ω :=
  let first := c.phase files r l c.first
  match c.second with
  | none =>
    let call := first.run turns { kind := {} } w
    (c.conclude call call.state.status.isFatal [first.stats call.state call.world], call.world)
  | some second =>
    let both : TwoPhase Progress Progress ω := ⟨c.name, first, c.phase files r l second⟩
    let call := both.run turns ⟨{ kind := {} }, { kind := {} }, .notStarted⟩ w
    (c.conclude call call.state.isFatal (both.stats call.state call.world), call.world)

end

end Campaign

/-! ## Reports on campaigns -/

namespace CampaignReport

def text (r : CampaignReport) : String :=
  "Campaign " ++ r.name ++ ": " ++
    (if r.fatal then "fatal error detected" else "threshold reached") ++ "\n" ++
    (Table.ofStats r.phases).text

def write (r : CampaignReport) : Json :=
  .object [("campaign", .text r.name), ("state", Status.shape.write r.status),
    ("fatal", .bool r.fatal), ("phases", .list (r.phases.map PhaseStats.shape.write))]

end CampaignReport

end Interleave
