import Interleave.Campaign.Basic
import Interleave.Databases

/-!
# Settings

What can be configured: logging, the files of the databases, how the engine is launched, the report
files, and when each kind of campaign stops. Every setting has a default.
-/

namespace Interleave

structure LoggingSettings where
  level : String := "info"
  format : String := "pretty"
  /-- Directory of log files; none means the console only. -/
  dir : Option String := none
  deriving DecidableEq, Inhabited

/-- How runs are launched. -/
structure EngineSettings where
  /-- The command that runs the engine; if empty, the target runs directly. -/
  command : List String := []
  /-- A run that takes longer hangs. -/
  runTimeoutSecs : UInt64 := 3600
  /-- Whether a non-zero exit status means a wrong result. -/
  strictExit : Bool := false
  /-- Whether the target reads the console. -/
  inheritStdin : Bool := true
  deriving DecidableEq, Inhabited

/-- When a phase stops. -/
structure PhaseSettings where
  mode : Mode
  /-- Runs or seconds, as the mode says. -/
  threshold : UInt64
  deriving DecidableEq

def PhaseSettings.rule (s : PhaseSettings) : StopRule := .ofMode s.mode s.threshold

/-- The kinds of phases that have settings. -/
inductive PhaseName where
  | native
  | profile
  | active
  | race
  | chess
  | random
  deriving DecidableEq, Repr, Inhabited

namespace PhaseName

def all : List PhaseName := [native, profile, active, race, chess, random]

def text : PhaseName → String
  | native => "native"
  | profile => "profile"
  | active => "active"
  | race => "race"
  | chess => "chess"
  | random => "random"

/-- What a phase does unless it is told otherwise: phases that follow a metric stop when it is
stable, phases with work to do when they have done it, and the others after one run. -/
def standard : PhaseName → PhaseSettings
  | native | random => ⟨.runout, 1⟩
  | profile | race => ⟨.stable, 3⟩
  | active | chess => ⟨.finish, 1⟩

end PhaseName

structure CampaignSettings where
  /-- A cap on the runs of each phase. -/
  maxRuns : Option UInt64 := none
  phase : PhaseName → PhaseSettings := PhaseName.standard

structure Settings where
  logging : LoggingSettings := {}
  snapshots : SnapshotPaths := {}
  engine : EngineSettings := {}
  reports : Report.Files := {}
  campaign : CampaignSettings := {}

/-! ## JSON -/

def LoggingSettings.shape : Shape LoggingSettings :=
  .record "LoggingConfig"
    (.cons (.withDefault "level" .text "info") <| .cons (.withDefault "format" .text "pretty") <|
      .cons (.omittable "log_dir" .text) .nil)
    (fun s ↦ (s.level, s.format, s.dir, ())) fun (level, format, dir, ()) ↦ ⟨level, format, dir⟩

def SnapshotPaths.shape : Shape SnapshotPaths :=
  .record "SnapshotPaths"
    (.cons (.withDefault "sinfo" .text "sinfo.json") <|
      .cons (.withDefault "iroot" .text "iroot.json") <|
      .cons (.withDefault "memo" .text "memo.json") <|
      .cons (.withDefault "race" .text "race.json") <|
      .cons (.withDefault "search" .text "search.json") <|
      .cons (.withDefault "test_history" .text "test_history.json") .nil)
    (fun p ↦ (p.registry, p.catalog, p.memo, p.race, p.search, p.history, ()))
    fun (registry, catalog, memo, race, search, history, ()) ↦
      ⟨registry, catalog, memo, race, search, history⟩

def EngineSettings.shape : Shape EngineSettings :=
  .record "EngineConfig"
    (.cons (.withDefault "command" (.list .text) []) <|
      .cons (.withDefault "run_timeout_secs" .word64 3600) <|
      .cons (.withDefault "mismatch_on_nonzero_exit" .bool false) <|
      .cons (.withDefault "inherit_stdin" .bool true) .nil)
    (fun s ↦ (s.command, s.runTimeoutSecs, s.strictExit, s.inheritStdin, ()))
    fun (command, runTimeoutSecs, strictExit, inheritStdin, ()) ↦
      ⟨command, runTimeoutSecs, strictExit, inheritStdin⟩

def Report.Files.shape : Shape Report.Files :=
  .record "ReportingConfig"
    (.cons (.withDefault "coverage_log" .text "coverage") <|
      .cons (.withDefault "timing_log" .text "timing") .nil)
    (fun f ↦ (f.coverage, f.timing, ())) fun (coverage, timing, ()) ↦ ⟨coverage, timing⟩

def PhaseSettings.shape : Shape PhaseSettings :=
  .record "PhaseConfig"
    (.cons (.required "mode" Mode.shape) <| .cons (.required "threshold" .word64) .nil)
    (fun s ↦ (s.mode, s.threshold, ())) fun (mode, threshold, ()) ↦ ⟨mode, threshold⟩

def CampaignSettings.shape : Shape CampaignSettings :=
  let field := fun (p : PhaseName) ↦ Field.withDefault p.text PhaseSettings.shape p.standard
  .record "CampaignConfig"
    (.cons (.omittable "max_runs" .word64) <| .cons (field .native) <| .cons (field .profile) <|
      .cons (field .active) <| .cons (field .race) <| .cons (field .chess) <|
      .cons (field .random) .nil)
    (fun s ↦ (s.maxRuns, s.phase .native, s.phase .profile, s.phase .active, s.phase .race,
      s.phase .chess, s.phase .random, ()))
    fun (maxRuns, native, profile, active, race, chess, random, ()) ↦
      ⟨maxRuns, fun
        | .native => native
        | .profile => profile
        | .active => active
        | .race => race
        | .chess => chess
        | .random => random⟩

def Settings.shape : Shape Settings :=
  .record "Config"
    (.cons (.withDefault "logging" LoggingSettings.shape {}) <|
      .cons (.withDefault "snapshots" SnapshotPaths.shape {}) <|
      .cons (.withDefault "engine" EngineSettings.shape {}) <|
      .cons (.withDefault "reporting" Report.Files.shape {}) <|
      .cons (.withDefault "campaign" CampaignSettings.shape {}) .nil)
    (fun s ↦ (s.logging, s.snapshots, s.engine, s.reports, s.campaign, ()))
    fun (logging, snapshots, engine, reports, campaign, ()) ↦
      ⟨logging, snapshots, engine, reports, campaign⟩

/-!
## Checking settings

Settings are refused that name an unknown level or format, leave a file without a name, give a run
no time, or describe a campaign that would stop before its first run or never. A rule that follows a
metric or asks for work to be done stops only phases that have one; with a cap on the runs every
rule will do.
-/

/-- The first thing that is wrong with some settings. -/
inductive SettingsFault where
  | invalidLevel (level : String)
  | invalidFormat (format : String)
  | emptySnapshotPath (name : String)
  | emptyReportPath (name : String)
  | zeroTimeout
  | zeroCap
  /-- A number of runs of zero. -/
  | zeroThreshold (phase : String) (mode : Mode)
  /-- A rule that cannot stop the phase, and no cap. -/
  | unbounded (phase : String) (mode : Mode)
  deriving DecidableEq

def SettingsFault.message : SettingsFault → String
  | .invalidLevel level =>
    "Invalid log level: " ++ level ++ ". Must be one of: trace, debug, info, warn, error"
  | .invalidFormat format => "Invalid log format: " ++ format ++ ". Must be one of: json, pretty"
  | .emptySnapshotPath name => "Snapshot path for " ++ name ++ " cannot be empty"
  | .emptyReportPath name => "Report path for " ++ name ++ " cannot be empty"
  | .zeroTimeout => "Invalid run_timeout_secs: 0. Must be at least 1"
  | .zeroCap => "Invalid max_runs: 0. Omit it for no cap"
  | .zeroThreshold phase mode =>
    "Invalid threshold for " ++ phase ++ ": " ++ mode.text ++
      " mode needs a threshold of at least 1"
  | .unbounded phase mode =>
    "Invalid mode for " ++ phase ++ ": " ++ mode.text ++
      " mode never stops on its own. Set max_runs or use runout/timeout"

/-- Whether a mode stops a phase without a cap on its runs. -/
def Mode.stops (m : Mode) (phase : String) : Bool :=
  match m with
  | .runout | .timeout => true
  | .stable => phase == "profile" || phase == "race"
  | .finish => phase == "active" || phase == "chess"

/-- What is wrong with the settings of a phase. -/
def PhaseSettings.fault? (s : PhaseSettings) (phase : String) (maxRuns : Option UInt64) :
    Option SettingsFault :=
  if s.mode = .runout ∧ s.threshold = 0 then some (.zeroThreshold phase s.mode)
  else if maxRuns.isNone ∧ !s.mode.stops phase then some (.unbounded phase s.mode)
  else none

def LoggingSettings.levels : List String := ["trace", "debug", "info", "warn", "error"]

def LoggingSettings.formats : List String := ["json", "pretty"]

namespace Settings

/-- The files that need a name, in the order in which they are looked at. -/
def requiredFiles (s : Settings) : List (String × String) :=
  [("sinfo", s.snapshots.registry), ("iroot", s.snapshots.catalog), ("memo", s.snapshots.memo),
    ("race", s.snapshots.race), ("search", s.snapshots.search)]

def reportFiles (s : Settings) : List (String × String) :=
  [("coverage_log", s.reports.coverage), ("timing_log", s.reports.timing)]

/-- The first file without a name. -/
def unnamed (fault : String → SettingsFault) (files : List (String × String)) :
    Option SettingsFault :=
  (files.find? fun f ↦ f.2 == "").map fun f ↦ fault f.1

def loggingFault? (s : Settings) : Option SettingsFault :=
  if s.logging.level ∉ LoggingSettings.levels then some (.invalidLevel s.logging.level)
  else if s.logging.format ∉ LoggingSettings.formats then some (.invalidFormat s.logging.format)
  else none

def phasesFault? (s : Settings) : Option SettingsFault :=
  PhaseName.all.findSome? fun p ↦ (s.campaign.phase p).fault? p.text s.campaign.maxRuns

/-- The first fault of the settings. -/
def fault? (s : Settings) : Option SettingsFault :=
  s.loggingFault? |>.or (unnamed .emptySnapshotPath s.requiredFiles)
    |>.or (unnamed .emptyReportPath s.reportFiles)
    |>.or (if s.engine.runTimeoutSecs = 0 then some .zeroTimeout else none)
    |>.or (if s.campaign.maxRuns = some 0 then some .zeroCap else none)
    |>.or s.phasesFault?

/-- The settings, if they can be used. -/
def check (s : Settings) : Except SettingsFault Unit :=
  match s.fault? with
  | some e => .error e
  | none => .ok ()

end Settings

/-!
## Logger settings

What the `logging` section and the verbosity of the command line come to.
-/

inductive LogFormat where
  | json
  | pretty
  deriving DecidableEq, Repr, Inhabited

inductive Rotation where
  | daily
  | hourly
  | never
  deriving DecidableEq, Repr, Inhabited

namespace LogFormat

def all : List LogFormat := [json, pretty]

def text : LogFormat → String
  | json => "json"
  | pretty => "pretty"

def ofText? (s : String) : Option LogFormat :=
  let t := lowerText s
  all.find? fun f ↦ f.text == t

/-- The message about a text that names no format. -/
def refusal (s : String) : String := "Invalid log format: " ++ s

def shape : Shape LogFormat := .choice all text

end LogFormat

namespace Rotation

def all : List Rotation := [daily, hourly, never]

def text : Rotation → String
  | daily => "daily"
  | hourly => "hourly"
  | never => "never"

def shape : Shape Rotation := .choice all text

end Rotation

/-- The settings of a logger. -/
structure Logger where
  level : String := "info"
  format : LogFormat := .pretty
  /-- Directory of log files; none means the console only. -/
  dir : Option String := none
  console : Bool := true
  rotation : Rotation := .daily
  deriving DecidableEq

namespace Logger

/-- A format that does not exist counts as `pretty`. -/
def ofSettings (s : LoggingSettings) : Logger :=
  { level := s.level, format := (LogFormat.ofText? s.format).getD .pretty, dir := s.dir }

/-- The more often verbosity is asked for, the lower the level, down to `trace`. -/
def withVerbosity (l : Logger) : Nat → Logger
  | 0 => l
  | 1 => { l with level := "debug" }
  | _ => { l with level := "trace" }

/-- What is wrong with the level, whose case does not matter. -/
def refusal? (l : Logger) : Option String :=
  if ["trace", "debug", "info", "warn", "error"].contains (lowerText l.level) then none
  else some ("Invalid log level: " ++ l.level)

def shape : Shape Logger :=
  .record "LogConfig"
    (.cons (.required "level" .text) <| .cons (.required "format" LogFormat.shape) <|
      .cons (.nullable "log_dir" .path) <| .cons (.required "enable_stderr" .bool) <|
      .cons (.required "rotation" Rotation.shape) .nil)
    (fun l ↦ (l.level, l.format, l.dir, l.console, l.rotation, ()))
    fun (level, format, dir, console, rotation, ()) ↦ ⟨level, format, dir, console, rotation⟩

end Logger

end Interleave
