import Interleave.Command.Invocation
import Interleave.Json.Record
import Interleave.Settings.Basic
import Interleave.Settings.Load
import Interleave.Target.Launch

/-!
# Carrying out commands

A command loads the settings and then does its work. Its result is printed on the console, as a text
or as JSON with the fields of objects in ascending order. The exit status tells a fatal run (1) from
a failure of the command itself (2).

What a command finds outside of itself is a *host*: settings, files, a console, and what launches
runs and appends to logs. A machine is a host.

A campaign need not end. So a command is given a number of turns for each phase, and has no result
if they are not enough.
-/

namespace Interleave

/-- Why a command failed. -/
inductive CommandFailure where
  | settings (e : SettingsFailure)
  /-- The logger cannot be set up. -/
  | logger (reason : String)
  | plan (e : PlanFault)
  /-- A campaign failed in one of its runs. -/
  | campaign (name : String) (cause : Failure)
  | memo (change : MemoChange) (cause : Failure)
  | load (e : LoadFailure)

/-- The messages of a failure: what failed, and then its causes. -/
def CommandFailure.chain : CommandFailure → List String
  | settings e => [e.message]
  | logger reason => [reason]
  | plan e => [e.message]
  | campaign name cause => [name ++ " campaign failed", cause.message]
  | memo change cause => ["Memo " ++ change.text ++ " failed", cause.message]
  | load e => [e.attempt, e.cause.message]

/-- How a failure is reported. -/
def CommandFailure.report (e : CommandFailure) (json : Bool) : String :=
  if json then
    (Json.object
      [("causes", .list (e.chain.map .text)), ("error", .text (e.chain.headD ""))]).compact
  else "Error: " ++ ": ".intercalate e.chain

/-- What a command without failure ends with. -/
inductive ExitStatus where
  | success
  /-- A run was fatal. -/
  | fatal
  deriving DecidableEq, Repr

/-- The result of a command. -/
structure Done (ω : Type) where
  status : Except CommandFailure ExitStatus
  world : ω

/-- The status that the program as a whole ends with. -/
def Done.exitStatus {ω : Type} (d : Done ω) : Nat :=
  match d.status with
  | .ok .success => 0
  | .ok .fatal => 1
  | .error _ => 2

/-! ## Hosts -/

/-- What a command finds outside of itself. -/
structure Host (ω : Type) where
  /-- Loads the settings: those of a file, or else of the project. -/
  load : ω → Option String → Except SettingsFailure Settings
  tree : ω → Tree
  withTree : ω → Tree → ω
  print : ω → String → ω
  launcher : Engine → Launcher ω
  reporting : Report.Files → Reporting ω

/-- Prints a result. -/
def Host.put {ω : Type} (h : Host ω) (w : ω) (json : Bool) (s : Shown) : ω :=
  h.print w ((if json then s.json.sorted.pretty else s.text) ++ "\n")

namespace Machine

/-- Changes the files by an operation that may be refused. -/
def updateFiles (f : Tree → Except Failure Tree) : Act Machine Unit := fun m ↦
  match f m.tree with
  | .ok t => .ok () { m with tree := t }
  | .error e => .error e m

/-- Reports on the machine's own files. -/
def reporting (files : Report.Files) : Reporting Machine where
  tree := Machine.tree
  recordCoverage label used observed :=
    updateFiles fun t ↦ Report.recordCoverage t files label used observed
  recordTiming used := updateFiles fun t ↦ Report.recordTiming t files used

def host : Host Machine where
  load m file := Settings.load .standard m.tree m.environment file
  tree := Machine.tree
  withTree m t := { m with tree := t }
  print := Machine.print
  launcher := Engine.launcher
  reporting := Machine.reporting

end Machine

/-! ## Commands -/

/-- What decides for itself in a command: how many turns a phase may take, the seed of a sample that
has none, and what makes temporary names unique. -/
structure Circumstances where
  turns : Nat := UInt64.size / 4
  seed : UInt64 := 0
  tag : String

namespace Command

/-- What is shown of a change to a memo; no summary means that there was nothing to do. -/
def showChange (c : MemoChange) (source target : String) (summary : Option MemoSummary) :
    Shown where
  text := match summary with
    | some s => "Memo " ++ c.text ++ " written to " ++ target ++ "\n" ++ Table.summaryText s
    | none => "Nothing to do: input memo missing for " ++ c.text
  json := .object
    [("operation", .text c.text), ("memo_in", .text source), ("memo_out", .text target),
      ("applied", .bool summary.isSome), ("summary", Json.nullable MemoSummary.shape.write summary)]

variable {ω : Type}

def runCampaign (r : CampaignRequest) (h : Host ω) (s : Settings) (json : Bool) (turns : Nat)
    (w : ω) : Option (Done ω) :=
  match Campaign.ofRequest r s.campaign with
  | .error e => some ⟨.error (.plan e), w⟩
  | .ok c =>
    let launcher := h.launcher (Engine.ofSettings s.engine)
    match c.run s.snapshots (h.reporting s.reports) launcher turns w with
    | (.failed e, w) => some ⟨.error (.campaign c.name e), w⟩
    | (.unfinished, _) => none
    | (.report r, w) =>
      some ⟨.ok (if r.fatal then .fatal else .success), h.put w json ⟨r.text, r.write⟩⟩

def runMemo (source target : Option String) (c : MemoChange) (h : Host ω) (s : Settings)
    (json : Bool) (x : Circumstances) (w : ω) : Done ω :=
  let source := source.getD s.snapshots.memo
  let target := target.getD s.snapshots.memo
  match c.run (h.tree w) s.snapshots source target x.tag x.seed with
  | (t, .error e) => ⟨.error (.memo c e), h.withTree w t⟩
  | (t, .ok summary) =>
    ⟨.ok .success, h.put (h.withTree w t) json (showChange c source target summary)⟩

def runView (v : View) (files : ViewFiles) (h : Host ω) (s : Settings) (json : Bool) (w : ω) :
    Done ω :=
  match v.showFiles (h.tree w) (files.withDefaults s.snapshots) with
  | .error e => ⟨.error (.load e), w⟩
  | .ok shown => ⟨.ok .success, h.put w json shown⟩

def run (c : Command) (h : Host ω) (s : Settings) (json : Bool) (x : Circumstances) (w : ω) :
    Option (Done ω) :=
  match c with
  | campaign r => runCampaign r h s json x.turns w
  | memo source target change => some (runMemo source target change h s json x w)
  | display files view => some (runView view files h s json w)

end Command

/-- Carries out what a command line asks for. -/
def Invocation.run {ω : Type} (i : Invocation) (h : Host ω) (x : Circumstances) (w : ω) :
    Option (Done ω) :=
  match h.load w i.config with
  | .error e => some ⟨.error (.settings e), w⟩
  | .ok s =>
    match ((Logger.ofSettings s.logging).withVerbosity i.verbose).refusal? with
    | some reason => some ⟨.error (.logger reason), w⟩
    | none => i.command.run h s i.json x w

/-! ## Command lines that are not carried out -/

namespace UsageFault

/-- What is printed if a command line asks for the version. -/
def versionText : String := "ravel 0.1.0\n"

/-- Asking for help or the version is no failure. -/
def exitStatus : UsageFault → Nat
  | helpAsked | versionAsked => 0
  | _ => 2

/-- What is printed on the console. -/
def console : UsageFault → String
  | versionAsked => versionText
  | _ => ""

end UsageFault

end Interleave
