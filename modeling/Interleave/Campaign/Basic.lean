import Interleave.Clock
import Interleave.Files.Tree
import Interleave.Json.Choice
import Interleave.Json.Record
import Interleave.Text.Basic

/-!
# What campaigns are about

A campaign repeats a run until a stop rule is satisfied. Here is what it repeats, how a run ends,
the rules and what they go by, and what is reported of it all.
-/

namespace Interleave

/-!
## How a run ended

Every run that does not end normally is fatal: it ends the campaign.
-/

inductive Outcome where
  | normal
  /-- The target died from a signal. -/
  | crash
  /-- The target did not end in time and was killed. -/
  | hang
  /-- The target ended with a wrong result. -/
  | mismatch
  deriving DecidableEq, Repr, Inhabited

namespace Outcome

def all : List Outcome := [normal, crash, hang, mismatch]

def isFatal : Outcome → Bool
  | normal => false
  | crash | hang | mismatch => true

def text : Outcome → String
  | normal => "normal"
  | crash => "crash"
  | hang => "hang"
  | mismatch => "mismatch"

def shape : Shape Outcome := .choice all text

end Outcome

/-- One run of a campaign. -/
structure RunRecord where
  started : Instant
  finished : Instant
  outcome : Outcome
  deriving DecidableEq

namespace RunRecord

def used (r : RunRecord) : Span := r.finished.since r.started

def isFatal (r : RunRecord) : Bool := r.outcome.isFatal

def shape : Shape RunRecord :=
  .record "TestRunRecord"
    (.cons (.required "started_at" Instant.shape) <|
      .cons (.required "finished_at" Instant.shape) <|
      .cons (.required "outcome" Outcome.shape) .nil)
    (fun r ↦ (r.started, r.finished, r.outcome, ())) fun (s, f, o, ()) ↦ ⟨s, f, o⟩

end RunRecord

/-!
## What a run executes

A run starts a program with arguments, under an engine with options that the library passes on
without looking at them.
-/

structure RunSpec where
  program : String
  args : List String := []
  /-- Options of the engine, by name. -/
  options : SortedMap String String := ∅
  deriving DecidableEq

namespace RunSpec

/-- Sets one option, in place of an earlier value. -/
def withOption (r : RunSpec) (name value : String) : RunSpec :=
  { r with options := r.options.insert name value }

def shape : Shape RunSpec :=
  .record "RunSpec"
    (.cons (.required "program" .path) <| .cons (.withDefault "args" (.list .text) []) <|
      .cons (.withDefault "options" .table ∅) .nil)
    (fun r ↦ (r.program, r.args, r.options, ())) fun (p, a, o, ()) ↦ ⟨p, a, o⟩

end RunSpec

/-!
## Plateaus of the coverage metric

A campaign may follow a metric of what its runs have covered so far. The `stable` stop rule asks for
how many runs in a row it has not changed. Before the first run the metric counts as zero, so one
that stays at zero is stable from the first run on. The count is a word, and starts again after the
greatest one.
-/

/-- What runs have covered: one count, or a pair of counts. -/
structure Metric where
  primary : Nat
  /-- Zero if there is only one count. -/
  secondary : Nat
  deriving DecidableEq, Repr, Inhabited

namespace Metric

def single (n : Nat) : Metric := ⟨n, 0⟩

def zero : Metric := ⟨0, 0⟩

def shape : Shape Metric :=
  .record "CoverageMetric"
    (.cons (.required "primary" .count) <| .cons (.required "secondary" .count) .nil)
    (fun m ↦ (m.primary, m.secondary, ())) fun (p, s, ()) ↦ ⟨p, s⟩

end Metric

/-- The last metric seen, and how often in a row it has come again. -/
structure Plateau where
  previous : Metric := .zero
  length : UInt32 := 0
  deriving DecidableEq, Repr, Inhabited

namespace Plateau

/-- Takes in the metric after a run. -/
def observe (p : Plateau) (m : Metric) : Plateau :=
  ⟨m, if m = p.previous then p.length + 1 else 0⟩

/-- The plateau after a sequence of metrics. -/
def observeAll (p : Plateau) (ms : List Metric) : Plateau := ms.foldl observe p

end Plateau

/-!
## When a campaign stops

A campaign repeats a run until a stop rule is satisfied. Settings and the command line name the
family of the rule, its *mode*, and a threshold; what the threshold counts depends on the mode.
A random campaign also names the scheduler that it runs under.
-/

/-- A family of stop rules. -/
inductive Mode where
  | runout
  | timeout
  | stable
  | finish
  deriving DecidableEq, Repr

namespace Mode

def all : List Mode := [runout, timeout, stable, finish]

def text : Mode → String
  | runout => "runout"
  | timeout => "timeout"
  | stable => "stable"
  | finish => "finish"

/-- The mode with a given name, in any case. -/
def ofText (s : String) : Except Misnamed Mode :=
  let t := lowerText s
  match all.find? fun m ↦ m.text == t with
  | some m => .ok m
  | none => .error ⟨"mode", s, ": runout, timeout, stable, finish"⟩

def shape : Shape Mode := .choice all text

end Mode

/-- A randomized scheduler. -/
inductive Scheduler where
  /-- Probabilistic priority changes with strict priorities. -/
  | pct
  /-- Probabilistic priority changes for long executions. -/
  | pctLarge
  /-- Random delays at each change point. -/
  | randDelay
  deriving DecidableEq, Repr, Inhabited

namespace Scheduler

def all : List Scheduler := [pct, pctLarge, randDelay]

def text : Scheduler → String
  | pct => "pct"
  | pctLarge => "pct-large"
  | randDelay => "rand-delay"

/-- The scheduler with a given name, in any case; an underscore stands for a hyphen. -/
def ofText (s : String) : Except Misnamed Scheduler :=
  let t := String.ofList ((lowerChars s.toList).map fun c ↦ if c = '_' then '-' else c)
  match all.find? fun m ↦ m.text == t with
  | some m => .ok m
  | none => .error ⟨"scheduler", s, ": pct, pct-large, rand-delay"⟩

def shape : Shape Scheduler := .choice all text

end Scheduler

/-- When a campaign stops after a run that was not fatal. -/
inductive StopRule where
  /-- Once this many runs are done. -/
  | runout (runs : UInt64)
  /-- Once this much time has passed since the campaign began. -/
  | timeout (limit : Span)
  /-- Once the coverage metric has stayed the same for this many runs. -/
  | stable (runs : UInt32)
  /-- Only when the campaign itself has nothing left to do. -/
  | finish
  deriving DecidableEq, Repr

namespace StopRule

/-- The rule of a mode and its threshold: runs for `runout` and `stable`, the latter at most
`2 ^ 32 - 1`, and seconds for `timeout`. -/
def ofMode (m : Mode) (threshold : UInt64) : StopRule :=
  match m with
  | .runout => .runout threshold
  | .timeout => .timeout (.ofSeconds threshold.toNat)
  | .stable => .stable (.ofNat (min threshold.toNat (UInt32.size - 1)))
  | .finish => .finish

def mode : StopRule → Mode
  | runout _ => .runout
  | timeout _ => .timeout
  | stable _ => .stable
  | finish => .finish

def text : StopRule → String
  | runout n => "runout(" ++ toString n.toNat ++ ")"
  | timeout t => "timeout(" ++ toString t.secs ++ "s)"
  | stable k => "stable(" ++ toString k.toNat ++ ")"
  | finish => "finish"

def write : StopRule → Json
  | runout n => .object [("Runout", Shape.word64.write n)]
  | timeout t => .object [("Timeout", Span.shape.write t)]
  | stable k => .object [("Stable", Shape.word32.write k)]
  | finish => .text "Finish"

def shape : Shape StopRule :=
  .variants
    [.holding "Runout" .word64 runout, .holding "Timeout" Span.shape timeout,
      .holding "Stable" .word32 stable, .constant "Finish" finish]
    write fun _ ↦ none

end StopRule

/-- Where a campaign is in its life. -/
inductive Status where
  | notStarted
  | running
  /-- Its stop rule was satisfied. -/
  | converged
  /-- A run was fatal. -/
  | fatal
  deriving DecidableEq, Repr, Inhabited

namespace Status

def all : List Status := [notStarted, running, converged, fatal]

def text : Status → String
  | notStarted => "not_started"
  | running => "running"
  | converged => "converged"
  | fatal => "fatal"

def isTerminal : Status → Bool
  | converged | fatal => true
  | notStarted | running => false

def isFatal : Status → Bool
  | fatal => true
  | notStarted | running | converged => false

def shape : Shape Status := .choice all text

end Status

/-! ## What a phase of a campaign amounted to -/

structure PhaseStats where
  label : String
  runs : Nat
  /-- The time of all its runs. -/
  used : Span
  status : Status
  deriving DecidableEq

def PhaseStats.shape : Shape PhaseStats :=
  .record "CampaignStats"
    (.cons (.required "label" .text) <| .cons (.required "runs" .count) <|
      .cons (.required "used_time" Span.shape) <| .cons (.required "state" Status.shape) .nil)
    (fun s ↦ (s.label, s.runs, s.used, s.status, ())) fun (label, runs, used, status, ()) ↦
      ⟨label, runs, used, status⟩

/-!
## Report files

A campaign appends a line to the coverage log after each run that it has booked: the name of the
campaign, the time of the run, and how many iRoots of each idiom were seen to happen. Native runs
have only their time, in a log of its own.
-/

namespace Report

/-- The label in 25 columns, the seconds in 10, and five counts in 6 each. -/
def coverageLine (label : String) (used : Span) (observed : PerIdiom Nat) : String :=
  padRight 25 label ++ " " ++ padRight 10 (used.fixed 6) ++
    String.join (observed.toList.map fun n ↦ " " ++ padRight 6 (toString n)) ++ "\n"

def timingLine (used : Span) : String := used.fixed 6 ++ "\n"

/-- Where the reports go. -/
structure Files where
  coverage : String := "coverage"
  timing : String := "timing"
  deriving DecidableEq, Inhabited

/-- Appends a line to a report. -/
def append (t : Tree) (path line : String) : Except Failure Tree :=
  (t.append path line).mapError fun e ↦ .report (path ++ ": " ++ e.text)

def recordCoverage (t : Tree) (files : Files) (label : String) (used : Span)
    (observed : PerIdiom Nat) : Except Failure Tree :=
  append t files.coverage (coverageLine label used observed)

def recordTiming (t : Tree) (files : Files) (used : Span) : Except Failure Tree :=
  append t files.timing (timingLine used)

end Report

end Interleave
