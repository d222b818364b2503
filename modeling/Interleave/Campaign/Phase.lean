import Interleave.Basic
import Interleave.Campaign.Basic

/-!
# A phase of a campaign

A phase launches the same run again and again. The first fatal run ends it at once. After every
other run its *policy* does its bookkeeping, such as reloading a memo, and then the stop rule is
asked: the phase converges when the policy has nothing left to do, when the rule is satisfied, or
when the cap on runs is reached.

All that happens outside is a change of a world `ω`, of which the phase knows only how to launch a
run and how to read the clock. A launch and the bookkeeping may fail. The failure is handed to the
caller and the phase stays as it is, so that it can be run again and goes on where it stopped.

The loop of a phase need not end. So a call is given a number of turns, and says if they were not
enough.
-/

namespace Interleave

/-- An action on a world that may fail; the world has changed in any case. -/
abbrev Act (ω α : Type) := EStateM Failure ω α

/-- What is particular to a kind of campaign, with a state `κ` of its own. -/
structure Policy (κ ω : Type) where
  /-- The name in statistics. -/
  label : String
  /-- Adds the options of the campaign to a run. -/
  configure : RunSpec → RunSpec := fun r ↦ r
  /-- The bookkeeping after a run that was not fatal. Runs are counted from 1. -/
  afterRun : (iteration : Nat) → RunRecord → Act (κ × ω) Unit
  /-- What the `stable` rule follows. -/
  metric : κ → Option Metric := fun _ ↦ none
  /-- Whether there is nothing left to do. -/
  exhausted : κ → Bool := fun _ ↦ false

/-- How runs are launched and timed. -/
structure Launcher (ω : Type) where
  launch : RunSpec → Act ω Outcome
  now : ω → Instant

/-- What a phase is told at the beginning. -/
structure Phase (κ ω : Type) where
  policy : Policy κ ω
  launcher : Launcher ω
  rule : StopRule
  spec : RunSpec
  /-- A cap on the number of runs, whatever the rule says. -/
  maxRuns : Option UInt64 := none

/-- Where a phase is. -/
structure PhaseState (κ : Type) where
  kind : κ
  status : Status := .notStarted
  /-- All runs so far, the oldest first. -/
  history : List RunRecord := []
  plateau : Plateau := {}
  /-- When the last call began. -/
  started : Option Instant := none
  /-- When the last call that ended did so. -/
  finished : Option Instant := none

namespace PhaseState

variable {κ : Type}

/-- The time from the beginning of the last call to the end of the last call that ended, or to now
if none has. -/
def used (s : PhaseState κ) (now : Instant) : Span :=
  match s.started, s.finished with
  | some a, some b => b.since a
  | some a, none => now.since a
  | none, _ => .zero

end PhaseState

/-- What a turn comes to. -/
inductive Verdict where
  | goOn
  | stop
  | failed (e : Failure)
  deriving DecidableEq

/-- The result of one or more turns. -/
structure Turn (κ ω : Type) where
  verdict : Verdict
  state : PhaseState κ
  world : ω

/-- What a call answers. -/
inductive Answer where
  | status (s : Status)
  | failed (e : Failure)
  /-- The turns were not enough. -/
  | unfinished
  deriving DecidableEq

/-- The result of a call. -/
structure Call (σ ω : Type) where
  answer : Answer
  state : σ
  world : ω

namespace Phase

variable {κ ω : Type}

/-- Whether the stop rule is satisfied, and the plateau then; only the `stable` rule looks at the
metric. -/
def ruleHolds (p : Phase κ ω) (s : PhaseState κ) (now : Instant) : Bool × Plateau :=
  match p.rule with
  | .runout n => (n.toNat ≤ s.history.length, s.plateau)
  | .timeout limit => (limit.total ≤ (s.used now).total, s.plateau)
  | .stable k =>
    match p.policy.metric s.kind with
    | some m =>
      let plateau := s.plateau.observe m
      (k ≤ plateau.length, plateau)
    | none => (false, s.plateau)
  | .finish => (false, s.plateau)

/-- Whether the cap on runs is reached. -/
def capReached (p : Phase κ ω) (s : PhaseState κ) : Bool :=
  match p.maxRuns with
  | some max => max.toNat ≤ s.history.length
  | none => false

/-- Whether to stop after a run and its bookkeeping, and the state then. -/
def shouldStop (p : Phase κ ω) (s : PhaseState κ) (now : Instant) : Bool × PhaseState κ :=
  if p.policy.exhausted s.kind then (true, s)
  else
    let (holds, plateau) := p.ruleHolds s now
    (holds || p.capReached s, { s with plateau })

/-- One run of a configured spec, with its bookkeeping. -/
def turn (p : Phase κ ω) (spec : RunSpec) (s : PhaseState κ) (w : ω) : Turn κ ω :=
  let started := p.launcher.now w
  match p.launcher.launch spec w with
  | .error e w => ⟨.failed e, s, w⟩
  | .ok outcome w =>
    let record : RunRecord := ⟨started, p.launcher.now w, outcome⟩
    let s := { s with history := s.history ++ [record] }
    if record.isFatal then ⟨.stop, { s with status := .fatal }, w⟩
    else
      match p.policy.afterRun s.history.length record (s.kind, w) with
      | .error e (kind, w) => ⟨.failed e, { s with kind }, w⟩
      | .ok _ (kind, w) =>
        let (stop, s) := p.shouldStop { s with kind } (p.launcher.now w)
        if stop then ⟨.stop, { s with status := .converged }, w⟩ else ⟨.goOn, s, w⟩

/-- Turns until one does not go on. -/
def iterate (p : Phase κ ω) (spec : RunSpec) : (turns : Nat) → PhaseState κ → ω → Turn κ ω
  | 0, s, w => ⟨.goOn, s, w⟩
  | n + 1, s, w =>
    let t := p.turn spec s w
    match t.verdict with
    | .goOn => p.iterate spec n t.state t.world
    | _ => t

/-- Runs the phase until it ends or fails. A phase that has ended is left alone. -/
def run (p : Phase κ ω) (turns : Nat) (s : PhaseState κ) (w : ω) : Call (PhaseState κ) ω :=
  if s.status.isTerminal then ⟨.status s.status, s, w⟩
  else
    let s := { s with status := .running, started := some (p.launcher.now w) }
    let t := p.iterate (p.policy.configure p.spec) turns s w
    let ended := { t.state with finished := some (p.launcher.now t.world) }
    match t.verdict with
    | .goOn => ⟨.unfinished, t.state, t.world⟩
    | .stop => ⟨.status ended.status, ended, t.world⟩
    | .failed e => ⟨.failed e, ended, t.world⟩

/-- The statistics of the phase. -/
def stats (p : Phase κ ω) (s : PhaseState κ) (w : ω) : PhaseStats where
  label := p.policy.label
  runs := s.history.length
  used := s.used (p.launcher.now w)
  status := s.status

end Phase

/-!
## Campaigns of two phases

A first phase that builds coverage, and a second one that uses it. The second begins only when the
first has ended without a fatal run; the campaign is fatal if either phase is.
-/

structure TwoPhase (κ₁ κ₂ ω : Type) where
  name : String
  first : Phase κ₁ ω
  second : Phase κ₂ ω

structure TwoPhaseState (κ₁ κ₂ : Type) where
  first : PhaseState κ₁
  second : PhaseState κ₂
  status : Status := .notStarted

namespace TwoPhaseState

variable {κ₁ κ₂ : Type}

def isFatal (s : TwoPhaseState κ₁ κ₂) : Bool := s.first.status.isFatal || s.second.status.isFatal

/-- The state once both phases are done with. -/
def conclude (s : TwoPhaseState κ₁ κ₂) : TwoPhaseState κ₁ κ₂ :=
  { s with status := if s.isFatal then .fatal else .converged }

end TwoPhaseState

namespace TwoPhase

variable {κ₁ κ₂ ω : Type}

/-- Runs both phases to their ends, or until one fails. A campaign that has ended is left alone. -/
def run (c : TwoPhase κ₁ κ₂ ω) (turns : Nat) (s : TwoPhaseState κ₁ κ₂) (w : ω) :
    Call (TwoPhaseState κ₁ κ₂) ω :=
  if s.status.isTerminal then ⟨.status s.status, s, w⟩
  else
    let s := { s with status := .running }
    let r := c.first.run turns s.first w
    let s := { s with first := r.state }
    match r.answer with
    | .failed e => ⟨.failed e, s, r.world⟩
    | .unfinished => ⟨.unfinished, s, r.world⟩
    | .status first =>
      if first.isFatal then
        let s := s.conclude
        ⟨.status s.status, s, r.world⟩
      else
        let r := c.second.run turns s.second r.world
        let s := { s with second := r.state }
        match r.answer with
        | .failed e => ⟨.failed e, s, r.world⟩
        | .unfinished => ⟨.unfinished, s, r.world⟩
        | .status _ =>
          let s := s.conclude
          ⟨.status s.status, s, r.world⟩

/-- The statistics of the phases that have begun. -/
def stats (c : TwoPhase κ₁ κ₂ ω) (s : TwoPhaseState κ₁ κ₂) (w : ω) : List PhaseStats :=
  [c.first.stats s.first w, c.second.stats s.second w].filter fun p ↦ p.status ≠ .notStarted

end TwoPhase

end Interleave
