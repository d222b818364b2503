import Interleave.Proofs.Campaign.Projection

/-!
# What a phase does to the world, written down

What a phase does, other than read the clock, is to launch runs and to have its policy do the
bookkeeping. The logged phase is the phase in a world that also has a log, in which every launch and
every bookkeeping is written down as it is made. It does as the phase does, whatever stands in the
log (`Phase.erase_run_logged`), so that the log is one of the phase.
-/

namespace Interleave

/-- What a phase asks of the world. -/
inductive LogEntry where
  /-- A launch, with the outcome if there was one. -/
  | launched (spec : RunSpec) (outcome : Option Outcome)
  | booked (iteration : ℕ) (record : RunRecord)
  deriving DecidableEq

variable {κ ω β : Type}

def Launcher.logged (l : Launcher ω) : Launcher (ω × List LogEntry) where
  launch := fun spec (w, log) ↦
    match l.launch spec w with
    | .ok outcome w => .ok outcome (w, log ++ [.launched spec (some outcome)])
    | .error e w => .error e (w, log ++ [.launched spec none])
  now := fun (w, _) ↦ l.now w

def Policy.logged (p : Policy κ ω) : Policy κ (ω × List LogEntry) where
  label := p.label
  configure := p.configure
  afterRun := fun i record (kind, w, log) ↦
    match p.afterRun i record (kind, w) with
    | .ok _ (kind, w) => .ok () (kind, w, log ++ [.booked i record])
    | .error e (kind, w) => .error e (kind, w, log ++ [.booked i record])
  metric := p.metric
  exhausted := p.exhausted

def Phase.logged (p : Phase κ ω) : Phase κ (ω × List LogEntry) where
  policy := p.policy.logged
  launcher := p.launcher.logged
  rule := p.rule
  spec := p.spec
  maxRuns := p.maxRuns

/-! ## Marks

Several phases that write one log mark their entries. -/

def Launcher.marked (l : Launcher ω) (mark : LogEntry → β) : Launcher (ω × List β) where
  launch := fun spec (w, log) ↦
    match l.launch spec w with
    | .ok outcome w => .ok outcome (w, log ++ [mark (.launched spec (some outcome))])
    | .error e w => .error e (w, log ++ [mark (.launched spec none)])
  now := fun (w, _) ↦ l.now w

def Policy.marked (p : Policy κ ω) (mark : LogEntry → β) : Policy κ (ω × List β) where
  label := p.label
  configure := p.configure
  afterRun := fun i record (kind, w, log) ↦
    match p.afterRun i record (kind, w) with
    | .ok _ (kind, w) => .ok () (kind, w, log ++ [mark (.booked i record)])
    | .error e (kind, w) => .error e (kind, w, log ++ [mark (.booked i record)])
  metric := p.metric
  exhausted := p.exhausted

/-- The phase in a world with a log of marked entries. -/
def Phase.marked (p : Phase κ ω) (mark : LogEntry → β) : Phase κ (ω × List β) where
  policy := p.policy.marked mark
  launcher := p.launcher.marked mark
  rule := p.rule
  spec := p.spec
  maxRuns := p.maxRuns

/-! ## The log is one of the phase -/

/-- Without the log. -/
def Call.erase {σ : Type} (c : Call σ (ω × List LogEntry)) : Call σ ω :=
  ⟨c.answer, c.state, c.world.1⟩

namespace Phase

variable {p : Phase κ ω} {spec : RunSpec} {log : List LogEntry} {w w' : ω} {kind kind' : κ} {i : ℕ}
  {record : RunRecord} {outcome : Outcome} {e : Failure} {u : Unit}

theorem launch_logged_of_ok (h : p.launcher.launch spec w = .ok outcome w') :
    p.logged.launcher.launch spec (w, log) =
      .ok outcome (w', log ++ [.launched spec (some outcome)]) := by
  simp only [logged, Launcher.logged, h]

theorem afterRun_logged_of_ok (h : p.policy.afterRun i record (kind, w) = .ok u (kind', w')) :
    p.logged.policy.afterRun i record (kind, w, log) =
      .ok () (kind', w', log ++ [.booked i record]) := by
  simp only [logged, Policy.logged, h]

theorem launch_logged_of_error (h : p.launcher.launch spec w = .error e w') :
    p.logged.launcher.launch spec (w, log) = .error e (w', log ++ [.launched spec none]) := by
  simp only [logged, Launcher.logged, h]

theorem afterRun_logged_of_error (h : p.policy.afterRun i record (kind, w) = .error e (kind', w')) :
    p.logged.policy.afterRun i record (kind, w, log) =
      .error e (kind', w', log ++ [.booked i record]) := by
  simp only [logged, Policy.logged, h]

variable (p) (mark : LogEntry → β)

/-- The logged phase marks nothing. -/
theorem logged_eq_marked : p.logged = p.marked id := rfl

theorem projects_marked : Projects Prod.fst (p.marked mark) p where
  configure := rfl
  metric := rfl
  exhausted := rfl
  rule := rfl
  spec := rfl
  maxRuns := rfl
  now _ := rfl
  launch spec w := by
    simp only [marked, Launcher.marked]
    cases p.launcher.launch spec w.1 <;> rfl
  afterRun i record kind w := by
    simp only [marked, Policy.marked]
    cases p.policy.afterRun i record (kind, w.1) <;> rfl

/-- The logged phase does as the phase does. -/
theorem erase_run_logged (turns : ℕ) (s : PhaseState κ) (w : ω × List LogEntry) :
    (p.logged.run turns s w).erase = p.run turns s w.1 := by
  rw [logged_eq_marked]
  exact (projects_marked p id).mapWorld_run turns s w

/-- Marks a log and puts it behind another one. -/
def markBehind (log : List β) (w : ω × List LogEntry) : ω × List β := (w.1, log ++ w.2.map mark)

theorem projects_logged_marked (log : List β) :
    Projects (markBehind mark log) p.logged (p.marked mark) where
  configure := rfl
  metric := rfl
  exhausted := rfl
  rule := rfl
  spec := rfl
  maxRuns := rfl
  now _ := rfl
  launch spec w := by
    simp only [marked, Launcher.marked, logged, Launcher.logged, markBehind]
    cases p.launcher.launch spec w.1 <;> simp [mapResult, markBehind]
  afterRun i record kind w := by
    simp only [marked, Policy.marked, logged, Policy.logged, markBehind]
    cases p.policy.afterRun i record (kind, w.1) <;> simp [mapResult, markBehind]

/-- A call adds entries with the mark of the phase to the log, and changes nothing else in it. -/
theorem log_run_marked (turns : ℕ) (s : PhaseState κ) (w : ω) (log : List β) :
    ∃ l : List LogEntry, ((p.marked mark).run turns s (w, log)).world.2 = log ++ l.map mark := by
  have h := (projects_logged_marked p mark log).mapWorld_run turns s (w, [])
  rw [markBehind, List.map_nil, List.append_nil] at h
  rw [← h]
  exact ⟨_, rfl⟩

end Phase

end Interleave
