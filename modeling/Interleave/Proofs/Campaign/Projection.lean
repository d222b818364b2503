import Interleave.Proofs.Campaign.Turn

/-!
# A phase in a larger world

Some things are said of a phase by putting it into a world in which there is more to see, such as a
log of what it does. Such a phase *projects* to the first one if, with the world seen through a
projection, it launches, books, reads the clock and is told the same. Then all its turns and calls
project too (`Phase.Projects.mapWorld_run`), so that whatever there is to see is about the first
phase.
-/

namespace Interleave

variable {κ ω ω' : Type}

/-- The result of an action, with the world seen through `f`. -/
def mapResult {σ τ α : Type} (f : σ → τ) :
    EStateM.Result Failure σ α → EStateM.Result Failure τ α
  | .ok a w => .ok a (f w)
  | .error e w => .error e (f w)

/-- A turn, with the world seen through `f`. -/
def Turn.mapWorld (f : ω' → ω) (t : Turn κ ω') : Turn κ ω := ⟨t.verdict, t.state, f t.world⟩

/-- A call, with the world seen through `f`. -/
def Call.mapWorld {σ : Type} (f : ω' → ω) (c : Call σ ω') : Call σ ω :=
  ⟨c.answer, c.state, f c.world⟩

namespace Phase

/-- Through `f`, the phase `p'` does what `p` does. -/
structure Projects (f : ω' → ω) (p' : Phase κ ω') (p : Phase κ ω) : Prop where
  configure : p'.policy.configure = p.policy.configure
  metric : p'.policy.metric = p.policy.metric
  exhausted : p'.policy.exhausted = p.policy.exhausted
  rule : p'.rule = p.rule
  spec : p'.spec = p.spec
  maxRuns : p'.maxRuns = p.maxRuns
  now : ∀ w, p'.launcher.now w = p.launcher.now (f w)
  launch : ∀ spec w, mapResult f (p'.launcher.launch spec w) = p.launcher.launch spec (f w)
  afterRun : ∀ i record kind w, mapResult (Prod.map id f) (p'.policy.afterRun i record (kind, w)) =
    p.policy.afterRun i record (kind, f w)

namespace Projects

variable {f : ω' → ω} {p' : Phase κ ω'} {p : Phase κ ω} {spec : RunSpec} {w w' : ω'} {e : Failure}
  {outcome : Outcome} {i : ℕ} {record : RunRecord} {kind kind' : κ} {u : Unit}

theorem launch_of_ok (h : Projects f p' p) (hl : p'.launcher.launch spec w = .ok outcome w') :
    p.launcher.launch spec (f w) = .ok outcome (f w') := by
  rw [← h.launch, hl, mapResult]

theorem launch_of_error (h : Projects f p' p) (hl : p'.launcher.launch spec w = .error e w') :
    p.launcher.launch spec (f w) = .error e (f w') := by
  rw [← h.launch, hl, mapResult]

theorem afterRun_of_ok (h : Projects f p' p)
    (hb : p'.policy.afterRun i record (kind, w) = .ok u (kind', w')) :
    p.policy.afterRun i record (kind, f w) = .ok u (kind', f w') := by
  rw [← h.afterRun, hb, mapResult, Prod.map_apply, id]

theorem afterRun_of_error (h : Projects f p' p)
    (hb : p'.policy.afterRun i record (kind, w) = .error e (kind', w')) :
    p.policy.afterRun i record (kind, f w) = .error e (kind', f w') := by
  rw [← h.afterRun, hb, mapResult, Prod.map_apply, id]

theorem recordOf_eq (h : Projects f p' p) (w w' : ω') (outcome : Outcome) :
    p'.recordOf w w' outcome = p.recordOf (f w) (f w') outcome := by
  rw [recordOf, recordOf, h.now, h.now]

theorem shouldStop_eq (h : Projects f p' p) (s : PhaseState κ) (now : Instant) :
    p'.shouldStop s now = p.shouldStop s now := by
  simp only [shouldStop, ruleHolds, capReached, h.exhausted, h.rule, h.metric, h.maxRuns]

theorem mapWorld_turn (h : Projects f p' p) (spec : RunSpec) (s : PhaseState κ) (w : ω') :
    (p'.turn spec s w).mapWorld f = p.turn spec s (f w) := by
  cases hl : p'.launcher.launch spec w with
  | error e w' =>
    rw [turn_of_launch_error hl, turn_of_launch_error (h.launch_of_error hl)]
    rfl
  | ok outcome w' =>
    have hl' := h.launch_of_ok hl
    cases hfatal : outcome.isFatal with
    | true =>
      rw [turn_of_fatal hl hfatal, turn_of_fatal hl' hfatal, h.recordOf_eq]
      rfl
    | false =>
      cases hb : p'.policy.afterRun (s.history.length + 1) (p'.recordOf w w' outcome)
          (s.kind, w') with
      | error e kw =>
        have hb' := h.afterRun_of_error hb
        rw [h.recordOf_eq] at hb'
        rw [turn_of_booking_error hl hfatal hb, turn_of_booking_error hl' hfatal hb', h.recordOf_eq]
        rfl
      | ok u kw =>
        have hb' := h.afterRun_of_ok hb
        rw [h.recordOf_eq] at hb'
        rw [turn_of_booked hl hfatal hb, turn_of_booked hl' hfatal hb', h.recordOf_eq, h.now]
        dsimp only
        rw [h.shouldStop_eq]
        exact apply_ite (Turn.mapWorld f) _ _ _

theorem mapWorld_iterate (h : Projects f p' p) (spec : RunSpec) (n : ℕ) (s : PhaseState κ)
    (w : ω') : (p'.iterate spec n s w).mapWorld f = p.iterate spec n s (f w) := by
  induction n generalizing s w with
  | zero => rfl
  | succ n ih =>
    rw [iterate, iterate, ← h.mapWorld_turn]
    cases hverdict : (p'.turn spec s w).verdict with
    | goOn =>
      simp only [Turn.mapWorld, hverdict]
      exact ih _ _
    | stop | failed => simp only [Turn.mapWorld, hverdict]

theorem mapWorld_conclude (h : Projects f p' p) (t : Turn κ ω') :
    (p'.conclude t).mapWorld f = p.conclude (t.mapWorld f) := by
  obtain ⟨verdict, s, w⟩ := t
  cases verdict with
  | goOn => rfl
  | stop | failed =>
    simp only [conclude, h.now]
    rfl

/-- A phase that projects to another one does as the other does. -/
theorem mapWorld_run (h : Projects f p' p) (turns : ℕ) (s : PhaseState κ) (w : ω') :
    (p'.run turns s w).mapWorld f = p.run turns s (f w) := by
  cases hs : s.status.isTerminal with
  | true =>
    rw [run_of_isTerminal hs, run_of_isTerminal hs]
    rfl
  | false =>
    rw [run_of_not_isTerminal hs, run_of_not_isTerminal hs, h.mapWorld_conclude,
      h.mapWorld_iterate, h.configure, h.spec, h.now]

end Projects

end Phase

end Interleave
