import Interleave.Campaign.Phase
import Mathlib.Data.Nat.Notation

/-!
# How turns and calls go

A turn can go four ways: there is no run, the run is fatal, its bookkeeping fails, or the stop rule
is asked. For each of them an equation says what the turn comes to, and these equations are all that
is used of a turn. A call of a phase that has not ended is some turns and what is made of the last.
-/

namespace Interleave.Phase

variable {κ ω : Type} {p : Phase κ ω} {spec : RunSpec} {s : PhaseState κ} {w w' w'' : ω}
  {outcome : Outcome} {e : Failure} {kind : κ} {u : Unit}

/-- The record of a run between two states of the world. -/
def recordOf (p : Phase κ ω) (w w' : ω) (outcome : Outcome) : RunRecord :=
  ⟨p.launcher.now w, p.launcher.now w', outcome⟩

theorem turn_of_launch_error (h : p.launcher.launch spec w = .error e w') :
    p.turn spec s w = ⟨.failed e, s, w'⟩ := by
  simp only [turn, h]

theorem turn_of_fatal (h : p.launcher.launch spec w = .ok outcome w')
    (hfatal : outcome.isFatal = true) :
    p.turn spec s w =
      let history := s.history ++ [p.recordOf w w' outcome]
      ⟨.stop, { s with history, status := .fatal }, w'⟩ := by
  simp only [turn, h]
  exact if_pos hfatal

theorem turn_of_booking_error (h : p.launcher.launch spec w = .ok outcome w')
    (hnormal : outcome.isFatal = false)
    (hbooking : p.policy.afterRun (s.history.length + 1) (p.recordOf w w' outcome) (s.kind, w') =
      .error e (kind, w'')) :
    p.turn spec s w =
      let history := s.history ++ [p.recordOf w w' outcome]
      ⟨.failed e, { s with history, kind }, w''⟩ := by
  simp only [turn, h, List.length_append, List.length_singleton]
  rw [recordOf] at hbooking
  simp only [RunRecord.isFatal, hnormal, hbooking, Bool.false_eq_true, if_false]
  rfl

theorem turn_of_booked (h : p.launcher.launch spec w = .ok outcome w')
    (hnormal : outcome.isFatal = false)
    (hbooking : p.policy.afterRun (s.history.length + 1) (p.recordOf w w' outcome) (s.kind, w') =
      .ok u (kind, w'')) :
    p.turn spec s w =
      let history := s.history ++ [p.recordOf w w' outcome]
      let asked := p.shouldStop { s with history, kind } (p.launcher.now w'')
      if asked.1 then ⟨.stop, { asked.2 with status := .converged }, w''⟩
      else ⟨.goOn, asked.2, w''⟩ := by
  simp only [turn, h, List.length_append, List.length_singleton]
  rw [recordOf] at hbooking
  simp only [RunRecord.isFatal, hnormal, hbooking, Bool.false_eq_true, if_false]
  rfl

theorem history_shouldStop (p : Phase κ ω) (s : PhaseState κ) (now : Instant) :
    (p.shouldStop s now).2.history = s.history := by
  rw [shouldStop]
  split <;> rfl

theorem status_shouldStop (p : Phase κ ω) (s : PhaseState κ) (now : Instant) :
    (p.shouldStop s now).2.status = s.status := by
  rw [shouldStop]
  split <;> rfl

theorem kind_shouldStop (p : Phase κ ω) (s : PhaseState κ) (now : Instant) :
    (p.shouldStop s now).2.kind = s.kind := by
  rw [shouldStop]
  split <;> rfl

theorem iterate_succ_of_goOn {n : ℕ} {s' : PhaseState κ} (h : p.turn spec s w = ⟨.goOn, s', w'⟩) :
    p.iterate spec (n + 1) s w = p.iterate spec n s' w' := by
  rw [iterate, h]

theorem iterate_succ_of_verdict {n : ℕ} (h : (p.turn spec s w).verdict = .goOn) :
    p.iterate spec (n + 1) s w =
      p.iterate spec n (p.turn spec s w).state (p.turn spec s w).world :=
  iterate_succ_of_goOn (by rw [← h])

theorem iterate_succ_of_ne_goOn {n : ℕ} (h : (p.turn spec s w).verdict ≠ .goOn) :
    p.iterate spec (n + 1) s w = p.turn spec s w := by
  rw [iterate]
  cases hv : (p.turn spec s w).verdict with
  | goOn => exact absurd hv h
  | stop => rfl
  | failed => rfl

/-- What each turn keeps is kept by any number of turns. `P .goOn` is what holds before a turn. -/
theorem iterate_induction {P : Verdict → PhaseState κ → ω → Prop}
    (hstep : ∀ {s w}, P .goOn s w →
      P (p.turn spec s w).verdict (p.turn spec s w).state (p.turn spec s w).world)
    (n : ℕ) (h : P .goOn s w) :
    let t := p.iterate spec n s w
    P t.verdict t.state t.world := by
  -- the verdict of a turn decides whether `P` is asked of it as a start or as an end
  induction n generalizing s w with
  | zero => exact h
  | succ n ih =>
    have hnext := hstep h
    cases hv : (p.turn spec s w).verdict with
    | goOn =>
      rw [hv] at hnext
      rw [iterate_succ_of_verdict hv]
      exact ih hnext
    | stop | failed =>
      rw [iterate_succ_of_ne_goOn (by rw [hv]; exact Verdict.noConfusion)]
      exact hnext

/-! ## Calls -/

/-- What a call makes of its last turn. -/
def conclude (p : Phase κ ω) (t : Turn κ ω) : Call (PhaseState κ) ω :=
  let ended := { t.state with finished := some (p.launcher.now t.world) }
  match t.verdict with
  | .goOn => ⟨.unfinished, t.state, t.world⟩
  | .stop => ⟨.status t.state.status, ended, t.world⟩
  | .failed e => ⟨.failed e, ended, t.world⟩

/-- A call leaves behind what its last turn has, but for the time at which it ended. -/
theorem conclude_eq (p : Phase κ ω) (t : Turn κ ω) :
    ∃ finished, (p.conclude t).state = { t.state with finished } ∧
      (p.conclude t).world = t.world := by
  rw [conclude]
  cases t.verdict <;> exact ⟨_, rfl, rfl⟩

theorem run_of_isTerminal {turns : ℕ} (h : s.status.isTerminal = true) :
    p.run turns s w = ⟨.status s.status, s, w⟩ := by
  rw [run, if_pos h]

theorem run_of_not_isTerminal {turns : ℕ} (h : s.status.isTerminal = false) :
    p.run turns s w = p.conclude (p.iterate (p.policy.configure p.spec) turns
      { s with status := .running, started := some (p.launcher.now w) } w) := by
  rw [run, h]
  rfl

/-- A call of a phase that has not ended comes to something that its turns have kept. -/
theorem run_induction {P : Verdict → PhaseState κ → ω → Prop}
    (hstep : ∀ {s w}, P .goOn s w →
      let t := p.turn (p.policy.configure p.spec) s w
      P t.verdict t.state t.world)
    (hs : s.status.isTerminal = false) (turns : ℕ)
    (h : P .goOn { s with status := .running, started := some (p.launcher.now w) } w) :
    ∃ t : Turn κ ω, P t.verdict t.state t.world ∧ p.run turns s w = p.conclude t :=
  ⟨_, iterate_induction hstep turns h, run_of_not_isTerminal hs⟩

end Interleave.Phase
