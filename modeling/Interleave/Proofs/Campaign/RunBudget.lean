import Interleave.Campaign.Phase
import Interleave.Proofs.Campaign.Lifecycle

/-!
# How many runs there can be

A cap on the runs, and the `runout` rule, are looked at when a run has been booked. So a call goes
on only as long as there are fewer runs than that (`Phase.Took.length_history_lt`), but it always
begins with a run. A phase whose bookkeeping fails at the cap can therefore be called beyond it:
each call that has failed may add one run, and no more than that.
-/

namespace Interleave

def Answer.isFailed : Answer → Bool
  | .failed _ => true
  | .status _ | .unfinished => false

namespace Phase

variable {κ ω : Type} {p : Phase κ ω} {n : UInt64}

/-- There should be at most `n` runs, by the cap or by the rule. -/
def Budget (p : Phase κ ω) (n : UInt64) : Prop := p.maxRuns = some n ∨ p.rule = .runout n

theorem shouldStop_of_budget (hn : p.Budget n) {s : PhaseState κ} (hs : n.toNat ≤ s.history.length)
    (now : Instant) : (p.shouldStop s now).1 = true := by
  rw [shouldStop]
  split
  · rfl
  · dsimp only
    rcases hn with hcap | hrule
    · have hcap : p.capReached s = true := by simp [capReached, hcap, hs]
      rw [hcap, Bool.or_true]
    · have hrule : (p.ruleHolds s now).1 = true := by simp [ruleHolds, hrule, hs]
      rw [hrule, Bool.true_or]

theorem Took.length_history_le {s s' : PhaseState κ} {v : Verdict} {l : List LogEntry}
    (h : p.Took s v s' l) : s'.history.length ≤ s.history.length + 1 := by
  cases h with
  | noRun => exact Nat.le_succ _
  | fatal _ _ _ hhistory | booked _ _ _ hhistory =>
    exact Nat.le_of_eq (by rw [hhistory, List.length_append, List.length_singleton])

theorem Took.length_history_lt (hn : p.Budget n) {s s' : PhaseState κ} {l : List LogEntry}
    (h : p.Took s .goOn s' l) : s'.history.length < n.toNat := by
  cases h with
  | booked _ _ _ _ _ hgoOn =>
    obtain ⟨asked, now, hasked, hstop⟩ := hgoOn rfl
    rw [← hasked]
    refine Nat.lt_of_not_le fun hle ↦ ?_
    rw [shouldStop_of_budget hn hle] at hstop
    cases hstop

/-- A call stops when the budget is used up, but not before its first run. -/
theorem length_history_run_le (hn : p.Budget n) {s : PhaseState κ}
    (hs : s.status.isTerminal = false) (turns : ℕ) (w : ω) :
    (p.run turns s w).state.history.length ≤ max n.toNat (s.history.length + 1) := by
  obtain ⟨v, s', ⟨hle, -⟩, -, -, hhistory⟩ := run_invariant (p := p)
    (P := fun v s' _ ↦ s'.history.length ≤ max n.toNat (s.history.length + 1) ∧
      (v = .goOn → s'.history.length = s.history.length ∨ s'.history.length < n.toNat))
    (fun ⟨_, hbefore⟩ ht ↦ by
      have hbefore := hbefore rfl
      have hnext := ht.length_history_le
      exact ⟨by omega, fun hv ↦ .inr ((hv ▸ ht).length_history_lt hn)⟩)
    hs turns w [] ⟨by dsimp only; omega, fun _ ↦ .inl rfl⟩
  rw [← hhistory] at hle
  rwa [← erase_run_logged p turns s (w, [])]

/-- As long as the phase has not ended there is a run left, if failed calls are added to the
budget. -/
theorem Reaches.length_history_lt (hn : p.Budget n) (hpos : 1 ≤ n.toNat) {kind : κ}
    {answers : List Answer} {s : PhaseState κ} {log : List LogEntry}
    (h : p.Reaches kind answers s log) :
    s.history.length ≤ n.toNat + answers.countP Answer.isFailed ∧
      (s.status.isTerminal = false →
        s.history.length + 1 ≤ n.toNat + answers.countP Answer.isFailed) := by
  induction h with
  | new => exact ⟨Nat.zero_le _, fun _ ↦ hpos⟩
  | @call answers s log _ turns w hreturned ih =>
    rw [List.countP_append, List.countP_singleton]
    cases hs : s.status.isTerminal with
    | true =>
      rw [run_of_isTerminal hs]
      exact ⟨Nat.le_trans ih.1 (by omega), fun hs' ↦ absurd hs (by simp [hs'])⟩
    | false =>
      have hlt := ih.2 hs
      have hle := length_history_run_le (p := p.logged) hn hs turns (w, log)
      have hfits := answer_fits (p := p.logged) turns s (w, log)
      cases hanswer : (p.logged.run turns s (w, log)).answer with
      | unfinished => exact absurd hanswer hreturned
      | failed e =>
        -- the run that may be one too many is paid for by the failure
        have hfailed : (Answer.failed e).isFailed = true := rfl
        rw [if_pos hfailed]
        exact ⟨by omega, fun _ ↦ by omega⟩
      | status st =>
        rw [hanswer] at hfits
        exact ⟨by omega, fun hs' ↦ absurd hfits.2 (by simp [hs'])⟩

/-- **How many runs there can be.** A phase with a budget of at least one run never has more runs
than this, in a further call either, but for one more with every call that has failed. -/
theorem Reaches.length_history_run_le_budget (hn : p.Budget n) (hpos : 1 ≤ n.toNat) {kind : κ}
    {answers : List Answer} {s : PhaseState κ} {log : List LogEntry}
    (h : p.Reaches kind answers s log) (turns : ℕ) (w : ω) :
    (p.run turns s w).state.history.length ≤ n.toNat + answers.countP Answer.isFailed := by
  obtain ⟨hle, hlt⟩ := h.length_history_lt hn hpos
  cases hs : s.status.isTerminal with
  | true =>
    rw [run_of_isTerminal hs]
    exact hle
  | false =>
    have hrun := length_history_run_le hn hs turns w
    have hlt := hlt hs
    omega

/-- A phase of one run, by its cap and by its rule, whose first bookkeeping fails. -/
def oneRun : Phase ℕ ℕ where
  policy :=
    { label := "native"
      afterRun := fun i _ x ↦ if i = 1 then .error (.report "disk full") x else .ok () x }
  launcher := { launch := fun _ w ↦ .ok .normal w, now := fun _ ↦ .epoch }
  rule := .runout 1
  spec := { program := "app" }
  maxRuns := some 1

/-- The extra run is there. -/
theorem Reaches.length_history_run_le_budget_oneRun :
    let first := oneRun.logged.run 5 { kind := 0 } (0, [])
    first.answer = .failed (.report "disk full") ∧
      (oneRun.run 5 first.state 0).state.history.length = 2 ∧
      (oneRun.run 5 first.state 0).state.history.length ≤
        (1 : UInt64).toNat + [first.answer].countP Answer.isFailed := by
  intro first
  have hreaches : oneRun.Reaches 0 [first.answer] first.state first.world.2 :=
    .call .new 5 0 (by decide)
  exact ⟨by decide, by decide,
    hreaches.length_history_run_le_budget (.inl rfl) (by decide) 5 0⟩

/-- A cap is exceeded, and so is the number of runs of a `runout` rule: the only run is booked in
vain, and the phase is called again. -/
theorem Reaches.exceeds_budget :
    oneRun.maxRuns = some 1 ∧ oneRun.rule = .runout 1 ∧
      ∃ answers s log, oneRun.Reaches 0 answers s log ∧ s.status = .converged ∧
        ¬ s.history.length ≤ 1 := by
  let first := oneRun.logged.run 5 { kind := 0 } (0, [])
  have hreaches : oneRun.Reaches 0 [first.answer] first.state first.world.2 :=
    .call .new 5 0 (by decide)
  exact ⟨rfl, rfl, _, _, _, hreaches.call 5 0 (by decide), by decide, by decide⟩

end Phase

/-!
## Enough turns

A call is given a number of turns, while the loop of a phase has no such bound. This makes no
difference to a call that comes back: more turns do not change what it comes to (`Phase.run_mono`).
A call that has not come back has made a run in every turn, and none of them has ended it
(`Phase.length_history_of_unfinished`). So a phase with a budget comes back when it has as many
turns as the budget allows runs, and one at least (`Phase.run_ne_unfinished`).

A campaign of two phases gives the turns to each of them.
-/

namespace Phase

variable {κ ω : Type} {p : Phase κ ω} {spec : RunSpec} {s : PhaseState κ} {w : ω} {n m : ℕ}

/-! ### One phase -/

/-- A turn goes on when the run is booked and the stop rule does not hold. -/
theorem exists_asked_of_goOn (h : (p.turn spec s w).verdict = .goOn) :
    ∃ asked now, (p.shouldStop asked now).1 = false ∧
      asked.history.length = s.history.length + 1 ∧
      (p.turn spec s w).state = (p.shouldStop asked now).2 := by
  cases hlaunch : p.launcher.launch spec w with
  | error e w' =>
    rw [turn_of_launch_error hlaunch] at h
    contradiction
  | ok outcome w' =>
    cases hfatal : outcome.isFatal with
    | true =>
      rw [turn_of_fatal hlaunch hfatal] at h
      contradiction
    | false =>
      cases hbooking : p.policy.afterRun (s.history.length + 1) (p.recordOf w w' outcome)
          (s.kind, w') with
      | error e x =>
        rw [turn_of_booking_error hlaunch hfatal hbooking] at h
        contradiction
      | ok u x =>
        rw [turn_of_booked hlaunch hfatal hbooking] at h ⊢
        dsimp only at h ⊢
        split at h
        · contradiction
        · next hstop =>
          rw [if_neg hstop]
          exact ⟨_, _, Bool.eq_false_iff.mpr hstop, List.length_append, rfl⟩

theorem length_history_turn_of_goOn (h : (p.turn spec s w).verdict = .goOn) :
    (p.turn spec s w).state.history.length = s.history.length + 1 := by
  obtain ⟨asked, now, -, hlength, hstate⟩ := exists_asked_of_goOn h
  rw [hstate, history_shouldStop, hlength]

theorem length_history_lt_of_goOn {b : UInt64} (hb : p.Budget b)
    (h : (p.turn spec s w).verdict = .goOn) : s.history.length + 1 < b.toNat := by
  obtain ⟨asked, now, hstop, hlength, -⟩ := exists_asked_of_goOn h
  rw [← hlength]
  refine Nat.lt_of_not_le fun hle ↦ ?_
  rw [shouldStop_of_budget hb hle] at hstop
  contradiction

/-- More turns do not change what has come to an end. -/
theorem iterate_mono (h : (p.iterate spec n s w).verdict ≠ .goOn) (hnm : n ≤ m) :
    p.iterate spec m s w = p.iterate spec n s w := by
  induction n generalizing s w m with
  | zero => exact absurd rfl h
  | succ n ih =>
    obtain ⟨k, rfl⟩ := Nat.exists_eq_add_of_le hnm
    rw [Nat.add_right_comm] at hnm ⊢
    by_cases hv : (p.turn spec s w).verdict = .goOn
    · rw [iterate_succ_of_verdict hv] at h
      rw [iterate_succ_of_verdict hv, iterate_succ_of_verdict hv, ih h (Nat.le_add_right n k)]
    · rw [iterate_succ_of_ne_goOn hv, iterate_succ_of_ne_goOn hv]

theorem length_history_iterate_of_goOn (h : (p.iterate spec n s w).verdict = .goOn) :
    (p.iterate spec n s w).state.history.length = s.history.length + n := by
  induction n generalizing s w with
  | zero => rfl
  | succ n ih =>
    by_cases hv : (p.turn spec s w).verdict = .goOn
    · rw [iterate_succ_of_verdict hv] at h ⊢
      rw [ih h, length_history_turn_of_goOn hv, Nat.add_right_comm, Nat.add_assoc]
    · rw [iterate_succ_of_ne_goOn hv] at h
      exact absurd h hv

/-- The turns that are left are at least as many as the runs that the budget leaves. -/
theorem iterate_ne_goOn {b : UInt64} (hb : p.Budget b) (hn : b.toNat ≤ s.history.length + n)
    (hpos : 1 ≤ n) : (p.iterate spec n s w).verdict ≠ .goOn := by
  induction n generalizing s w with
  | zero => contradiction
  | succ n ih =>
    by_cases hv : (p.turn spec s w).verdict = .goOn
    · have hlt := length_history_lt_of_goOn hb hv
      have hlength := length_history_turn_of_goOn hv
      rw [iterate_succ_of_verdict hv]
      exact ih (by omega) (by omega)
    · rwa [iterate_succ_of_ne_goOn hv]

theorem answer_conclude_eq_unfinished_iff {t : Turn κ ω} :
    (p.conclude t).answer = .unfinished ↔ t.verdict = .goOn := by
  rw [conclude]
  cases t.verdict <;> simp

theorem run_mono (h : (p.run n s w).answer ≠ .unfinished) (hnm : n ≤ m) :
    p.run m s w = p.run n s w := by
  cases hs : s.status.isTerminal with
  | true => rw [run_of_isTerminal hs, run_of_isTerminal hs]
  | false =>
    rw [run_of_not_isTerminal hs] at h
    rw [run_of_not_isTerminal hs, run_of_not_isTerminal hs,
      iterate_mono (mt answer_conclude_eq_unfinished_iff.mpr h) hnm]

theorem length_history_of_unfinished (h : (p.run n s w).answer = .unfinished) :
    (p.run n s w).state.history.length = s.history.length + n := by
  cases hs : s.status.isTerminal with
  | true =>
    rw [run_of_isTerminal hs] at h
    contradiction
  | false =>
    rw [run_of_not_isTerminal hs] at h ⊢
    obtain ⟨_, hstate, -⟩ := conclude_eq p (p.iterate (p.policy.configure p.spec) n
      { s with status := .running, started := some (p.launcher.now w) } w)
    rw [hstate]
    exact length_history_iterate_of_goOn (answer_conclude_eq_unfinished_iff.mp h)

theorem run_ne_unfinished {b : UInt64} (hb : p.Budget b) (hn : b.toNat ≤ n) (hpos : 1 ≤ n) :
    (p.run n s w).answer ≠ .unfinished := by
  cases hs : s.status.isTerminal with
  | true =>
    rw [run_of_isTerminal hs]
    exact Answer.noConfusion
  | false =>
    rw [run_of_not_isTerminal hs, ne_eq, answer_conclude_eq_unfinished_iff]
    exact iterate_ne_goOn hb (Nat.le_add_left_of_le hn) hpos

end Phase

namespace TwoPhase

variable {κ₁ κ₂ ω : Type} {c : TwoPhase κ₁ κ₂ ω} {s : TwoPhaseState κ₁ κ₂} {w : ω} {n m : ℕ}

/-! ### Two phases -/

/-- A call has not come back if one of the calls of the phases has not, of which the second is only
made if the first phase has not ended fatally. -/
theorem answer_run_eq_unfinished_iff (hs : s.status.isTerminal = false) :
    (c.run n s w).answer = .unfinished ↔ (c.first.run n s.first w).answer = .unfinished ∨
      ∃ st, (c.first.run n s.first w).answer = .status st ∧ st.isFatal = false ∧
        (c.second.run n s.second (c.first.run n s.first w).world).answer = .unfinished := by
  rw [run, hs]
  cases hfirst : (c.first.run n s.first w).answer with
  | failed | unfinished => simp [hfirst]
  | status st =>
    cases hfatal : st.isFatal with
    | true => simp [hfirst, hfatal]
    | false =>
      cases hsecond : (c.second.run n s.second (c.first.run n s.first w).world).answer <;>
        simp [hfirst, hfatal, hsecond]

theorem run_mono (h : (c.run n s w).answer ≠ .unfinished) (hnm : n ≤ m) :
    c.run m s w = c.run n s w := by
  cases hs : s.status.isTerminal with
  | true => rw [run, run, if_pos hs, if_pos hs]
  | false =>
    rw [ne_eq, answer_run_eq_unfinished_iff hs, not_or] at h
    obtain ⟨hfirst, hsecond⟩ := h
    have hsame := Phase.run_mono hfirst hnm
    cases hanswer : (c.first.run n s.first w).answer with
    | failed | unfinished => simp [run, hsame, hanswer]
    | status st =>
      cases hfatal : st.isFatal with
      | true => simp [run, hsame, hanswer, hfatal]
      | false =>
        have hsecond := Phase.run_mono (fun h ↦ hsecond ⟨st, hanswer, hfatal, h⟩) hnm
        simp [run, hsame, hanswer, hfatal, hsecond]

theorem le_length_histories_of_unfinished (h : (c.run n s w).answer = .unfinished) :
    n ≤ (c.run n s w).state.first.history.length + (c.run n s w).state.second.history.length := by
  cases hs : s.status.isTerminal with
  | true =>
    rw [run, if_pos hs] at h
    contradiction
  | false =>
    rcases (answer_run_eq_unfinished_iff hs).mp h with hfirst | ⟨st, hfirst, hfatal, hsecond⟩
    · have hlength := Phase.length_history_of_unfinished hfirst
      simp only [run, hs, hfirst, Bool.false_eq_true, if_false]
      omega
    · have hlength := Phase.length_history_of_unfinished hsecond
      simp only [run, hs, hfirst, hfatal, hsecond, Bool.false_eq_true, if_false]
      omega

theorem run_ne_unfinished (hfirst : ∀ s w, (c.first.run n s w).answer ≠ .unfinished)
    (hsecond : ∀ s w, (c.second.run n s w).answer ≠ .unfinished) :
    (c.run n s w).answer ≠ .unfinished := by
  cases hs : s.status.isTerminal with
  | true =>
    rw [run, if_pos hs]
    exact Answer.noConfusion
  | false =>
    rw [ne_eq, answer_run_eq_unfinished_iff hs]
    rintro (h | ⟨_, _, _, h⟩)
    · exact hfirst _ _ h
    · exact hsecond _ _ h

end TwoPhase

end Interleave
