import Interleave.Campaign.Phase
import Interleave.Proofs.Campaign.Lifecycle

/-!
# The order of two phases

The two phases of a campaign write one log, each entry marked by the phase that it comes from. All
entries of the first phase stand before those of the second, and there are none of the second unless
the first has converged (`TwoPhaseState.Ordered`). This holds between calls, and also while a call
has not come back.

Between calls the status of the campaign says of the two phases what it should
(`TwoPhaseState.Settled`). A call of a campaign that has not ended is a call of the first phase and
perhaps one of the second, and each of these ends or is left running (`Phase.answer_fits`), so there
are few cases.
-/

namespace Interleave

variable {κ₁ κ₂ ω : Type}

/-- The campaign in a world with a log. -/
def TwoPhase.logged (c : TwoPhase κ₁ κ₂ ω) : TwoPhase κ₁ κ₂ (ω × List (LogEntry ⊕ LogEntry)) where
  name := c.name
  first := c.first.marked .inl
  second := c.second.marked .inr

namespace TwoPhaseState

/-- The first phase comes before the second in the log, which has nothing of the second unless the
first has converged. -/
def Ordered (s : TwoPhaseState κ₁ κ₂) (log : List (LogEntry ⊕ LogEntry)) : Prop :=
  ∃ first second : List LogEntry, log = first.map .inl ++ second.map .inr ∧
    (second ≠ [] → s.first.status = .converged)

/-- The three statuses fit together, in a campaign whose second phase began with a policy in state
`kind`. -/
structure Settled (kind : κ₂) (s : TwoPhaseState κ₁ κ₂) : Prop where
  /-- The second phase waits for the first. -/
  waits : s.first.status ≠ .converged → s.second = { kind }
  fatal : s.status = .fatal ↔ s.isFatal = true
  converged : s.status = .converged → s.first.status = .converged ∧ s.second.status = .converged
  /-- A phase with runs has begun. -/
  begun : (s.first.status = .notStarted → s.first.history = []) ∧
    (s.second.status = .notStarted → s.second.history = [])

end TwoPhaseState

namespace TwoPhase

variable (c : TwoPhase κ₁ κ₂ ω)

/-- A campaign does as another one does if its phases project to those of the other. -/
theorem mapWorld_run {ω' : Type} {f : ω' → ω} (c' : TwoPhase κ₁ κ₂ ω')
    (hfirst : Phase.Projects f c'.first c.first) (hsecond : Phase.Projects f c'.second c.second)
    (turns : ℕ) (s : TwoPhaseState κ₁ κ₂) (w : ω') :
    (c'.run turns s w).mapWorld f = c.run turns s (f w) := by
  rw [run, run]
  cases s.status.isTerminal with
  | true => rfl
  | false =>
    simp only [Bool.false_eq_true, if_false, ← hfirst.mapWorld_run]
    generalize c'.first.run turns s.first w = r
    obtain ⟨answer, s₁, w⟩ := r
    cases answer with
    | failed | unfinished => rfl
    | status st =>
      cases hst : st.isFatal with
      | true => simp [Call.mapWorld, hst]
      | false =>
        simp only [Call.mapWorld, hst, Bool.false_eq_true, if_false]
        rw [← hsecond.mapWorld_run]
        generalize c'.second.run turns s.second w = r
        obtain ⟨answer, s₂, w⟩ := r
        cases answer <;> rfl

/-- The logged campaign does as the campaign does. -/
theorem mapWorld_run_logged (turns : ℕ) (s : TwoPhaseState κ₁ κ₂)
    (w : ω × List (LogEntry ⊕ LogEntry)) :
    (c.logged.run turns s w).mapWorld Prod.fst = c.run turns s w.1 :=
  c.mapWorld_run c.logged (c.first.projects_marked _) (c.second.projects_marked _) turns s w

/-! ## Calls -/

/-- What a call of the campaign can come to. -/
inductive Ran (turns : ℕ) (s : TwoPhaseState κ₁ κ₂) (w : ω) :
    Call (TwoPhaseState κ₁ κ₂) ω → Prop where
  | ended (hs : s.status.isTerminal = true) : Ran turns s w ⟨.status s.status, s, w⟩
  | firstLeft (hs : s.status.isTerminal = false) {answer : Answer} {s₁ : PhaseState κ₁} {w₁ : ω}
    (hfirst : c.first.run turns s.first w = ⟨answer, s₁, w₁⟩) (hleft : s₁.status = .running) :
    Ran turns s w ⟨answer, ⟨s₁, s.second, .running⟩, w₁⟩
  | firstFatal (hs : s.status.isTerminal = false) {s₁ : PhaseState κ₁} {w₁ : ω}
    (hfirst : c.first.run turns s.first w = ⟨.status .fatal, s₁, w₁⟩)
    (hfatal : s₁.status = .fatal) : Ran turns s w ⟨.status .fatal, ⟨s₁, s.second, .fatal⟩, w₁⟩
  | secondLeft (hs : s.status.isTerminal = false) {answer : Answer} {s₁ : PhaseState κ₁}
    {s₂ : PhaseState κ₂} {w₁ w₂ : ω}
    (hfirst : c.first.run turns s.first w = ⟨.status .converged, s₁, w₁⟩)
    (hconverged : s₁.status = .converged)
    (hsecond : c.second.run turns s.second w₁ = ⟨answer, s₂, w₂⟩) (hleft : s₂.status = .running) :
    Ran turns s w ⟨answer, ⟨s₁, s₂, .running⟩, w₂⟩
  | bothEnded (hs : s.status.isTerminal = false) {s₁ : PhaseState κ₁} {s₂ : PhaseState κ₂}
    {w₁ w₂ : ω} (hfirst : c.first.run turns s.first w = ⟨.status .converged, s₁, w₁⟩)
    (hconverged : s₁.status = .converged)
    (hsecond : c.second.run turns s.second w₁ = ⟨.status s₂.status, s₂, w₂⟩)
    (hends : s₂.status.isTerminal = true) :
    Ran turns s w ⟨.status s₂.status, ⟨s₁, s₂, s₂.status⟩, w₂⟩

theorem ran_run (turns : ℕ) (s : TwoPhaseState κ₁ κ₂) (w : ω) :
    c.Ran turns s w (c.run turns s w) := by
  rw [run]
  cases hs : s.status.isTerminal with
  | true => exact .ended hs
  | false =>
    have hfits := Phase.answer_fits (p := c.first) turns s.first w
    simp only [Bool.false_eq_true, if_false]
    cases hfirst : c.first.run turns s.first w with
    | mk answer s₁ w₁ =>
    rw [hfirst] at hfits
    cases answer with
    | failed | unfinished => exact .firstLeft hs hfirst hfits
    | status st =>
      obtain ⟨rfl, hends⟩ : st = s₁.status ∧ s₁.status.isTerminal = true := hfits
      cases hst : s₁.status with
      | notStarted | running =>
        rw [hst] at hends
        cases hends
      | fatal =>
        rw [hst] at hfirst
        simp only [Status.isFatal, if_true, TwoPhaseState.conclude, TwoPhaseState.isFatal, hst,
          Bool.true_or]
        exact .firstFatal hs hfirst hst
      | converged =>
        rw [hst] at hfirst
        have hfits := Phase.answer_fits (p := c.second) turns s.second w₁
        simp only [Status.isFatal, Bool.false_eq_true, if_false]
        cases hsecond : c.second.run turns s.second w₁ with
        | mk answer s₂ w₂ =>
        rw [hsecond] at hfits
        cases answer with
        | failed | unfinished => exact .secondLeft hs hfirst hst hsecond hfits
        | status st =>
          obtain ⟨rfl, hends⟩ : st = s₂.status ∧ s₂.status.isTerminal = true := hfits
          have hconclude : (if (TwoPhaseState.mk s₁ s₂ Status.running).isFatal then Status.fatal
              else .converged) = s₂.status := by
            cases hst₂ : s₂.status <;> simp_all [TwoPhaseState.isFatal, Status.isFatal,
              Status.isTerminal]
          rw [TwoPhaseState.conclude, hconclude]
          exact .bothEnded hs hfirst hst hsecond hends

variable {c} {kind₁ : κ₁} {kind₂ : κ₂} {turns : ℕ}

/-- A phase that has not converged is not called as one that has. -/
theorem Ran.settled {s : TwoPhaseState κ₁ κ₂} {w : ω} {call : Call (TwoPhaseState κ₁ κ₂) ω}
    (h : c.Ran turns s w call) (hs : s.Settled kind₂) : call.state.Settled kind₂ := by
  have hwaits : ∀ {answer s₁ w₁}, c.first.run turns s.first w = ⟨answer, s₁, w₁⟩ →
      s₁.status ≠ .converged → s.second = { kind := kind₂ } := by
    intro answer s₁ w₁ hfirst hs₁
    refine hs.waits fun hconverged ↦ hs₁ ?_
    rw [Phase.run_of_isTerminal (by rw [hconverged]; rfl)] at hfirst
    obtain ⟨-, rfl, -⟩ := Call.mk.inj hfirst
    exact hconverged
  cases h with
  | ended => exact hs
  | firstLeft _ hfirst hleft =>
    have hsecond := hwaits hfirst (by simp [hleft])
    exact ⟨fun _ ↦ hsecond, by simp [TwoPhaseState.isFatal, hleft, hsecond, Status.isFatal],
      by simp, by simp [hleft], hs.begun.2⟩
  | firstFatal _ hfirst hfatal =>
    exact ⟨fun _ ↦ hwaits hfirst (by simp [hfatal]),
      by simp [TwoPhaseState.isFatal, hfatal, Status.isFatal], by simp, by simp [hfatal],
      hs.begun.2⟩
  | secondLeft _ _ hconverged _ hleft =>
    exact ⟨by simp [hconverged], by simp [TwoPhaseState.isFatal, hconverged, hleft, Status.isFatal],
      by simp, by simp [hconverged], by simp [hleft]⟩
  | @bothEnded _ s₁ s₂ _ _ _ hconverged _ hends =>
    cases hst : s₂.status with
    | notStarted | running =>
      rw [hst] at hends
      cases hends
    | converged | fatal =>
      exact ⟨by simp [hconverged], by simp [TwoPhaseState.isFatal, hconverged, hst, Status.isFatal],
        by simp [hconverged, hst], by simp [hconverged], by simp [hst]⟩

/-- What the first phase does is behind the log of the first phase only, since it does nothing any
more when the second has begun. -/
theorem ordered_first {s : TwoPhaseState κ₁ κ₂} {w w₁ : ω}
    {log log₁ : List (LogEntry ⊕ LogEntry)} {answer : Answer} {s₁ : PhaseState κ₁}
    (hs : s.Ordered log)
    (hfirst : c.logged.first.run turns s.first (w, log) = ⟨answer, s₁, w₁, log₁⟩)
    {s₂ : PhaseState κ₂} {st : Status} : TwoPhaseState.Ordered ⟨s₁, s₂, st⟩ log₁ := by
  obtain ⟨first, second, hlog, hsecond⟩ := hs
  cases second with
  | nil =>
    obtain ⟨l, hl⟩ := c.first.log_run_marked Sum.inl turns s.first w log
    refine ⟨first ++ l, [], ?_, fun h ↦ absurd rfl h⟩
    change (c.logged.first.run turns s.first (w, log)).world.2 = _ at hl
    rw [hfirst, hlog] at hl
    simpa using hl
  | cons e second =>
    -- the second phase has begun, so the first has converged and is not run again
    have hconverged := hsecond (List.cons_ne_nil _ _)
    rw [Phase.run_of_isTerminal (by rw [hconverged]; rfl)] at hfirst
    obtain ⟨-, rfl, h⟩ := Call.mk.inj hfirst
    obtain ⟨-, rfl⟩ := Prod.mk.inj h
    exact ⟨first, e :: second, hlog, fun _ ↦ hconverged⟩

theorem ordered_second {s : TwoPhaseState κ₁ κ₂} {w w₂ : ω}
    {log log₂ : List (LogEntry ⊕ LogEntry)} {answer : Answer} {s₂ : PhaseState κ₂}
    (hs : s.Ordered log) (hconverged : s.first.status = .converged)
    (hsecond : c.logged.second.run turns s.second (w, log) = ⟨answer, s₂, w₂, log₂⟩) {st : Status} :
    TwoPhaseState.Ordered ⟨s.first, s₂, st⟩ log₂ := by
  obtain ⟨first, second, hlog, -⟩ := hs
  obtain ⟨l, hl⟩ := c.second.log_run_marked Sum.inr turns s.second w log
  change (c.logged.second.run turns s.second (w, log)).world.2 = _ at hl
  rw [hsecond, hlog] at hl
  exact ⟨first, second ++ l, by simpa using hl, fun _ ↦ hconverged⟩

theorem Ran.ordered {s : TwoPhaseState κ₁ κ₂} {w : ω} {log : List (LogEntry ⊕ LogEntry)}
    {call : Call (TwoPhaseState κ₁ κ₂) (ω × List (LogEntry ⊕ LogEntry))}
    (h : c.logged.Ran turns s (w, log) call) (hs : s.Ordered log) :
    call.state.Ordered call.world.2 := by
  cases h with
  | ended => exact hs
  | firstLeft _ hfirst | firstFatal _ hfirst => exact ordered_first hs hfirst
  | secondLeft _ hfirst hconverged hsecond | bothEnded _ hfirst hconverged hsecond =>
    exact ordered_second (s := ⟨_, s.second, .running⟩) (ordered_first hs hfirst) hconverged hsecond

/-! ## All calls of a life -/

/-- What a new campaign can come to by calls that have come back, with its log. The world may change
in any way between two calls. -/
inductive Reaches (c : TwoPhase κ₁ κ₂ ω) (kind₁ : κ₁) (kind₂ : κ₂) :
    TwoPhaseState κ₁ κ₂ → List (LogEntry ⊕ LogEntry) → Prop where
  | new : Reaches c kind₁ kind₂ { first := { kind := kind₁ }, second := { kind := kind₂ } } []
  | call {s : TwoPhaseState κ₁ κ₂} {log : List (LogEntry ⊕ LogEntry)}
    (h : Reaches c kind₁ kind₂ s log) (turns : ℕ) (w : ω)
    (hreturned : (c.logged.run turns s (w, log)).answer ≠ .unfinished) :
    Reaches c kind₁ kind₂ (c.logged.run turns s (w, log)).state
      (c.logged.run turns s (w, log)).world.2

theorem Reaches.settled {s : TwoPhaseState κ₁ κ₂} {log : List (LogEntry ⊕ LogEntry)}
    (h : c.Reaches kind₁ kind₂ s log) : s.Settled kind₂ ∧ s.Ordered log := by
  induction h with
  | new =>
    exact ⟨⟨fun _ ↦ rfl, by simp [TwoPhaseState.isFatal, Status.isFatal], by simp, by simp⟩,
      [], [], rfl, fun h ↦ absurd rfl h⟩
  | @call s log _ turns w _ ih =>
    have hran := c.logged.ran_run turns s (w, log)
    exact ⟨hran.settled ih.1, hran.ordered ih.2⟩

theorem stats_eq (s : TwoPhaseState κ₁ κ₂) (w : ω) :
    c.stats s w = (if s.first.status = .notStarted then [] else [c.first.stats s.first w]) ++
      if s.second.status = .notStarted then [] else [c.second.stats s.second w] := by
  rw [stats, List.filter_cons, List.filter_cons, List.filter_nil]
  simp only [Phase.stats]
  by_cases h₁ : s.first.status = .notStarted <;> by_cases h₂ : s.second.status = .notStarted <;>
    simp [h₁, h₂]

/-- **The order of two phases.** After any calls, failed ones included, and in a further call, the
log has the first phase before the second, and nothing of the second unless the first has converged;
a fatal first phase leaves the second as it began. The campaign is fatal exactly when one of its
phases is, converged only when both are, and an ended campaign does nothing any more. Its statistics
are those of the phases that have begun, in order, and a phase with runs has. -/
theorem Reaches.phases_in_order {s : TwoPhaseState κ₁ κ₂} {log : List (LogEntry ⊕ LogEntry)}
    (h : c.Reaches kind₁ kind₂ s log) :
    s.Ordered log ∧
      (s.first.status = .fatal → s.second.history = [] ∧ s.second.status = .notStarted) ∧
      (s.status = .fatal ↔ s.isFatal = true) ∧
      (s.isFatal = true ↔ s.first.status = .fatal ∨ s.second.status = .fatal) ∧
      (s.status = .converged → s.first.status = .converged ∧ s.second.status = .converged) ∧
      (∀ w, c.stats s w =
          (if s.first.status = .notStarted then [] else [c.first.stats s.first w]) ++
            if s.second.status = .notStarted then [] else [c.second.stats s.second w]) ∧
      (s.first.history ≠ [] → s.first.status ≠ .notStarted) ∧
      (s.second.history ≠ [] → s.second.status ≠ .notStarted) ∧
      ∀ turns w, let call := c.logged.run turns s (w, log)
        call.mapWorld Prod.fst = c.run turns s w ∧ call.state.Ordered call.world.2 ∧
          (s.status.isTerminal = true → call = ⟨.status s.status, s, (w, log)⟩) := by
  obtain ⟨hs, hordered⟩ := h.settled
  refine ⟨hordered, fun hfatal ↦ ?_, hs.fatal, ?_, hs.converged, stats_eq s, mt hs.begun.1,
    mt hs.begun.2, fun turns w ↦ ⟨c.mapWorld_run_logged turns s _,
      (c.logged.ran_run turns s (w, log)).ordered hordered, fun hterminal ↦ ?_⟩⟩
  · rw [hs.waits (by simp [hfatal])]
    exact ⟨rfl, rfl⟩
  · rw [TwoPhaseState.isFatal, Bool.or_eq_true]
    cases s.first.status <;> cases s.second.status <;> simp [Status.isFatal]
  · rw [run, if_pos hterminal]

/-- The first bookkeeping of the second phase fails, the campaign is called again, and the next run
of the second phase crashes. -/
theorem Reaches.phases_in_order_resumed :
    let spec : RunSpec := { program := "app" }
    let launcher : Launcher ℕ :=
      { launch := fun _ w ↦ .ok (if w = 2 then .crash else .normal) (w + 1), now := fun _ ↦ .epoch }
    let c : TwoPhase ℕ ℕ ℕ :=
      { name := "idiom"
        first :=
          { policy := { label := "profile", afterRun := fun _ _ x ↦ .ok () x }
            launcher
            rule := .runout 1
            spec }
        second :=
          { policy :=
              { label := "active"
                afterRun := fun i _ x ↦ if i = 1 then .error (.report "disk full") x else .ok () x }
            launcher
            rule := .finish
            spec } }
    let once := c.logged.run 5 { first := { kind := 0 }, second := { kind := 0 } } (0, [])
    let twice := c.logged.run 5 once.state (once.world.1, once.world.2)
    once.answer = .failed (.report "disk full") ∧ once.state.status = .running ∧
      twice.answer = .status .fatal ∧ c.Reaches 0 0 twice.state twice.world.2 ∧
      twice.state.Ordered twice.world.2 ∧ twice.state.isFatal = true ∧
      c.logged.run 5 twice.state (twice.world.1, twice.world.2) =
        ⟨.status .fatal, twice.state, (twice.world.1, twice.world.2)⟩ := by
  intro spec launcher c once twice
  have hreaches : c.Reaches 0 0 twice.state twice.world.2 :=
    .call (.call .new 5 0 (by decide)) 5 once.world.1 (by decide)
  have hstatus : twice.state.status = .fatal := by decide
  obtain ⟨hordered, -, hfatal, -, -, -, -, -, hcalls⟩ := hreaches.phases_in_order
  refine ⟨by decide, by decide, by decide, hreaches, hordered, hfatal.mp hstatus, ?_⟩
  rw [(hcalls 5 twice.world.1).2.2 (by rw [hstatus]; rfl), hstatus]

end TwoPhase

end Interleave
