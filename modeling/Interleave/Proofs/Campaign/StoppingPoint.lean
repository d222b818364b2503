import Interleave.Proofs.Campaign.Log
import Interleave.Proofs.Campaign.Plateau
import Mathlib.Tactic.Choose

/-!
# Where a phase stops

A *course* is what a phase meets as it goes: the outcomes of the runs, and the states of the world
and of the policy between them. Along a course on which nothing fails, a new phase stops at the
first run that is fatal or after which there is a reason to stop. Whether there is one can be read
off the course (`Phase.StopsAt`), while the phase finds out from a state that it has kept.

So the state after `i` runs is written down (`Phase.stateAt`), and a turn is shown to lead from one
to the next as long as there is no reason to stop. From there the induction is on the number of
runs. That every run is booked once, unless it is fatal, is the same theorem for the logged phase,
whose course is that of the phase with the log in the world.
-/

namespace Interleave

/-- What a phase meets. Runs are counted from 1. -/
structure Course (κ ω : Type) where
  /-- The state of the policy after each run and its bookkeeping, and at the beginning. -/
  kind : ℕ → κ
  /-- The world after each run and its bookkeeping, and at the beginning. -/
  world : ℕ → ω
  /-- The world after each run alone. -/
  landed : ℕ → ω
  outcome : ℕ → Outcome

namespace Course

variable {κ ω : Type} (c : Course κ ω)

/-- How a phase ends that stops at a run. -/
def ending (i : ℕ) : Status := if (c.outcome i).isFatal then .fatal else .converged

/-- The world when a phase has stopped at a run. A fatal run is the last thing that happens. -/
def endWorld (i : ℕ) : ω := if (c.outcome i).isFatal then c.landed i else c.world i

end Course

namespace Phase

variable {κ ω : Type} (p : Phase κ ω) (c : Course κ ω)

/-! ## Reading a course -/

/-- The spec that is launched. -/
def target : RunSpec := p.policy.configure p.spec

/-- The record of a run of the course. -/
def record (i : ℕ) : RunRecord := p.recordOf (c.world (i - 1)) (c.landed i) (c.outcome i)

/-- The records of the first runs. -/
def records (i : ℕ) : List RunRecord := (List.range' 1 i).map (p.record c)

/-- The metrics after the first runs, where there is one. -/
def metrics (i : ℕ) : List Metric := (List.range' 1 i).filterMap fun j ↦ p.policy.metric (c.kind j)

/-- The stop rule is satisfied after a run. -/
def RuleMet (i : ℕ) : Prop :=
  match p.rule with
  | .runout n => n.toNat ≤ i
  | .timeout limit =>
    limit.total ≤ ((p.launcher.now (c.world i)).since (p.launcher.now (c.world 0))).total
  | .stable k => (p.policy.metric (c.kind i)).isSome = true ∧ Plateau.Steady k.toNat (p.metrics c i)
  | .finish => False

/-- A run is fatal, or there is a reason to stop after it. -/
def StopsAt (i : ℕ) : Prop :=
  1 ≤ i ∧ ((c.outcome i).isFatal = true ∨ (c.outcome i).isFatal = false ∧
    (p.policy.exhausted (c.kind i) = true ∨ p.RuleMet c i ∨
      ∃ max, p.maxRuns = some max ∧ max.toNat ≤ i))

theorem stopsAt_iff_of_not_fatal {i : ℕ} (h : (c.outcome i).isFatal = false) :
    p.StopsAt c i ↔ 1 ≤ i ∧ (p.policy.exhausted (c.kind i) = true ∨ p.RuleMet c i ∨
      ∃ max, p.maxRuns = some max ∧ max.toNat ≤ i) := by
  simp [StopsAt, h]

theorem stopsAt_of_ruleMet {i : ℕ} (hi : 1 ≤ i) (h : p.RuleMet c i) : p.StopsAt c i := by
  cases hfatal : (c.outcome i).isFatal with
  | true => exact ⟨hi, .inl hfatal⟩
  | false => exact (stopsAt_iff_of_not_fatal p c hfatal).mpr ⟨hi, .inr (.inl h)⟩

/-- What is asked of the world in the first runs: each one is launched, and booked unless fatal. -/
def requests (i : ℕ) : List LogEntry :=
  (List.range' 1 i).flatMap fun j ↦ .launched p.target (some (c.outcome j)) ::
    if (c.outcome j).isFatal then [] else [.booked j (p.record c j)]

/-- The course is that of the phase, up to where it stops: no launch and no bookkeeping fails. -/
structure Follows : Prop where
  launch : ∀ i, (∀ j ≤ i, ¬ p.StopsAt c j) →
    p.launcher.launch p.target (c.world i) = .ok (c.outcome (i + 1)) (c.landed (i + 1))
  afterRun : ∀ i, (∀ j ≤ i, ¬ p.StopsAt c j) → (c.outcome (i + 1)).isFatal = false →
    p.policy.afterRun (i + 1) (p.record c (i + 1)) (c.kind i, c.landed (i + 1)) =
      .ok () (c.kind (i + 1), c.world (i + 1))

/-- If launches and bookkeeping never fail, the phase has a course from every beginning. -/
theorem exists_follows (k : κ) (w : ω)
    (hlaunch : ∀ w, ∃ outcome landed, p.launcher.launch p.target w = .ok outcome landed)
    (hafterRun : ∀ i record x, ∃ y, p.policy.afterRun i record x = .ok () y) :
    ∃ c : Course κ ω, c.kind 0 = k ∧ c.world 0 = w ∧ p.Follows c := by
  choose outcome landed hlaunch using hlaunch
  choose next hafterRun using hafterRun
  let after : ℕ → κ × ω := Nat.rec (k, w) fun i x ↦
    next (i + 1) (p.recordOf x.2 (landed x.2) (outcome x.2)) (x.1, landed x.2)
  refine ⟨⟨fun i ↦ (after i).1, fun i ↦ (after i).2, fun i ↦ landed (after (i - 1)).2,
    fun i ↦ outcome (after (i - 1)).2⟩, rfl, rfl, ?_, ?_⟩
  · exact fun i _ ↦ hlaunch (after i).2
  · exact fun i _ _ ↦ hafterRun (i + 1) _ _

/-! ## The state after some runs -/

/-- The plateau after some runs. Only the `stable` rule keeps one. -/
def plateauAt (i : ℕ) : Plateau :=
  match p.rule with
  | .stable _ => Plateau.observeAll {} (p.metrics c i)
  | .runout _ | .timeout _ | .finish => {}

/-- The state of a phase that has not stopped. -/
def stateAt (i : ℕ) : PhaseState κ where
  kind := c.kind i
  status := .running
  history := p.records c i
  plateau := p.plateauAt c i
  started := some (p.launcher.now (c.world 0))

/-- The state in which the stop rule is asked after a run: the run is booked, and its metric has not
been looked at. -/
def askedAt (i : ℕ) : PhaseState κ := { p.stateAt c (i + 1) with plateau := p.plateauAt c i }

variable {i : ℕ}

theorem range'_one_succ (i : ℕ) : List.range' 1 (i + 1) = List.range' 1 i ++ [i + 1] := by
  rw [List.range'_1_concat, Nat.add_comm 1 i]

theorem records_succ (i : ℕ) : p.records c (i + 1) = p.records c i ++ [p.record c (i + 1)] := by
  rw [records, range'_one_succ, List.map_append]
  rfl

theorem length_records (i : ℕ) : (p.records c i).length = i := by
  rw [records, List.length_map, List.length_range']

theorem metrics_succ (i : ℕ) :
    p.metrics c (i + 1) = p.metrics c i ++ (p.policy.metric (c.kind (i + 1))).toList := by
  rw [metrics, range'_one_succ, List.filterMap_append, List.filterMap_cons, List.filterMap_nil]
  cases p.policy.metric (c.kind (i + 1)) <;> rfl

/-- The plateau that comes with the answer of the rule is the one to be kept. -/
theorem ruleHolds_askedAt_snd (i : ℕ) :
    (p.ruleHolds (p.askedAt c i) (p.launcher.now (c.world (i + 1)))).2 =
      p.plateauAt c (i + 1) := by
  cases hrule : p.rule with
  | runout _ => simp only [ruleHolds, plateauAt, hrule, askedAt]
  | timeout _ => simp only [ruleHolds, plateauAt, hrule, askedAt]
  | finish => simp only [ruleHolds, plateauAt, hrule, askedAt]
  | stable k =>
    -- a policy without a metric leaves the plateau as it is, and adds nothing to the metrics
    have hmetrics := metrics_succ p c i
    cases hmetric : p.policy.metric (c.kind (i + 1)) with
    | none =>
      rw [hmetric, Option.toList_none, List.append_nil] at hmetrics
      simp [ruleHolds, plateauAt, hrule, askedAt, stateAt, hmetric, hmetrics]
    | some m =>
      rw [hmetric, Option.toList_some] at hmetrics
      simp [ruleHolds, plateauAt, hrule, askedAt, stateAt, hmetric, hmetrics,
        Plateau.observeAll_concat]

/-- The metrics do not end with as many repetitions as the rule asks for before there is a reason to
stop. It is the last metric that would be the reason, whenever it was seen. -/
theorem not_steady_metrics {k : UInt32} (hrule : p.rule = .stable k) (hk : k.toNat ≠ 0)
    (hgo : ∀ j ≤ i, ¬ p.StopsAt c j) : ¬ Plateau.Steady k.toNat (p.metrics c i) := by
  induction i with
  | zero => exact fun h ↦ hk (Nat.le_zero.mp h.le_length)
  | succ i ih =>
    cases hmetric : p.policy.metric (c.kind (i + 1)) with
    | none =>
      rw [metrics_succ, hmetric, Option.toList_none, List.append_nil]
      exact ih fun j hj ↦ hgo j (Nat.le_succ_of_le hj)
    | some m =>
      intro h
      have hmet : p.RuleMet c (i + 1) := by
        rw [RuleMet, hrule, hmetric]
        exact ⟨rfl, h⟩
      exact hgo (i + 1) (Nat.le_refl _) (stopsAt_of_ruleMet p c (Nat.succ_pos i) hmet)

/-- The rule holds in the state that is kept when it is met on the course. -/
theorem ruleHolds_askedAt_fst (hgo : ∀ j ≤ i, ¬ p.StopsAt c j) :
    (p.ruleHolds (p.askedAt c i) (p.launcher.now (c.world (i + 1)))).1 = true ↔
      p.RuleMet c (i + 1) := by
  cases hrule : p.rule with
  | runout n => simp [ruleHolds, RuleMet, hrule, askedAt, stateAt, length_records]
  | timeout limit =>
    simp only [ruleHolds, RuleMet, hrule, askedAt, stateAt, PhaseState.used]
    exact decide_eq_true_iff
  | finish => simp [ruleHolds, RuleMet, hrule]
  | stable k =>
    cases hmetric : p.policy.metric (c.kind (i + 1)) with
    | none => simp [ruleHolds, RuleMet, hrule, askedAt, stateAt, hmetric]
    | some m =>
      -- the rule has not been met before, so that the word that counts has not started again
      have hle := Plateau.le_length_observeAll_concat_iff m fun hk ↦
        not_steady_metrics p c hrule hk hgo
      simp [ruleHolds, RuleMet, plateauAt, hrule, askedAt, stateAt, hmetric, metrics_succ, ← hle,
        Plateau.observeAll_concat]

theorem capReached_askedAt (i : ℕ) :
    p.capReached (p.askedAt c i) = true ↔ ∃ max, p.maxRuns = some max ∧ max.toNat ≤ i + 1 := by
  cases hmax : p.maxRuns with
  | none => simp [capReached, hmax]
  | some max => simp [capReached, hmax, askedAt, stateAt, length_records]

theorem shouldStop_askedAt (hgo : ∀ j ≤ i, ¬ p.StopsAt c j)
    (hnormal : (c.outcome (i + 1)).isFatal = false) :
    ((p.shouldStop (p.askedAt c i) (p.launcher.now (c.world (i + 1)))).1 = true ↔
      p.StopsAt c (i + 1)) := by
  rw [stopsAt_iff_of_not_fatal p c hnormal, and_iff_right (Nat.le_add_left 1 i),
    ← ruleHolds_askedAt_fst p c hgo, ← capReached_askedAt p c i, shouldStop]
  cases hex : p.policy.exhausted (p.askedAt c i).kind with
  | true => exact iff_of_true rfl (.inl hex)
  | false =>
    have hex : p.policy.exhausted (c.kind (i + 1)) = false := hex
    simp [hex]

/-- When there is no reason to stop, the state is that of a phase that has not stopped. -/
theorem shouldStop_askedAt_snd
    (h : (p.shouldStop (p.askedAt c i) (p.launcher.now (c.world (i + 1)))).1 = false) :
    (p.shouldStop (p.askedAt c i) (p.launcher.now (c.world (i + 1)))).2 = p.stateAt c (i + 1) := by
  have hplateau := ruleHolds_askedAt_snd p c i
  rw [shouldStop] at h ⊢
  cases hex : p.policy.exhausted (p.askedAt c i).kind with
  | true => simp [hex] at h
  | false =>
    rw [if_neg Bool.false_ne_true]
    dsimp only
    rw [hplateau]
    rfl

variable {p c}

/-! ## Turns along a course -/

/-- A run that is not fatal is booked, and the stop rule is asked. -/
theorem turn_stateAt (h : p.Follows c) (hgo : ∀ j ≤ i, ¬ p.StopsAt c j)
    (hnormal : (c.outcome (i + 1)).isFatal = false) :
    p.turn p.target (p.stateAt c i) (c.world i) =
      let asked := p.shouldStop (p.askedAt c i) (p.launcher.now (c.world (i + 1)))
      if asked.1 then ⟨.stop, { asked.2 with status := .converged }, c.world (i + 1)⟩
      else ⟨.goOn, asked.2, c.world (i + 1)⟩ := by
  have hbooked := h.afterRun i hgo hnormal
  -- the number under which a run is booked is read off the history
  nth_rewrite 1 [← length_records p c i] at hbooked
  rw [turn_of_booked (h.launch i hgo) hnormal hbooked, askedAt, stateAt, stateAt, records_succ]
  rfl

theorem turn_stateAt_of_not_stopsAt (h : p.Follows c) (hgo : ∀ j ≤ i + 1, ¬ p.StopsAt c j) :
    p.turn p.target (p.stateAt c i) (c.world i) =
      ⟨.goOn, p.stateAt c (i + 1), c.world (i + 1)⟩ := by
  have hstop := hgo (i + 1) (Nat.le_refl _)
  have hbefore : ∀ j ≤ i, ¬ p.StopsAt c j := fun j hj ↦ hgo j (Nat.le_succ_of_le hj)
  have hnormal : (c.outcome (i + 1)).isFatal = false :=
    Bool.eq_false_iff.mpr fun hfatal ↦ hstop ⟨Nat.succ_pos i, .inl hfatal⟩
  rw [← shouldStop_askedAt p c hbefore hnormal, Bool.not_eq_true] at hstop
  rw [turn_stateAt h hbefore hnormal]
  dsimp only
  rw [hstop, shouldStop_askedAt_snd p c hstop]
  rfl

theorem turn_stateAt_of_stopsAt (h : p.Follows c) (hgo : ∀ j ≤ i, ¬ p.StopsAt c j)
    (hstop : p.StopsAt c (i + 1)) :
    ∃ s, p.turn p.target (p.stateAt c i) (c.world i) = ⟨.stop, s, c.endWorld (i + 1)⟩ ∧
      s.status = c.ending (i + 1) ∧ s.history = p.records c (i + 1) := by
  rw [Course.endWorld, Course.ending]
  cases hfatal : (c.outcome (i + 1)).isFatal with
  | true => exact ⟨_, turn_of_fatal (h.launch i hgo) hfatal, rfl, (records_succ p c i).symm⟩
  | false =>
    rw [← shouldStop_askedAt p c hgo hfatal] at hstop
    rw [turn_stateAt h hgo hfatal]
    dsimp only
    rw [hstop]
    exact ⟨_, rfl, rfl, history_shouldStop p _ _⟩

/-! ## The whole of it -/

theorem iterate_stateAt (h : p.Follows c) (n : ℕ) (hgo : ∀ j ≤ i, ¬ p.StopsAt c j) :
    p.iterate p.target (i + n) (p.stateAt c 0) (c.world 0) =
      p.iterate p.target n (p.stateAt c i) (c.world i) := by
  -- the turns left over are those of the next run, hence the induction for all of them at once
  induction i generalizing n with
  | zero => rw [Nat.zero_add]
  | succ i ih =>
    rw [Nat.add_assoc, Nat.add_comm 1 n, ih (n + 1) fun j hj ↦ hgo j (Nat.le_succ_of_le hj)]
    exact iterate_succ_of_goOn (turn_stateAt_of_not_stopsAt h hgo)

theorem run_new (turns : ℕ) :
    p.run turns { kind := c.kind 0 } (c.world 0) =
      p.conclude (p.iterate p.target turns (p.stateAt c 0) (c.world 0)) := by
  have hplateau : p.plateauAt c 0 = {} := by
    rw [plateauAt]
    cases p.rule <;> rfl
  rw [run_of_not_isTerminal rfl, stateAt, hplateau]
  rfl

theorem run_of_not_stopsAt (h : p.Follows c) {turns : ℕ} (hgo : ∀ j ≤ turns, ¬ p.StopsAt c j) :
    (p.run turns { kind := c.kind 0 } (c.world 0)).answer = .unfinished := by
  have hiterate := iterate_stateAt h 0 hgo
  rw [Nat.add_zero] at hiterate
  rw [run_new, hiterate]
  rfl

theorem run_of_stopsAt (h : p.Follows c) (hstop : p.StopsAt c i) (hgo : ∀ j < i, ¬ p.StopsAt c j)
    {turns : ℕ} (hturns : i ≤ turns) :
    let call := p.run turns { kind := c.kind 0 } (c.world 0)
    call.answer = .status (c.ending i) ∧ call.state.status = c.ending i ∧
      call.state.history = p.records c i ∧ call.world = c.endWorld i := by
  obtain ⟨i, rfl⟩ := Nat.exists_eq_add_of_le' hstop.1
  obtain ⟨n, rfl⟩ := Nat.exists_eq_add_of_le hturns
  have hgo : ∀ j ≤ i, ¬ p.StopsAt c j := fun j hj ↦ hgo j (Nat.lt_succ_of_le hj)
  obtain ⟨s, hturn, hstatus, hhistory⟩ := turn_stateAt_of_stopsAt h hgo hstop
  rw [run_new, Nat.add_assoc, Nat.add_comm 1 n, iterate_stateAt h (n + 1) hgo,
    iterate_succ_of_ne_goOn (by rw [hturn]; exact Verdict.noConfusion), hturn]
  exact ⟨congrArg Answer.status hstatus, hstatus, hhistory, rfl⟩

/-! ## The course of the logged phase -/

variable (p c)

theorem requests_succ_of_fatal (h : (c.outcome (i + 1)).isFatal = true) :
    p.requests c (i + 1) =
      p.requests c i ++ [.launched p.target (some (c.outcome (i + 1)))] := by
  rw [requests, range'_one_succ, List.flatMap_append, List.flatMap_singleton, h]
  rfl

theorem requests_succ_of_normal (h : (c.outcome (i + 1)).isFatal = false) :
    p.requests c (i + 1) = p.requests c i ++ [.launched p.target (some (c.outcome (i + 1)))] ++
      [.booked (i + 1) (p.record c (i + 1))] := by
  rw [requests, range'_one_succ, List.flatMap_append, List.flatMap_singleton, h, List.append_assoc]
  rfl

def loggedCourse : Course κ (ω × List LogEntry) where
  kind := c.kind
  world := fun i ↦ (c.world i, p.requests c i)
  landed := fun i ↦
    (c.landed i, p.requests c (i - 1) ++ [.launched p.target (some (c.outcome i))])
  outcome := c.outcome

theorem record_loggedCourse (i : ℕ) : p.logged.record (p.loggedCourse c) i = p.record c i := rfl

theorem stopsAt_logged (i : ℕ) : p.logged.StopsAt (p.loggedCourse c) i ↔ p.StopsAt c i := Iff.rfl

variable {p c}

theorem Follows.logged (h : p.Follows c) : p.logged.Follows (p.loggedCourse c) where
  launch i hgo := launch_logged_of_ok (h.launch i hgo)
  afterRun i hgo hnormal := by
    rw [record_loggedCourse]
    refine (afterRun_logged_of_ok (h.afterRun i hgo hnormal)).trans ?_
    have hlog := requests_succ_of_normal p c hnormal
    exact congrArg (fun log ↦ EStateM.Result.ok () (c.kind (i + 1), c.world (i + 1), log)) hlog.symm

/-- When the phase has stopped, the log is that of the course. -/
theorem endWorld_loggedCourse (i : ℕ) :
    ((p.loggedCourse c).endWorld (i + 1)).2 = p.requests c (i + 1) := by
  rw [Course.endWorld]
  cases hfatal : ((p.loggedCourse c).outcome (i + 1)).isFatal with
  | true => exact (requests_succ_of_fatal p c hfatal).symm
  | false => rfl

/-- **Where a phase stops.** Along a course on which nothing fails, a new phase stops at the first
run that is fatal or after which there is a reason to stop. It has the records of the runs up to
this one, and every run has been launched in turn and then booked under its number, a fatal one not.
If there is no such run, the phase goes on for ever. -/
theorem run_stops_exactly (h : p.Follows c) :
    (∀ i, p.StopsAt c i → (∀ j < i, ¬ p.StopsAt c j) → ∀ turns, i ≤ turns →
      let call := p.logged.run turns { kind := c.kind 0 } (c.world 0, [])
      call.erase = p.run turns { kind := c.kind 0 } (c.world 0) ∧
        call.answer = .status (c.ending i) ∧ call.state.status = c.ending i ∧
        call.state.history = p.records c i ∧ call.world.2 = p.requests c i) ∧
      ((∀ i, ¬ p.StopsAt c i) → ∀ turns,
        (p.run turns { kind := c.kind 0 } (c.world 0)).answer = .unfinished) := by
  refine ⟨fun i hstop hgo turns hturns ↦ ?_, fun hgo _ ↦ run_of_not_stopsAt h fun j _ ↦ hgo j⟩
  -- the log is in the world, so that it is the theorem on the world that says what is in it
  obtain ⟨hanswer, hstatus, hhistory, hworld⟩ :=
    run_of_stopsAt h.logged ((stopsAt_logged p c i).mpr hstop) hgo hturns
  obtain ⟨i, rfl⟩ := Nat.exists_eq_add_of_le' hstop.1
  refine ⟨erase_run_logged p turns _ _, hanswer, hstatus, hhistory, ?_⟩
  rw [← endWorld_loggedCourse]
  exact congrArg Prod.snd hworld

/-- The third run crashes, and would have been the last one anyway. -/
theorem run_stops_exactly_crash :
    let spec : RunSpec := { program := "app" }
    let p : Phase ℕ ℕ :=
      { policy := { label := "native", afterRun := fun _ _ (k, w) ↦ .ok () (k + 1, w) }
        launcher :=
          { launch := fun _ w ↦ .ok (if w = 2 then .crash else .normal) (w + 1)
            now := fun _ ↦ .epoch }
        rule := .runout 3
        spec
        maxRuns := some 3 }
    let call := p.logged.run 5 { kind := 0 } (0, [])
    let r : RunRecord := ⟨.epoch, .epoch, .normal⟩
    call.answer = .status .fatal ∧ call.state.history = [r, r, ⟨.epoch, .epoch, .crash⟩] ∧
      call.world.2 = [.launched spec (some .normal), .booked 1 r, .launched spec (some .normal),
        .booked 2 r, .launched spec (some .crash)] := by
  intro spec p call r
  let c : Course ℕ ℕ :=
    { kind := id, world := id, landed := id, outcome := fun i ↦ if i = 3 then .crash else .normal }
  have hfollows : p.Follows c := by
    refine ⟨fun i _ ↦ ?_, fun i _ _ ↦ rfl⟩
    by_cases hi : i = 2 <;> simp [p, c, hi]
  have hgo : ∀ j < 3, ¬ p.StopsAt c j := by
    rintro j hj ⟨-, hfatal | ⟨-, hexhausted | hrule | ⟨max, hmax, hle⟩⟩⟩
    · simp [c, Nat.ne_of_lt hj, Outcome.isFatal] at hfatal
    · exact Bool.false_ne_true hexhausted
    · exact absurd hj (Nat.not_lt_of_le hrule)
    · cases hmax
      exact absurd hj (Nat.not_lt_of_le hle)
  obtain ⟨-, hanswer, -, hhistory, hlog⟩ :=
    (run_stops_exactly hfollows).1 3 ⟨by decide, .inl rfl⟩ hgo 5 (by decide)
  exact ⟨hanswer, hhistory, hlog⟩

end Phase

end Interleave
