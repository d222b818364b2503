import Mathlib.Algebra.GroupWithZero.Nat
import Interleave.Campaign.Plan
import Interleave.Proofs.Campaign.PhaseOrder
import Interleave.Proofs.Campaign.Reloading
import Interleave.Proofs.Campaign.RunBudget

/-!
# What a campaign attempts

A campaign attempts to launch runs, and to do the bookkeeping of those that were not fatal. Its
attempts are written down as they are made: a launch with what came of it, a bookkeeping with the
world in which it was begun. From that world one can tell if it failed, and with what: something
could not be reloaded, or a line could not be appended (`CampaignKind.fails_afterRun_iff`).

The first fatal run and the first attempt that fails are the last one that is made. So there is
never both, and which of the two there is, if any, says how the campaign has ended (`Came`).
-/

namespace Interleave

/-! ## Actions that fail -/

namespace Act

variable {κ ω α β : Type} {x : Act ω α} {f : α → Act ω β} {w : ω} {e : Failure}

/-- From the world the action fails with the failure. -/
def Fails (act : Act ω α) (w : ω) (e : Failure) : Prop := ∃ w', act w = .error e w'

theorem fails_bind_iff :
    Fails (x >>= f) w e ↔ Fails x w e ∨ ∃ a w', x w = .ok a w' ∧ Fails (f a) w' e := by
  simp only [Fails, bind_eq_error, exists_or]
  refine or_congr_right ⟨?_, ?_⟩
  · rintro ⟨w'', a, w', hx, hf⟩
    exact ⟨a, w', hx, w'', hf⟩
  · rintro ⟨a, w', hx, w'', hf⟩
    exact ⟨w'', a, w', hx, hf⟩

/-- What follows counts only if it can fail. -/
theorem fails_bind_iff_left (hf : ∀ a w', ¬ Fails (f a) w' e) :
    Fails (x >>= f) w e ↔ Fails x w e := by
  simp only [fails_bind_iff, hf, and_false, exists_false, or_false]

theorem not_fails_pure (a : α) (w : ω) : ¬ Fails (pure a) w e := by
  rintro ⟨_, ⟨⟩⟩

end Act

namespace CampaignKind

variable {κ ω α : Type} {r : Reporting ω} {files : SnapshotPaths} {record : RunRecord}
  {label : String} {e : Failure}

theorem fails_onWorld_iff {act : Act ω α} {x : κ × ω} :
    Act.Fails (onWorld act) x e ↔ Act.Fails act x.2 e := by
  simp only [Act.Fails, onWorld_eq_error_iff]
  constructor
  · rintro ⟨y, h, -⟩
    exact ⟨y.2, h⟩
  · rintro ⟨w, h⟩
    exact ⟨(x.1, w), h, rfl⟩

theorem fails_fromTree_iff {load : Tree → Except Failure α} {x : κ × ω} :
    Act.Fails (fromTree r load) x e ↔ load (r.tree x.2) = .error e := by
  simp only [Act.Fails, fromTree_eq_error_iff, exists_eq_right']

theorem fails_setProgress_bind_iff {q : Progress} {f : Unit → Act (Progress × ω) α}
    {x : Progress × ω} : Act.Fails (setProgress q >>= f) x e ↔ Act.Fails (f ()) (q, x.2) e :=
  Iff.rfl

theorem not_fails_setProgress (q : Progress) (x : Progress × ω) :
    ¬ Act.Fails (setProgress q) x e := by
  rintro ⟨_, ⟨⟩⟩

/-- The databases cannot be loaded, or the line that they make cannot be appended. -/
def CoverageFails (r : Reporting ω) (files : SnapshotPaths) (label : String) (record : RunRecord)
    (w : ω) (e : Failure) : Prop :=
  (r.tree w).loadDatabases files = .error e ∨
    ∃ d, (r.tree w).loadDatabases files = .ok d ∧
      Act.Fails (r.recordCoverage label record.used (d.memo.observedCounts d.catalog)) w e

/-- What can prevent the bookkeeping of a run: something that is reloaded cannot be loaded, or a
line cannot be appended to a log. -/
def Obstacle (k : CampaignKind) (r : Reporting ω) (files : SnapshotPaths) (record : RunRecord)
    (w : ω) (e : Failure) : Prop :=
  match k with
  | native => Act.Fails (r.recordTiming record.used) w e
  | profile => CoverageFails r files profile.label record w e
  | active target => CoverageFails r files (active target).label record w e
  | race =>
    ((r.tree w).loadRegistry files.registry >>= (r.tree w).loadRaceDb files.race) = .error e
  | chess withRaces =>
    (r.tree w).loadSearch files.search = .error e ∨
      (∃ search, (r.tree w).loadSearch files.search = .ok search) ∧
        CoverageFails r files (chess withRaces).label record w e
  | random scheduler => CoverageFails r files scheduler.text record w e

theorem fails_logCoverage_iff {x : κ × ω} :
    Act.Fails (logCoverage r files label record) x e ↔
      CoverageFails r files label record x.2 e := by
  rw [logCoverage, Act.fails_bind_iff, fails_fromTree_iff, CoverageFails]
  refine or_congr_right (exists_congr fun d ↦ ?_)
  simp only [fromTree_eq_ok_iff, Act.fails_bind_iff_left fun _ _ ↦ Act.not_fails_pure _ _,
    fails_onWorld_iff]
  constructor
  · rintro ⟨_, ⟨hd, rfl⟩, hrecord⟩
    exact ⟨hd, hrecord⟩
  · rintro ⟨hd, hrecord⟩
    exact ⟨x, ⟨hd, rfl⟩, hrecord⟩

theorem fails_afterRun_iff (k : CampaignKind) {x : Progress × ω} :
    Act.Fails (k.afterRun r files record) x e ↔ k.Obstacle r files record x.2 e := by
  cases k with
  | native => exact fails_onWorld_iff
  | profile | active =>
    exact (Act.fails_bind_iff_left fun _ _ ↦ not_fails_setProgress _ _).trans fails_logCoverage_iff
  | random =>
    exact (Act.fails_bind_iff_left fun _ _ ↦ Act.not_fails_pure _ _).trans fails_logCoverage_iff
  | race =>
    exact (Act.fails_bind_iff_left fun _ _ ↦ not_fails_setProgress _ _).trans fails_fromTree_iff
  | chess withRaces =>
    -- the search state comes first, so the databases count only if it could be loaded
    rw [afterRun, Act.fails_bind_iff, fails_fromTree_iff, Obstacle]
    simp only [fails_setProgress_bind_iff, fromTree_eq_ok_iff,
      Act.fails_bind_iff_left fun _ _ ↦ Act.not_fails_pure _ _, fails_logCoverage_iff]
    refine or_congr_right ⟨?_, ?_⟩
    · rintro ⟨search, _, ⟨hsearch, rfl⟩, hcoverage⟩
      exact ⟨⟨search, hsearch⟩, hcoverage⟩
    · rintro ⟨⟨search, hsearch⟩, hcoverage⟩
      exact ⟨search, x, ⟨hsearch, rfl⟩, hcoverage⟩

end CampaignKind

/-! ## Attempts -/

/-- Something that a campaign attempts. -/
inductive Attempt (ω : Type) where
  /-- A launch, and what came of it. -/
  | launch (result : Except Failure Outcome)
  /-- The bookkeeping of a run, begun in the world that the run has left. -/
  | booking (kind : CampaignKind) (record : RunRecord) (world : ω)

section

variable {κ ω : Type}

/-- A fatal run. -/
def Attempt.Fatal : Attempt ω → Prop
  | launch (.ok outcome) => outcome.isFatal = true
  | launch (.error _) | booking .. => False

/-- The run could not be launched, or its bookkeeping met an obstacle. -/
def Attempt.FailsWith (r : Reporting ω) (files : SnapshotPaths) (e : Failure) : Attempt ω → Prop
  | launch (.ok _) => False
  | launch (.error e') => e' = e
  | booking k record w => k.Obstacle r files record w e

def Launcher.attempting (l : Launcher ω) : Launcher (ω × List (Attempt ω)) where
  launch := fun spec (w, log) ↦
    match l.launch spec w with
    | .ok outcome w => .ok outcome (w, log ++ [.launch (.ok outcome)])
    | .error e w => .error e (w, log ++ [.launch (.error e)])
  now := fun (w, _) ↦ l.now w

def Policy.attempting (k : CampaignKind) (p : Policy κ ω) : Policy κ (ω × List (Attempt ω)) where
  label := p.label
  configure := p.configure
  afterRun := fun i record (kind, w, log) ↦
    match p.afterRun i record (kind, w) with
    | .ok _ (kind, w') => .ok () (kind, w', log ++ [.booking k record w])
    | .error e (kind, w') => .error e (kind, w', log ++ [.booking k record w])
  metric := p.metric
  exhausted := p.exhausted

/-- A phase of a kind, in a world in which its attempts are written down. -/
def Phase.attempting (k : CampaignKind) (p : Phase κ ω) : Phase κ (ω × List (Attempt ω)) where
  policy := p.policy.attempting k
  launcher := p.launcher.attempting
  rule := p.rule
  spec := p.spec
  maxRuns := p.maxRuns

namespace Phase

variable {k : CampaignKind} {p : Phase κ ω} {spec : RunSpec} {w w' : ω} {log : List (Attempt ω)}
  {outcome : Outcome} {e : Failure} {i : ℕ} {record : RunRecord} {kind kind' : κ} {u : Unit}

theorem projects_attempting (k : CampaignKind) (p : Phase κ ω) :
    Projects Prod.fst (p.attempting k) p where
  configure := rfl
  metric := rfl
  exhausted := rfl
  rule := rfl
  spec := rfl
  maxRuns := rfl
  now _ := rfl
  launch spec w := by
    simp only [attempting, Launcher.attempting]
    cases p.launcher.launch spec w.1 <;> rfl
  afterRun i record kind w := by
    simp only [attempting, Policy.attempting]
    cases p.policy.afterRun i record (kind, w.1) <;> rfl

theorem launch_attempting_of_ok (h : p.launcher.launch spec w = .ok outcome w') :
    (p.attempting k).launcher.launch spec (w, log) =
      .ok outcome (w', log ++ [.launch (.ok outcome)]) := by
  simp only [attempting, Launcher.attempting, h]

theorem launch_attempting_of_error (h : p.launcher.launch spec w = .error e w') :
    (p.attempting k).launcher.launch spec (w, log) =
      .error e (w', log ++ [.launch (.error e)]) := by
  simp only [attempting, Launcher.attempting, h]

theorem afterRun_attempting_of_ok (h : p.policy.afterRun i record (kind, w) = .ok u (kind', w')) :
    (p.attempting k).policy.afterRun i record (kind, w, log) =
      .ok () (kind', w', log ++ [.booking k record w]) := by
  simp only [attempting, Policy.attempting, h]

theorem afterRun_attempting_of_error
    (h : p.policy.afterRun i record (kind, w) = .error e (kind', w')) :
    (p.attempting k).policy.afterRun i record (kind, w, log) =
      .error e (kind', w', log ++ [.booking k record w]) := by
  simp only [attempting, Policy.attempting, h]

end Phase

end

/-! ## How a call ends -/

namespace Campaign

section

variable {ω : Type} (r : Reporting ω) (files : SnapshotPaths) (log : List (Attempt ω))

/-- No run was fatal, and no attempt has failed. -/
def Calm : Prop := ∀ a ∈ log, ¬ a.Fatal ∧ ∀ e, ¬ a.FailsWith r files e

/-- What all attempts up to the end of a call say of its answer, and of the phases that it leaves
behind. -/
inductive Came : Answer → List Status → Prop where
  | left {phases : List Status} (hcalm : Calm r files log) (hleft : .running ∈ phases)
    (hnone : .fatal ∉ phases) : Came .unfinished phases
  | failed {e : Failure} {phases : List Status} (hfails : ∃ a ∈ log, a.FailsWith r files e)
    (hnormal : ∀ a ∈ log, ¬ a.Fatal) (hleft : .running ∈ phases) (hnone : .fatal ∉ phases) :
    Came (.failed e) phases
  | converged {phases : List Status} (hcalm : Calm r files log)
    (hends : ∀ status ∈ phases, status = .converged) : Came (.status .converged) phases
  | fatal {phases : List Status} (hfatal : ∃ a ∈ log, a.Fatal)
    (hfails : ∀ a ∈ log, ∀ e, ¬ a.FailsWith r files e) (hends : .fatal ∈ phases) :
    Came (.status .fatal) phases

end

section

variable {ω : Type} {r : Reporting ω} {files : SnapshotPaths} {log : List (Attempt ω)}
  {a : Attempt ω} {answer : Answer} {phases : List Status}

theorem Calm.concat (h : Calm r files log) (hnormal : ¬ a.Fatal)
    (hfails : ∀ e, ¬ a.FailsWith r files e) : Calm r files (log ++ [a]) :=
  List.forall_mem_append.mpr ⟨h, List.forall_mem_singleton.mpr ⟨hnormal, hfails⟩⟩

/-- A launch that fails, or a bookkeeping that meets an obstacle, is the last attempt. -/
theorem Calm.came_failed {e : Failure} (h : Calm r files log) (hnormal : ¬ a.Fatal)
    (hfails : a.FailsWith r files e) : Came r files (log ++ [a]) (.failed e) [.running] := by
  have hmem : a ∈ log ++ [a] := List.mem_append_right _ List.mem_cons_self
  have hnone : ∀ a' ∈ log ++ [a], ¬ a'.Fatal :=
    List.forall_mem_append.mpr ⟨fun a ha ↦ (h a ha).1, List.forall_mem_singleton.mpr hnormal⟩
  exact .failed ⟨a, hmem, hfails⟩ hnone List.mem_cons_self (by decide)

/-- A fatal run is the last attempt. -/
theorem Calm.came_fatal (h : Calm r files log) (hfatal : a.Fatal)
    (hfails : ∀ e, ¬ a.FailsWith r files e) :
    Came r files (log ++ [a]) (.status .fatal) [.fatal] := by
  have hmem : a ∈ log ++ [a] := List.mem_append_right _ List.mem_cons_self
  have hnone : ∀ a' ∈ log ++ [a], ∀ e, ¬ a'.FailsWith r files e :=
    List.forall_mem_append.mpr ⟨fun a ha ↦ (h a ha).2, List.forall_mem_singleton.mpr hfails⟩
  exact .fatal ⟨a, hmem, hfatal⟩ hnone List.mem_cons_self

theorem Came.calm_of_running {status : Status} (h : Came r files log .unfinished [status]) :
    status = .running ∧ Calm r files log := by
  cases h with
  | left hcalm hleft => exact ⟨(List.mem_singleton.mp hleft).symm, hcalm⟩

theorem Came.calm_of_converged (h : Came r files log (.status .converged) phases) :
    Calm r files log := by
  cases h with
  | converged hcalm => exact hcalm

/-- A phase that has converged before does not matter. -/
theorem Came.cons_converged (h : Came r files log answer phases) :
    Came r files log answer (.converged :: phases) := by
  cases h with
  | left hcalm hleft hnone =>
    exact .left hcalm (List.mem_cons_of_mem _ hleft) (by simpa using hnone)
  | failed hfails hnormal hleft hnone =>
    exact .failed hfails hnormal (List.mem_cons_of_mem _ hleft) (by simpa using hnone)
  | converged hcalm hends => exact .converged hcalm (by simpa using hends)
  | fatal hfatal hfails hends => exact .fatal hfatal hfails (List.mem_cons_of_mem _ hends)

/-- A phase that has not begun does not matter, unless the others have converged. -/
theorem Came.concat_notStarted (h : Came r files log answer phases)
    (hne : ¬ ∀ status ∈ phases, status = .converged) :
    Came r files log answer (phases ++ [.notStarted]) := by
  cases h with
  | left hcalm hleft hnone =>
    exact .left hcalm (List.mem_append_left _ hleft) (by simpa using hnone)
  | failed hfails hnormal hleft hnone =>
    exact .failed hfails hnormal (List.mem_append_left _ hleft) (by simpa using hnone)
  | converged _ hends => exact absurd hends hne
  | fatal hfatal hfails hends => exact .fatal hfatal hfails (List.mem_append_left _ hends)

end

/-! ## Calls -/

variable {ω : Type} (c : Campaign) (files : SnapshotPaths) (r : Reporting ω) (l : Launcher ω)

/-- A phase of the campaign, in a world in which its attempts are written down. -/
def attemptingPhase (p : PlannedPhase) : Phase Progress (ω × List (Attempt ω)) :=
  (c.phase files r l p).attempting p.kind

/-- After a run that was not fatal there is a bookkeeping. -/
theorem came_turn_of_normal (p : PlannedPhase) {spec : RunSpec} {s : PhaseState Progress}
    {w w' : ω} {log log' : List (Attempt ω)} {outcome : Outcome}
    (hs : s.status = .running) (hnormal : outcome.isFatal = false) (hcalm : Calm r files log')
    (hl : (c.attemptingPhase files r l p).launcher.launch spec (w, log) =
      .ok outcome (w', log')) :
    let t := (c.attemptingPhase files r l p).turn spec s (w, log)
    Came r files t.world.2 (t.verdict.answer t.state.status) [t.state.status] := by
  intro t
  let record := (c.phase files r l p).recordOf w w' outcome
  cases hb : p.kind.afterRun r files record (s.kind, w') with
  | error e x =>
    have hfails : p.kind.Obstacle r files record w' e := p.kind.fails_afterRun_iff.mp ⟨x, hb⟩
    have ht : t = _ := Phase.turn_of_booking_error hl hnormal
      (Phase.afterRun_attempting_of_error (p := c.phase files r l p) hb)
    rw [ht]
    dsimp only
    rw [hs]
    exact hcalm.came_failed id hfails
  | ok u x =>
    have hbooked : Calm r files (log' ++ [.booking p.kind record w']) := by
      refine hcalm.concat id fun e hobstacle ↦ ?_
      obtain ⟨y, hy⟩ := (p.kind.fails_afterRun_iff (x := (s.kind, w'))).mpr hobstacle
      rw [hb] at hy
      cases hy
    have ht : t = _ := Phase.turn_of_booked hl hnormal
      (Phase.afterRun_attempting_of_ok (p := c.phase files r l p) hb)
    rw [ht]
    dsimp only
    split
    · exact .converged hbooked (by simp)
    · rw [Phase.status_shouldStop]
      dsimp only
      rw [hs]
      exact .left hbooked List.mem_cons_self (by decide)

theorem came_turn (p : PlannedPhase) (spec : RunSpec) {s : PhaseState Progress}
    {x : ω × List (Attempt ω)} (hs : s.status = .running) (hcalm : Calm r files x.2) :
    let t := (c.attemptingPhase files r l p).turn spec s x
    Came r files t.world.2 (t.verdict.answer t.state.status) [t.state.status] := by
  intro t
  obtain ⟨w, log⟩ := x
  cases hl : (c.phase files r l p).launcher.launch spec w with
  | error e w' =>
    have ht : t = _ := Phase.turn_of_launch_error (Phase.launch_attempting_of_error hl)
    rw [ht]
    dsimp only
    rw [hs]
    exact hcalm.came_failed id rfl
  | ok outcome w' =>
    have hl' : (c.attemptingPhase files r l p).launcher.launch spec (w, log) =
        .ok outcome (w', log ++ [.launch (.ok outcome)]) :=
      Phase.launch_attempting_of_ok hl
    cases hfatal : outcome.isFatal with
    | true =>
      have ht : t = _ := Phase.turn_of_fatal hl' hfatal
      rw [ht]
      exact hcalm.came_fatal hfatal fun _ ↦ id
    | false =>
      have hlaunched : Calm r files (log ++ [.launch (.ok outcome)]) :=
        hcalm.concat (by simp [Attempt.Fatal, hfatal]) fun _ ↦ id
      exact came_turn_of_normal c files r l p hs hfatal hlaunched hl'

variable {c files r l}

theorem came_run (p : PlannedPhase) (turns : ℕ) {s : PhaseState Progress}
    (hs : s.status.isTerminal = false) {x : ω × List (Attempt ω)} (hcalm : Calm r files x.2) :
    let call := (c.attemptingPhase files r l p).run turns s x
    Came r files call.world.2 call.answer [call.state.status] := by
  intro call
  obtain ⟨t, ht, hcall⟩ := Phase.run_induction (p := c.attemptingPhase files r l p)
    (P := fun v s x ↦ Came r files x.2 (v.answer s.status) [s.status])
    (fun h ↦ came_turn c files r l p _ h.calm_of_running.1 h.calm_of_running.2) hs turns
    (.left hcalm List.mem_cons_self (by simp))
  obtain ⟨hanswer, hstatus, -, hworld⟩ := Phase.conclude_keeps (c.attemptingPhase files r l p) t
  have hconcluded : call = Phase.conclude (c.attemptingPhase files r l p) t := hcall
  rw [hconcluded, hanswer, hstatus, hworld]
  exact ht

/-- Runs new phases of the campaign, each for at most so many turns. -/
def drive (c : Campaign) (phase : PlannedPhase → Phase Progress ω) (turns : ℕ) (w : ω) :
    Call (List (PhaseState Progress)) ω :=
  match c.second with
  | none =>
    let call := (phase c.first).run turns { kind := {} } w
    ⟨call.answer, [call.state], call.world⟩
  | some second =>
    let both : TwoPhase Progress Progress ω := ⟨c.name, phase c.first, phase second⟩
    let call := both.run turns ⟨{ kind := {} }, { kind := {} }, .notStarted⟩ w
    ⟨call.answer, [call.state.first, call.state.second], call.world⟩

/-- The attempts that are written down are those of the campaign. -/
theorem mapWorld_drive (turns : ℕ) (x : ω × List (Attempt ω)) :
    (c.drive (c.attemptingPhase files r l) turns x).mapWorld Prod.fst =
      c.drive (c.phase files r l) turns x.1 := by
  have hprojects (p : PlannedPhase) := Phase.projects_attempting p.kind (c.phase files r l p)
  rw [drive, drive]
  cases c.second with
  | none =>
    dsimp only
    rw [← (hprojects c.first).mapWorld_run]
    rfl
  | some second =>
    dsimp only
    rw [← TwoPhase.mapWorld_run _ ⟨c.name, _, _⟩ (hprojects c.first) (hprojects second)]
    rfl

/-- The second phase begins with what the first has attempted, when nothing was fatal or failed. -/
theorem came_ran (first second : PlannedPhase) {turns : ℕ} {w : ω}
    {call : Call (TwoPhaseState Progress Progress) (ω × List (Attempt ω))}
    (h : (TwoPhase.mk c.name (c.attemptingPhase files r l first)
      (c.attemptingPhase files r l second)).Ran turns
        ⟨{ kind := {} }, { kind := {} }, .notStarted⟩ (w, []) call) :
    Came r files call.world.2 call.answer [call.state.first.status, call.state.second.status] := by
  have hrun (p : PlannedPhase) {x : ω × List (Attempt ω)} (hcalm : Calm r files x.2) :=
    came_run (c := c) (l := l) p turns (s := { kind := {} }) rfl hcalm
  have hfirst := hrun first (x := (w, [])) fun _ ha ↦ absurd ha List.not_mem_nil
  -- each phase is new when it is called, and the second is called only if the first was calm
  cases h with
  | ended hs => cases hs
  | firstLeft _ hcall hleft =>
    rw [hcall] at hfirst
    exact hfirst.concat_notStarted (by simp [hleft])
  | firstFatal _ hcall hfatal =>
    rw [hcall] at hfirst
    exact hfirst.concat_notStarted (by simp [hfatal])
  | secondLeft _ hcall hconverged hcall₂ | bothEnded _ hcall hconverged hcall₂ =>
    rw [hcall] at hfirst
    have hcame := hrun second hfirst.calm_of_converged
    rw [hcall₂] at hcame
    rw [hconverged]
    exact hcame.cons_converged

theorem came_drive (turns : ℕ) (w : ω) :
    let call := c.drive (c.attemptingPhase files r l) turns (w, [])
    Came r files call.world.2 call.answer (call.state.map (·.status)) := by
  rw [drive]
  cases c.second with
  | none => exact came_run c.first turns rfl fun _ ha ↦ absurd ha List.not_mem_nil
  | some second => exact came_ran c.first second (TwoPhase.ran_run _ turns _ _)

/-- The phases of a campaign, in order. -/
def phases (c : Campaign) : List PlannedPhase := c.first :: c.second.toList

/-- Each phase is left behind in some state. -/
theorem length_drive (phase : PlannedPhase → Phase Progress ω) (turns : ℕ) (w : ω) :
    (c.drive phase turns w).state.length = c.phases.length := by
  rw [drive, phases]
  cases c.second <;> rfl

section

variable {phase : PlannedPhase → Phase Progress ω} {turns : ℕ} {w : ω}

/-- A campaign that has not come back has made at least as many runs as it had turns. -/
theorem le_sum_of_drive_unfinished (h : (c.drive phase turns w).answer = .unfinished) :
    turns ≤ ((c.drive phase turns w).state.map (·.history.length)).sum := by
  rw [drive] at h ⊢
  cases hsecond : c.second with
  | none =>
    simp only [hsecond] at h ⊢
    have hlength := Phase.length_history_of_unfinished h
    simp [hlength]
  | some second =>
    simp only [hsecond] at h ⊢
    have hle := TwoPhase.le_length_histories_of_unfinished h
    simpa using hle

theorem drive_ne_unfinished
    (h : ∀ p ∈ c.phases, ∀ s w, ((phase p).run turns s w).answer ≠ .unfinished) :
    (c.drive phase turns w).answer ≠ .unfinished := by
  have hfirst := h c.first List.mem_cons_self
  rw [drive]
  cases hsecond : c.second with
  | none => exact hfirst _ _
  | some second =>
    have hmem : second ∈ c.phases := by simp [phases, hsecond]
    exact TwoPhase.run_ne_unfinished hfirst (h second hmem)

end

theorem run_mono {files : SnapshotPaths} {r : Reporting ω} {l : Launcher ω} {turns more : ℕ} {w : ω}
    (h : (c.drive (c.phase files r l) turns w).answer ≠ .unfinished) (hle : turns ≤ more) :
    c.run files r l more w = c.run files r l turns w := by
  rw [drive] at h
  rw [run, run]
  cases hsecond : c.second with
  | none =>
    simp only [hsecond] at h ⊢
    rw [Phase.run_mono h hle]
  | some second =>
    simp only [hsecond] at h ⊢
    rw [TwoPhase.run_mono h hle]

/-- What a campaign comes to is what is made of the call. -/
theorem run_eq_drive (c : Campaign) (files : SnapshotPaths) (r : Reporting ω) (l : Launcher ω)
    (turns : ℕ) (w : ω) :
    let call := c.drive (c.phase files r l) turns w
    ∃ stats, c.run files r l turns w =
      (c.conclude call (call.state.any (·.status.isFatal)) stats, call.world) := by
  rw [run, drive]
  cases c.second with
  | none =>
    dsimp only
    rw [List.any_cons, List.any_nil, Bool.or_false]
    exact ⟨_, rfl⟩
  | some second =>
    dsimp only
    rw [List.any_cons, List.any_cons, List.any_nil, Bool.or_false]
    exact ⟨_, rfl⟩

end Campaign

end Interleave
