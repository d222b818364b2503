import Interleave.Command.Run
import Interleave.Proofs.Campaign.Attempts

/-!
# How a campaign command ends

Whether a campaign is begun is decided by the request and the settings alone: there has to be a
program, a cap on the runs has to be at least one, and the settings of every phase have to be
acceptable under that cap, where what the request says of a phase goes before what is configured
(`Campaign.ofRequest_eq_ok_iff`). Until then nothing has been done, so a command that is refused
leaves the world as it was.

What a campaign that is begun comes to is decided by its attempts, which are written down beside the
world (`Campaign.came_drive`). If it comes back, it ends in one of three ways, and the exit status
tells which: a fatal run, all phases converged, or a failure (`Campaign.Tells`). A campaign that
does not come back goes on for ever, and one with a budget for each phase comes back.
-/

namespace Interleave

/-! ## Requests -/

/-- The phases of a plan, in order, with what is chosen for them. -/
def Plan.phases (p : Plan) : List (CampaignKind × PhaseChoice) := p.first :: p.second?.toList

/-- What a phase of a plan goes by: what is chosen for it, or else what is configured for phases of
its kind. -/
def CampaignSettings.effective (s : CampaignSettings) (p : CampaignKind × PhaseChoice) :
    PhaseSettings :=
  let configured := s.phase p.1.phaseName
  ⟨p.2.mode.getD configured.mode, p.2.threshold.getD configured.threshold⟩

/-- The phase of a plan, with its stop rule. -/
def CampaignSettings.planned (s : CampaignSettings) (p : CampaignKind × PhaseChoice) :
    PlannedPhase :=
  ⟨p.1, (s.effective p).rule⟩

/-- What is wrong with a phase of a plan, under a cap on its runs. -/
def CampaignSettings.faultOf? (s : CampaignSettings) (cap : Option UInt64)
    (p : CampaignKind × PhaseChoice) : Option SettingsFault :=
  (s.effective p).fault? p.1.phaseName.text cap

/-- What is refused: a request without a program, a cap of zero, or a phase with a fault. -/
def CampaignRequest.Refused (r : CampaignRequest) (s : CampaignSettings) : Prop :=
  r.program = [] ∨ r.cap s = some 0 ∨ ∃ p ∈ r.plan.phases, s.faultOf? (r.cap s) p ≠ none

theorem CampaignRequest.spec?_eq_none_iff {r : CampaignRequest} :
    r.spec? = none ↔ r.program = [] := by
  rw [spec?]
  cases r.program <;> simp

namespace Campaign

variable {s : CampaignSettings} {cap : Option UInt64} {p : CampaignKind × PhaseChoice}
  {r : CampaignRequest} {c : Campaign}

theorem plan_eq_ok_iff {q : PlannedPhase} :
    plan s cap p = .ok q ↔ s.faultOf? cap p = none ∧ s.planned p = q := by
  have hfault : (p.2.withDefaults (s.phase p.1.phaseName)).fault? p.1.phaseName.text cap =
      s.faultOf? cap p := rfl
  rw [plan, PhaseChoice.rule, hfault]
  cases s.faultOf? cap p with
  | none => simp [Except.map, CampaignSettings.planned, CampaignSettings.effective,
      PhaseChoice.withDefaults]
  | some e => simp [Except.map]

theorem mapM_plan_eq_ok_iff {second? : Option (CampaignKind × PhaseChoice)}
    {q : Option PlannedPhase} :
    second?.mapM (plan s cap) = .ok q ↔
      (∀ p ∈ second?, s.faultOf? cap p = none) ∧ second?.map s.planned = q := by
  cases second? with
  | none =>
    have hmap : (none : Option (CampaignKind × PhaseChoice)).mapM (plan s cap) = .ok none := rfl
    simp [hmap]
  | some p =>
    have hmap : (some p).mapM (plan s cap) = plan s cap p >>= fun q ↦ .ok (some q) := rfl
    rw [hmap, bind_eq_ok]
    simp [plan_eq_ok_iff]

/-- A campaign is begun if there is a program, the cap is not zero, and no phase has a fault. -/
theorem ofRequest_eq_ok_iff :
    ofRequest r s = .ok c ↔ ∃ spec, r.spec? = some spec ∧ r.cap s ≠ some 0 ∧
      (∀ p ∈ r.plan.phases, s.faultOf? (r.cap s) p = none) ∧
        { name := r.plan.name
          spec
          cap := r.cap s
          first := s.planned r.plan.first
          second := r.plan.second?.map s.planned } = c := by
  simp only [Plan.phases, List.forall_mem_cons, Option.mem_toList]
  rw [ofRequest]
  cases r.spec? with
  | none => simp
  | some spec =>
    dsimp only
    split
    · next hcap => simp [hcap]
    · next hcap =>
      -- both phases are checked here, before there is a campaign that could be run
      simp only [bind_eq_ok, plan_eq_ok_iff, mapM_plan_eq_ok_iff]
      constructor
      · rintro ⟨_, ⟨hfirst, rfl⟩, _, ⟨hsecond, rfl⟩, hc⟩
        exact ⟨spec, rfl, hcap, ⟨hfirst, hsecond⟩, Except.ok.inj hc⟩
      · rintro ⟨_, ⟨⟩, -, ⟨hfirst, hsecond⟩, rfl⟩
        exact ⟨_, ⟨hfirst, rfl⟩, _, ⟨hsecond, rfl⟩, rfl⟩

theorem ofRequest_of_refused (h : r.Refused s) : ∃ fault, ofRequest r s = .error fault := by
  cases hrequest : ofRequest r s with
  | error fault => exact ⟨fault, rfl⟩
  | ok c =>
    obtain ⟨spec, hspec, hcap, hphases, -⟩ := ofRequest_eq_ok_iff.mp hrequest
    rcases h with hprogram | hzero | ⟨p, hp, hfault⟩
    · rw [CampaignRequest.spec?_eq_none_iff.mpr hprogram] at hspec
      cases hspec
    · exact absurd hzero hcap
    · exact absurd (hphases p hp) hfault

theorem ofRequest_of_not_refused (h : ¬ r.Refused s) :
    ∃ c, ofRequest r s = .ok c ∧ r.spec? = some c.spec ∧ c.cap = r.cap s ∧
      c.phases = r.plan.phases.map s.planned := by
  simp only [CampaignRequest.Refused, not_or, not_exists, not_and, not_not] at h
  obtain ⟨hprogram, hcap, hphases⟩ := h
  obtain ⟨spec, hspec⟩ :=
    Option.ne_none_iff_exists'.mp (mt CampaignRequest.spec?_eq_none_iff.mp hprogram)
  refine ⟨_, ofRequest_eq_ok_iff.mpr ⟨spec, hspec, hcap, hphases, rfl⟩, hspec, rfl, ?_⟩
  rw [phases, Plan.phases, List.map_cons, ← Option.toList_map]

end Campaign

/-! ## Exit statuses -/

namespace Done

variable {ω : Type} {d : Done ω}

theorem exitStatus_eq_zero_iff : d.exitStatus = 0 ↔ d.status = .ok .success := by
  rw [exitStatus]
  rcases d.status with e | _ | _ <;> simp

theorem exitStatus_eq_one_iff : d.exitStatus = 1 ↔ d.status = .ok .fatal := by
  rw [exitStatus]
  rcases d.status with e | _ | _ <;> simp

theorem exitStatus_eq_two_iff : d.exitStatus = 2 ↔ ∃ e, d.status = .error e := by
  rw [exitStatus]
  rcases d.status with e | _ | _ <;> simp

end Done

namespace Campaign

/-- The status of a command whose campaign has answered, in phases of which some may be fatal. -/
def exit? (c : Campaign) (answer : Answer) (fatal : Bool) :
    Option (Except CommandFailure ExitStatus) :=
  match answer with
  | .status _ => some (.ok (if fatal then .fatal else .success))
  | .failed e => some (.error (.campaign c.name e))
  | .unfinished => none

theorem exit?_eq_none_iff {c : Campaign} {answer : Answer} {fatal : Bool} :
    c.exit? answer fatal = none ↔ answer = .unfinished := by
  cases answer <;> simp [exit?]

/-- The campaign of a command, in a world in which its attempts are written down. -/
def attempted {ω : Type} (c : Campaign) (h : Host ω) (s : Settings) (turns : ℕ) (w : ω) :
    Call (List (PhaseState Progress)) (ω × List (Attempt ω)) :=
  c.drive (c.attemptingPhase s.snapshots (h.reporting s.reports)
    (h.launcher (Engine.ofSettings s.engine))) turns (w, [])

theorem mapWorld_attempted {ω : Type} (c : Campaign) (h : Host ω) (s : Settings) (turns : ℕ)
    (w : ω) :
    (c.attempted h s turns w).mapWorld Prod.fst =
      c.drive (c.phase s.snapshots (h.reporting s.reports)
        (h.launcher (Engine.ofSettings s.engine))) turns w :=
  c.mapWorld_drive turns (w, [])

theorem came_attempted {ω : Type} (c : Campaign) (h : Host ω) (s : Settings) (turns : ℕ) (w : ω) :
    let call := c.attempted h s turns w
    Came (h.reporting s.reports) s.snapshots call.world.2 call.answer
      (call.state.map (·.status)) :=
  came_drive turns w

/-- What the attempts of a campaign and the phases that it leaves behind say of the status of the
command. -/
structure Tells {ω : Type} (c : Campaign) (r : Reporting ω) (files : SnapshotPaths)
    (log : List (Attempt ω)) (phases : List Status) (status : Except CommandFailure ExitStatus) :
    Prop where
  fatal : status = .ok .fatal ↔ ∃ a ∈ log, a.Fatal
  success : status = .ok .success ↔ ∀ phase ∈ phases, phase = .converged
  failed : (∃ e, status = .error e) ↔ ∃ a ∈ log, ∃ e, a.FailsWith r files e
  cause : ∀ e, status = .error e →
    ∃ cause, e = .campaign c.name cause ∧ ∃ a ∈ log, a.FailsWith r files cause
  notBoth : (∃ a ∈ log, ∃ e, a.FailsWith r files e) → ∀ a ∈ log, ¬ a.Fatal

theorem any_isFatal_iff {phases : List Status} :
    phases.any (·.isFatal) = true ↔ .fatal ∈ phases := by
  rw [List.any_eq_true]
  constructor
  · rintro ⟨phase, hphase, hfatal⟩
    cases phase <;> first | exact hphase | cases hfatal
  · intro h
    exact ⟨_, h, rfl⟩

theorem Came.tells {ω : Type} {c : Campaign} {r : Reporting ω} {files : SnapshotPaths}
    {log : List (Attempt ω)} {answer : Answer} {phases : List Status}
    {status : Except CommandFailure ExitStatus} (h : Came r files log answer phases)
    (hstatus : c.exit? answer (phases.any (·.isFatal)) = some status) :
    c.Tells r files log phases status := by
  have hnotAll (st : Status) (hs : st ≠ .converged) (hmem : st ∈ phases) :
      ¬ ∀ phase ∈ phases, phase = .converged := fun h ↦ hs (h st hmem)
  -- in each of the three ways to end, what the other two would ask of the attempts fails
  cases h with
  | left => contradiction
  | @failed e _ hfails hnormal hleft hnone =>
    obtain rfl := Option.some.inj hstatus
    have hends := hnotAll _ (by decide) hleft
    have hfatal : ¬ ∃ a ∈ log, a.Fatal := by simpa using hnormal
    have hsome : ∃ a ∈ log, ∃ e, a.FailsWith r files e := by
      obtain ⟨a, ha, hfails⟩ := hfails
      exact ⟨a, ha, e, hfails⟩
    exact ⟨by simpa using hnormal, by simpa using hends, by simpa using hsome,
      by simpa using hfails, fun _ ↦ hnormal⟩
  | converged hcalm hends =>
    have hnormal : ¬ ∃ a ∈ log, a.Fatal := fun ⟨a, ha, hfatal⟩ ↦ (hcalm a ha).1 hfatal
    have hfails : ¬ ∃ a ∈ log, ∃ e, a.FailsWith r files e :=
      fun ⟨a, ha, e, hfails⟩ ↦ (hcalm a ha).2 e hfails
    have hany : phases.any (·.isFatal) = false := by
      rw [← Bool.not_eq_true, any_isFatal_iff]
      exact fun hmem ↦ nomatch hends _ hmem
    rw [hany] at hstatus
    obtain rfl := Option.some.inj hstatus
    exact ⟨by simpa using hnormal, by simpa using hends, by simpa using hfails, by simp,
      fun h ↦ absurd h hfails⟩
  | fatal hfatal hfails hends =>
    rw [any_isFatal_iff.mpr hends] at hstatus
    obtain rfl := Option.some.inj hstatus
    have hleft := hnotAll _ (by decide) hends
    have hnone : ¬ ∃ a ∈ log, ∃ e, a.FailsWith r files e := by simpa using hfails
    exact ⟨by simpa using hfatal, by simpa using hleft, by simpa using hnone, by simp,
      fun h ↦ absurd h hnone⟩

end Campaign

namespace Command

variable {ω : Type} {h : Host ω} {r : CampaignRequest} {s : Settings} {c : Campaign} {json : Bool}
  {turns more : ℕ} {w : ω} {d : Done ω}

theorem runCampaign_of_error {fault : PlanFault}
    (hrequest : Campaign.ofRequest r s.campaign = .error fault) :
    runCampaign r h s json turns w = some ⟨.error (.plan fault), w⟩ := by
  rw [runCampaign, hrequest]

/-- The command has the status of its campaign, and at most prints something behind it. -/
theorem runCampaign_of_ok (hrequest : Campaign.ofRequest r s.campaign = .ok c) (h : Host ω)
    (json : Bool) (turns : ℕ) (w : ω) :
    let call := c.attempted h s turns w
    (runCampaign r h s json turns w).map (·.status) =
        c.exit? call.answer ((call.state.map (·.status)).any (·.isFatal)) ∧
      ∀ d, runCampaign r h s json turns w = some d →
        d.world = call.world.1 ∨ ∃ shown, d.world = h.put call.world.1 json shown := by
  intro call
  obtain ⟨stats, hrun⟩ := c.run_eq_drive s.snapshots (h.reporting s.reports)
    (h.launcher (Engine.ofSettings s.engine)) turns w
  rw [← c.mapWorld_attempted h s turns w] at hrun
  simp only [runCampaign, hrequest, hrun, Campaign.conclude, List.any_map]
  cases hanswer : (call.mapWorld Prod.fst).answer with
  | status =>
    rw [show call.answer = _ from hanswer]
    refine ⟨rfl, ?_⟩
    rintro _ ⟨⟩
    exact .inr ⟨_, rfl⟩
  | failed =>
    rw [show call.answer = _ from hanswer]
    refine ⟨rfl, ?_⟩
    rintro _ ⟨⟩
    exact .inl rfl
  | unfinished =>
    rw [show call.answer = _ from hanswer]
    exact ⟨rfl, fun _ h ↦ nomatch h⟩

theorem runCampaign_eq_none_iff (hrequest : Campaign.ofRequest r s.campaign = .ok c) :
    runCampaign r h s json turns w = none ↔ (c.attempted h s turns w).answer = .unfinished := by
  rw [← Option.map_eq_none_iff, (runCampaign_of_ok hrequest h json turns w).1,
    Campaign.exit?_eq_none_iff]

theorem runCampaign_mono (hd : runCampaign r h s json turns w = some d) (hle : turns ≤ more) :
    runCampaign r h s json more w = some d := by
  cases hrequest : Campaign.ofRequest r s.campaign with
  | error fault =>
    rw [runCampaign_of_error hrequest] at hd ⊢
    exact hd
  | ok c =>
    have hanswer : (c.attempted h s turns w).answer ≠ .unfinished := by
      rw [ne_eq, ← runCampaign_eq_none_iff hrequest, hd]
      simp
    have hdrive : (c.drive (c.phase s.snapshots (h.reporting s.reports)
        (h.launcher (Engine.ofSettings s.engine))) turns w).answer ≠ .unfinished := by
      rw [← c.mapWorld_attempted]
      exact hanswer
    simp only [runCampaign, hrequest] at hd ⊢
    rwa [Campaign.run_mono hdrive hle]

theorem tells_of_runCampaign (hrequest : Campaign.ofRequest r s.campaign = .ok c)
    (hd : runCampaign r h s json turns w = some d) :
    let call := c.attempted h s turns w
    c.Tells (h.reporting s.reports) s.snapshots call.world.2 (call.state.map (·.status))
      d.status := by
  have hstatus := (runCampaign_of_ok hrequest h json turns w).1
  rw [hd] at hstatus
  exact (c.came_attempted h s turns w).tells hstatus.symm

/-- A campaign that has not come back goes on: it has made many runs, none of them was fatal, and
nothing has failed. -/
theorem calm_of_runCampaign_none (hrequest : Campaign.ofRequest r s.campaign = .ok c)
    (hnone : runCampaign r h s json turns w = none) :
    let call := c.attempted h s turns w
    Campaign.Calm (h.reporting s.reports) s.snapshots call.world.2 ∧
      turns ≤ (call.state.map (·.history.length)).sum := by
  have hanswer := (runCampaign_eq_none_iff hrequest).mp hnone
  have hcame := c.came_attempted h s turns w
  refine ⟨?_, Campaign.le_sum_of_drive_unfinished hanswer⟩
  dsimp only at hcame
  rw [hanswer] at hcame
  cases hcame with
  | left hcalm => exact hcalm

/-- A budget for each phase, if there are as many turns, brings the campaign back. -/
theorem runCampaign_ne_none (hrequest : Campaign.ofRequest r s.campaign = .ok c)
    (hpos : 1 ≤ turns) (hbudget : ∀ p ∈ c.phases, ∃ n : UInt64, n.toNat ≤ turns ∧
      (c.cap = some n ∨ p.rule = .runout n)) :
    runCampaign r h s json turns w ≠ none := by
  rw [ne_eq, runCampaign_eq_none_iff hrequest]
  refine Campaign.drive_ne_unfinished fun p hp s w ↦ ?_
  obtain ⟨n, hn, hbudget⟩ := hbudget p hp
  exact Phase.run_ne_unfinished (b := n) hbudget hn hpos

/-- A command whose settings do not load, or whose logger is refused, fails at once. -/
theorem run_of_not_loaded {i : Invocation}
    (hloads : ∀ s, h.load w i.config = .ok s →
      ((Logger.ofSettings s.logging).withVerbosity i.verbose).refusal? ≠ none) :
    ∃ e, ∀ x, i.run h x w = some ⟨.error e, w⟩ := by
  cases hload : h.load w i.config with
  | error e => exact ⟨.settings e, fun _ ↦ by simp only [Invocation.run, hload]⟩
  | ok s =>
    obtain ⟨reason, hreason⟩ := Option.ne_none_iff_exists'.mp (hloads s hload)
    exact ⟨.logger reason, fun _ ↦ by simp only [Invocation.run, hload, hreason]⟩

/-- **A campaign command checks everything before it runs, and its exit status tells the truth.**
Each phase of a plan goes by what the request says of it, or else by what is configured under its
name. If there is no program, the cap on the runs is zero or a phase has a fault, the command fails
with the world as it was. Otherwise the campaign is begun.

What it comes to does not depend on the turns that it is given, if they are enough. They are if each
phase has a cap or a `runout` rule with no more runs than that; and a campaign for which they are
not enough has made so many runs without a fatal one or a failure. When the command comes back, its
status is that of a fatal run exactly if there was one, a success exactly if every phase has
converged, and a failure exactly if a launch, a reload or an append to a log has failed, and then no
run was fatal. So the exit status is 1, 0 and 2 in these cases, and it is that of the program. -/
theorem campaign_exitStatus (h : Host ω) (r : CampaignRequest) (s : Settings) (json : Bool)
    (x : Circumstances) (w : ω) :
    let cap := r.maxRuns.or s.campaign.maxRuns
    let chosen := fun (name : PhaseName) (choice : PhaseChoice) ↦
      let configured := s.campaign.phase name
      PhaseSettings.mk (choice.mode.getD configured.mode)
        (choice.threshold.getD configured.threshold)
    let phases : List (CampaignKind × PhaseName × PhaseSettings) :=
      match r.plan with
      | .single .native choice => [(.native, .native, chosen .native choice)]
      | .single .profile choice => [(.profile, .profile, chosen .profile choice)]
      | .single (.active target) choice => [(.active target, .active, chosen .active choice)]
      | .single .race choice => [(.race, .race, chosen .race choice)]
      | .single (.chess withRaces) choice => [(.chess withRaces, .chess, chosen .chess choice)]
      | .single (.random scheduler) choice => [(.random scheduler, .random, chosen .random choice)]
      | .idiom target profile active =>
        [(.profile, .profile, chosen .profile profile),
          (.active target, .active, chosen .active active)]
      | .chessRace race chess =>
        [(.race, .race, chosen .race race), (.chess true, .chess, chosen .chess chess)]
    let refused := r.program = [] ∨ cap = some 0 ∨
      ∃ p ∈ phases, p.2.2.fault? p.2.1.text cap ≠ none
    let command := fun turns ↦ (campaign r).run h s json { x with turns } w
    (refused → ∃ fault, ∀ turns, command turns = some ⟨.error (.plan fault), w⟩) ∧
      (¬ refused → ∃ c, Campaign.ofRequest r s.campaign = .ok c ∧ r.spec? = some c.spec ∧
        c.cap = cap ∧ c.phases = phases.map (fun p ↦ ⟨p.1, p.2.2.rule⟩) ∧
        let reporting := h.reporting s.reports
        let launcher := h.launcher (Engine.ofSettings s.engine)
        let call := fun turns ↦
          c.drive (c.attemptingPhase s.snapshots reporting launcher) turns (w, [])
        (∀ turns, (call turns).mapWorld Prod.fst =
          c.drive (c.phase s.snapshots reporting launcher) turns w) ∧
        (∀ turns d, command turns = some d → ∀ more, turns ≤ more → command more = some d) ∧
        (∀ turns, 1 ≤ turns → (∀ p ∈ phases, ∃ n : UInt64, n.toNat ≤ turns ∧
          (cap = some n ∨ p.2.2.rule = .runout n)) → command turns ≠ none) ∧
        (∀ turns, command turns = none →
          Campaign.Calm reporting s.snapshots (call turns).world.2 ∧
            turns ≤ ((call turns).state.map (·.history.length)).sum) ∧
        ∀ turns d, command turns = some d →
          let attempts := (call turns).world.2
          let statuses := (call turns).state.map (·.status)
          (d.world = (call turns).world.1 ∨
            ∃ shown, d.world = h.put (call turns).world.1 json shown) ∧
          statuses.length = phases.length ∧
          c.Tells reporting s.snapshots attempts statuses d.status ∧
          (d.exitStatus = 1 ↔ ∃ a ∈ attempts, a.Fatal) ∧
          (d.exitStatus = 0 ↔ ∀ status ∈ statuses, status = .converged) ∧
          (d.exitStatus = 2 ↔ ∃ a ∈ attempts, ∃ e, a.FailsWith reporting s.snapshots e)) ∧
      ∀ config verbose,
        let program := fun turns ↦
          Invocation.run { json, config, verbose, command := campaign r } h { x with turns } w
        let loads := fun s ↦ h.load w config = .ok s ∧
          ((Logger.ofSettings s.logging).withVerbosity verbose).refusal? = none
        (loads s → ∀ turns, program turns = command turns) ∧
          ((∀ s, ¬ loads s) → ∃ e, ∀ turns, program turns = some ⟨.error e, w⟩) := by
  intro cap chosen phases refused command
  -- the list of plans says of each phase what its kind says
  have hphases : phases = r.plan.phases.map fun p ↦
      (p.1, p.1.phaseName, s.campaign.effective p) := by
    simp only [phases]
    cases r.plan with
    | single kind choice => cases kind <;> rfl
    | idiom | chessRace => rfl
  have hrefused_iff : refused ↔ r.Refused s.campaign := by
    simp only [refused, hphases, List.mem_map, exists_exists_and_eq_and]
    rfl
  refine ⟨fun hrefused ↦ ?_, fun haccepted ↦ ?_, fun config verbose ↦ ⟨?_, fun hloads ↦ ?_⟩⟩
  · obtain ⟨fault, hrequest⟩ := Campaign.ofRequest_of_refused (hrefused_iff.mp hrefused)
    exact ⟨fault, fun _ ↦ runCampaign_of_error hrequest⟩
  · obtain ⟨c, hrequest, hspec, hcap, hplanned⟩ :=
      Campaign.ofRequest_of_not_refused (mt hrefused_iff.mpr haccepted)
    have hsame : c.phases = phases.map (fun p ↦ ⟨p.1, p.2.2.rule⟩) := by
      rw [hplanned, hphases, List.map_map]
      rfl
    refine ⟨c, hrequest, hspec, hcap, hsame, fun turns ↦ c.mapWorld_drive turns (w, []),
      fun _ _ hd _ hle ↦ runCampaign_mono hd hle, fun turns hpos hbudget ↦ ?_,
      fun _ hnone ↦ calm_of_runCampaign_none hrequest hnone, fun turns d hd ↦ ?_⟩
    · refine runCampaign_ne_none hrequest hpos ?_
      rw [hsame, hcap]
      exact List.forall_mem_map.mpr hbudget
    · have htells := tells_of_runCampaign hrequest hd
      refine ⟨(runCampaign_of_ok hrequest h json turns w).2 d hd, ?_, htells,
        Done.exitStatus_eq_one_iff.trans htells.fatal,
        Done.exitStatus_eq_zero_iff.trans htells.success,
        Done.exitStatus_eq_two_iff.trans htells.failed⟩
      rw [List.length_map, Campaign.length_drive, hsame, List.length_map]
  · rintro ⟨hload, hlogger⟩ turns
    simp only [Invocation.run, hload, hlogger]
    rfl
  · obtain ⟨e, he⟩ := run_of_not_loaded (h := h) (w := w)
      (i := { json, config, verbose, command := campaign r })
      fun s hload hlogger ↦ hloads s ⟨hload, hlogger⟩
    exact ⟨e, fun _ ↦ he _⟩

/-- The profiling phase has a rule of its own and converges with its run; the first run of the other
phase crashes. -/
theorem campaign_exitStatus_idiom :
    let host : Host ℕ :=
      { load := fun _ _ ↦ .ok {}
        tree := fun _ ↦ {}
        withTree := fun w _ ↦ w
        print := fun w _ ↦ w
        launcher := fun _ ↦
          { launch := fun _ w ↦ .ok (if w = 1 then .crash else .normal) (w + 1)
            now := fun _ ↦ .epoch }
        reporting := fun _ ↦
          { tree := fun _ ↦ {}
            recordCoverage := fun _ _ _ w ↦ .ok () w
            recordTiming := fun _ w ↦ .ok () w } }
    let request : CampaignRequest :=
      { plan := .idiom none { mode := some .runout, threshold := some 1 } {}
        maxRuns := some 4
        program := ["app"] }
    ∃ c d, Campaign.ofRequest request {} = .ok c ∧
      c.phases = [⟨.profile, .runout 1⟩, ⟨.active none, .finish⟩] ∧
      (campaign request).run host {} false { turns := 4, tag := "" } 0 = some d ∧
      d.exitStatus = 1 ∧ d.world = 2 := by
  intro host request
  obtain ⟨-, haccepted, -⟩ := campaign_exitStatus host request {} false { tag := "" } 0
  obtain ⟨c, hrequest, -, -, hphases, -, -, hreturns, -, htells⟩ := haccepted (by decide +kernel)
  obtain ⟨d, hd⟩ := Option.ne_none_iff_exists'.mp
    (hreturns 4 (by decide) fun _ _ ↦ ⟨4, by decide, .inl rfl⟩)
  obtain ⟨hworld, -, -, hone, -⟩ := htells 4 d hd
  refine ⟨c, d, hrequest, hphases, hd, hone.mpr ?_, ?_⟩
  all_goals obtain rfl := Except.ok.inj hrequest
  · exact ⟨.launch (.ok .crash), List.mem_of_getElem? (i := 2) rfl, rfl⟩
  · obtain hworld | ⟨_, hworld⟩ := hworld <;> exact hworld

/-- On a machine, a target that ends with another status than zero has a wrong result, if that is
asked for. -/
example :
    let s : Settings := { engine := { strictExit := true } }
    let request : CampaignRequest := { plan := .single .native {}, program := ["/bin/false"] }
    ((campaign request).run Machine.host s false { turns := 2, tag := "" } {}).map Done.exitStatus =
      some 1 := by
  decide +kernel

end Command

end Interleave
