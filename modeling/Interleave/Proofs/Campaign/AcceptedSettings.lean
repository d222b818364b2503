import Interleave.Campaign.Plan
import Interleave.Proofs.Campaign.Reloading
import Interleave.Proofs.Campaign.StoppingPoint
import Interleave.Proofs.Settings.Usable
import Mathlib.Data.Nat.Find

/-!
# Accepted settings end a phase

Settings are refused under which a phase would never stop. The check knows of a kind of campaign no
more than its name, and of a stop rule no more than its mode; whether a phase stops is up to what
its kind learns from files that the runs change. So the reasons to stop along a course are read off
the files first: the metric after a run is the one that the files count, and the campaign has
nothing left to do when the files say so. Then each rule names a run by which there is a reason to
stop, and the phase converges with the first run after which there is one
(`CampaignKind.accepted_converges`).

For the `stable` rule the run is a plateau away from the last change. The metrics that come in from
then on are all the same, and nothing is known of those before.
-/

namespace Interleave

namespace Phase

variable {κ ω : Type} {p : Phase κ ω} {c : Course κ ω} {i j : ℕ}

/-! ## The first reason to stop -/

/-- A new phase converges with a run of the course. -/
def ConvergesAt (p : Phase κ ω) (c : Course κ ω) (i : ℕ) : Prop :=
  ∀ turns, i ≤ turns →
    let call := p.run turns { kind := c.kind 0 } (c.world 0)
    call.answer = .status .converged ∧ call.state.status = .converged ∧
      call.state.history.length = i

/-- If there is a reason to stop after a run unless there was one before, then there is a first. -/
theorem exists_first_stop (h : (∀ j < i, ¬ p.StopsAt c j) → p.StopsAt c i) :
    ∃ j ≤ i, p.StopsAt c j ∧ ∀ j' < j, ¬ p.StopsAt c j' := by
  classical
  have hsome : ∃ j ≤ i, p.StopsAt c j := by
    by_cases hgo : ∀ j < i, ¬ p.StopsAt c j
    · exact ⟨i, Nat.le_refl i, h hgo⟩
    · simp only [not_forall, not_not] at hgo
      obtain ⟨j, hj, hstop⟩ := hgo
      exact ⟨j, Nat.le_of_lt hj, hstop⟩
  obtain ⟨j, hj, hstop⟩ := hsome
  have hfind : ∃ j, p.StopsAt c j := ⟨j, hstop⟩
  exact ⟨Nat.find hfind, Nat.le_trans (Nat.find_min' hfind hstop) hj, Nat.find_spec hfind,
    fun _ hj' ↦ Nat.find_min hfind hj'⟩

theorem Follows.convergesAt (h : p.Follows c) (hnormal : ∀ i, c.outcome i = .normal)
    (hstop : p.StopsAt c i) (hgo : ∀ j < i, ¬ p.StopsAt c j) : p.ConvergesAt c i := by
  intro turns hturns
  obtain ⟨hanswer, hstatus, hhistory, -⟩ := run_of_stopsAt h hstop hgo hturns
  have hending : c.ending i = .converged := by
    rw [Course.ending, hnormal]
    rfl
  rw [hending] at hanswer hstatus
  refine ⟨hanswer, hstatus, ?_⟩
  rw [hhistory, length_records]

theorem Follows.convergesBy (h : p.Follows c) (hnormal : ∀ i, c.outcome i = .normal)
    (hstop : (∀ j < i, ¬ p.StopsAt c j) → p.StopsAt c i) : ∃ j ≤ i, p.ConvergesAt c j := by
  obtain ⟨j, hj, hfirst, hgo⟩ := exists_first_stop hstop
  exact ⟨j, hj, h.convergesAt hnormal hfirst hgo⟩

/-! ## Reasons to stop -/

theorem stopsAt_of_normal (hnormal : c.outcome i = .normal) :
    p.StopsAt c i ↔ 1 ≤ i ∧ (p.policy.exhausted (c.kind i) = true ∨ p.RuleMet c i ∨
      ∃ max, p.maxRuns = some max ∧ max.toNat ≤ i) :=
  stopsAt_iff_of_not_fatal p c (congrArg Outcome.isFatal hnormal)

/-- The metrics of runs after which the metric is the same. -/
theorem metrics_of_unchanged {m : Metric} (n : ℕ)
    (hsame : ∀ i, j < i → i ≤ j + n → p.policy.metric (c.kind i) = some m) :
    p.metrics c (j + n) = p.metrics c j ++ List.replicate n m := by
  -- the metrics come in from the right
  induction n with
  | zero => simp
  | succ n ih =>
    have hprefix := ih fun i hlo hhi ↦ hsame i hlo (by omega)
    have hlast : p.policy.metric (c.kind (j + n + 1)) = some m := hsame _ (by omega) (by omega)
    rw [← Nat.add_assoc, metrics_succ, hprefix, hlast, List.replicate_succ', List.append_assoc]
    rfl

/-- A metric that has not changed for as many runs as the `stable` rule asks for, after the run
that brought it. -/
theorem ruleMet_of_unchanged {n : UInt32} {m : Metric} (hrule : p.rule = .stable n) (hj : 1 ≤ j)
    (hsame : ∀ i, j ≤ i → i ≤ j + n.toNat → p.policy.metric (c.kind i) = some m) :
    p.RuleMet c (j + n.toNat) := by
  obtain ⟨j, rfl⟩ := Nat.exists_eq_add_of_le' hj
  have hmetrics : p.metrics c (j + 1 + n.toNat) =
      p.metrics c j ++ List.replicate (n.toNat + 1) m := by
    rw [Nat.add_right_comm, Nat.add_assoc]
    exact metrics_of_unchanged _ fun i hlo hhi ↦ hsame i hlo (by omega)
  have hmetric : p.policy.metric (c.kind (j + 1 + n.toNat)) = some m :=
    hsame _ (Nat.le_add_right ..) (Nat.le_refl _)
  rw [RuleMet, hrule]
  refine ⟨by rw [hmetric]; rfl, m, ?_⟩
  rw [hmetrics, ← List.cons_append]
  exact List.suffix_append ..

end Phase

namespace CampaignKind

variable {ω : Type}

/-- The phase of a kind under some settings and a cap on its runs. -/
def phase (k : CampaignKind) (s : PhaseSettings) (cap : Option UInt64) (r : Reporting ω)
    (files : SnapshotPaths) (l : Launcher ω) (spec : RunSpec) : Phase Progress ω where
  policy := k.policy r files
  launcher := l
  rule := s.rule
  spec
  maxRuns := cap

/-! ## What is accepted -/

variable {k : CampaignKind} {s : PhaseSettings} {cap : Option UInt64} {name : String}

theorem runout_pos_of_accepted {n : UInt64} (h : s.fault? name cap = none)
    (hrule : s.rule = .runout n) : 1 ≤ n.toNat := by
  obtain ⟨mode, threshold⟩ := s
  cases mode <;> cases hrule
  have hthreshold : threshold ≠ 0 := fun hzero ↦
    (PhaseSettings.fault?_eq_none_iff.mp h).1 ⟨rfl, hzero⟩
  exact Nat.one_le_iff_ne_zero.mpr fun hzero ↦ hthreshold (UInt64.toNat_inj.mp hzero)

theorem stops_of_accepted (h : s.fault? name none = none) : s.mode.stops name = true :=
  (PhaseSettings.fault?_eq_none_iff.mp h).2.resolve_left (not_not.mpr rfl)

/-- Without a cap on the runs, the rule stops the phase by itself. -/
theorem rule_of_accepted (h : s.fault? k.phaseName.text none = none) (hmode : s.mode ≠ .timeout) :
    (∃ n, s.rule = .runout n) ∨ (∃ n, s.rule = .stable n ∧ (k = .profile ∨ k = .race)) ∨
      s.rule = .finish ∧ ((∃ target, k = .active target) ∨ ∃ withRaces, k = .chess withRaces) := by
  have hstops := stops_of_accepted h
  obtain ⟨mode, threshold⟩ := s
  cases mode with
  | timeout => exact absurd rfl hmode
  | runout => exact .inl ⟨threshold, rfl⟩
  | stable =>
    refine .inr (.inl ⟨_, rfl, ?_⟩)
    cases k with
    | profile => exact .inl rfl
    | race => exact .inr rfl
    | native | active | chess | random => exact nomatch hstops
  | finish =>
    refine .inr (.inr ⟨rfl, ?_⟩)
    cases k with
    | active target => exact .inl ⟨target, rfl⟩
    | chess withRaces => exact .inr ⟨withRaces, rfl⟩
    | native | profile | race | random => exact nomatch hstops

/-! ## Along a course -/

section

variable {r : Reporting ω} {files : SnapshotPaths} {l : Launcher ω} {spec : RunSpec}
  {c : Course Progress ω} {i : ℕ}

theorem stopsAt_runout (hnormal : ∀ i, c.outcome i = .normal)
    (haccepted : s.fault? name cap = none) {n : UInt64} (hrule : s.rule = .runout n) :
    (k.phase s cap r files l spec).StopsAt c n.toNat := by
  have hmet : (k.phase s cap r files l spec).RuleMet c n.toNat := by
    rw [Phase.RuleMet, CampaignKind.phase, hrule]
  exact (Phase.stopsAt_of_normal (hnormal _)).mpr
    ⟨runout_pos_of_accepted haccepted hrule, .inr (.inl hmet)⟩

variable (h : (k.phase s cap r files l spec).Follows c) (hnormal : ∀ i, c.outcome i = .normal)

include h hnormal

/-- After a run a phase that goes on has learnt what is in its files. -/
theorem learns_of_follows (hgo : ∀ j ≤ i, ¬ (k.phase s cap r files l spec).StopsAt c j) :
    k.Learns files (r.tree (c.landed (i + 1))) (c.kind i) (c.kind (i + 1)) := by
  have hbooked : (c.outcome (i + 1)).isFatal = false := by
    rw [hnormal]
    rfl
  exact learns_of_afterRun (h.afterRun i hgo hbooked)

/-- If a phase has not stopped, then its campaign is exhausted after the next run just when the
files say that nothing is left to do. -/
theorem exhausted_iff_of_follows (hnew : c.kind 0 = {})
    (hgo : ∀ j ≤ i, ¬ (k.phase s cap r files l spec).StopsAt c j) :
    (c.kind (i + 1)).exhausted = true ↔ k.NothingLeft files (r.tree (c.landed (i + 1))) := by
  refine (learns_of_follows h hnormal hgo).exhausted_iff ?_
  cases i with
  | zero => rw [hnew]
  | succ i =>
    -- it would have stopped after the run before
    by_contra hexhausted
    rw [Bool.not_eq_false] at hexhausted
    refine hgo (i + 1) (Nat.le_refl _) ((Phase.stopsAt_of_normal (hnormal _)).mpr ?_)
    exact ⟨Nat.succ_pos i, .inl hexhausted⟩

theorem convergesBy_cap {most : UInt64} (hcap : cap = some most) :
    ∃ i ≤ max 1 most.toNat, (k.phase s cap r files l spec).ConvergesAt c i := by
  refine h.convergesBy hnormal fun _ ↦ (Phase.stopsAt_of_normal (hnormal _)).mpr ?_
  exact ⟨Nat.le_max_left .., .inr (.inr ⟨most, hcap, Nat.le_max_right ..⟩)⟩

/-- Nothing but the cap and the files can stop a phase before its `runout` rule does. -/
theorem convergesAt_runout (hnew : c.kind 0 = {}) (haccepted : s.fault? name cap = none)
    {n : UInt64} (hrule : s.rule = .runout n)
    (hcap : ∀ most, cap = some most → n.toNat ≤ most.toNat)
    (hleft : ∀ i, 1 ≤ i → i < n.toNat → ¬ k.NothingLeft files (r.tree (c.landed i))) :
    (k.phase s cap r files l spec).ConvergesAt c n.toNat := by
  have hrunout : (k.phase s cap r files l spec).StopsAt c n.toNat :=
    stopsAt_runout hnormal haccepted hrule
  obtain ⟨i, hi, hstop, hgo⟩ := Phase.exists_first_stop fun _ ↦ hrunout
  rcases Nat.lt_or_eq_of_le hi with hlt | rfl
  · exfalso
    obtain ⟨hpos, hreason⟩ := (Phase.stopsAt_of_normal (hnormal i)).mp hstop
    obtain ⟨i, rfl⟩ := Nat.exists_eq_add_of_le' hpos
    rcases hreason with hexhausted | hmet | ⟨most, hmost, hle⟩
    · have hgo : ∀ j ≤ i, ¬ (k.phase s cap r files l spec).StopsAt c j := fun j hj ↦
        hgo j (Nat.lt_succ_of_le hj)
      exact hleft _ hpos hlt ((exhausted_iff_of_follows h hnormal hnew hgo).mp hexhausted)
    · rw [Phase.RuleMet, CampaignKind.phase, hrule] at hmet
      exact Nat.not_lt_of_le hmet hlt
    · exact Nat.not_lt_of_le (Nat.le_trans (hcap most hmost) hle) hlt
  · exact h.convergesAt hnormal hstop hgo

theorem convergesBy_stable {n : UInt32} (hrule : s.rule = .stable n) {j : ℕ} (hj : 1 ≤ j)
    {m : Metric}
    (hsame : ∀ i, j ≤ i → i ≤ j + n.toNat → k.counts? files (r.tree (c.landed i)) = some m) :
    ∃ i ≤ j + n.toNat, (k.phase s cap r files l spec).ConvergesAt c i := by
  refine h.convergesBy hnormal fun hgo ↦ (Phase.stopsAt_of_normal (hnormal _)).mpr ?_
  refine ⟨Nat.le_trans hj (Nat.le_add_right ..), .inr (.inl ?_)⟩
  -- should the phase have got that far, the metric of each run is what the files count
  refine Phase.ruleMet_of_unchanged (m := m) hrule hj fun i hlo hhi ↦ ?_
  obtain ⟨i, rfl⟩ := Nat.exists_eq_add_of_le' (Nat.le_trans hj hlo)
  rw [← hsame (i + 1) hlo hhi]
  exact (learns_of_follows h hnormal fun j' hj' ↦ hgo j' (by omega)).metric?

theorem convergesBy_nothingLeft (hnew : c.kind 0 = {}) {j : ℕ} (hj : 1 ≤ j)
    (hleft : k.NothingLeft files (r.tree (c.landed j))) :
    ∃ i ≤ j, (k.phase s cap r files l spec).ConvergesAt c i := by
  refine h.convergesBy hnormal fun hgo ↦ (Phase.stopsAt_of_normal (hnormal _)).mpr ?_
  obtain ⟨j, rfl⟩ := Nat.exists_eq_add_of_le' hj
  have hgo : ∀ i ≤ j, ¬ (k.phase s cap r files l spec).StopsAt c i := fun i hi ↦
    hgo i (Nat.lt_succ_of_le hi)
  exact ⟨hj, .inl ((exhausted_iff_of_follows h hnormal hnew hgo).mpr hleft)⟩

end

/-- **Accepted settings end a phase.** A phase under accepted settings, in which no run is fatal and
nothing fails, converges: with the last run that its cap allows for or before it, a cap of zero
counting as one; with the last run that the `runout` rule asks for, or before it only by the cap or
because nothing is left to do; under the `stable` rule at most as many runs as it asks for after the
run from which on the counts in the files stay the same; and with the first run at whose end the
files say that nothing is left to do. Without a cap the rule is one of these, for a kind that
follows counts or has something to do. -/
theorem accepted_converges (haccepted : s.fault? k.phaseName.text cap = none)
    (hmode : s.mode ≠ .timeout) (r : Reporting ω) (files : SnapshotPaths) (l : Launcher ω)
    (spec : RunSpec) {c : Course Progress ω} (h : (k.phase s cap r files l spec).Follows c)
    (hnew : c.kind 0 = {}) (hnormal : ∀ i, c.outcome i = .normal) :
    let p := k.phase s cap r files l spec
    let tree := fun (i : ℕ) ↦ r.tree (c.landed i)
    (∀ most, cap = some most → ∃ i ≤ max 1 most.toNat, p.ConvergesAt c i) ∧
    (∀ n, s.rule = .runout n → (∃ i ≤ n.toNat, p.ConvergesAt c i) ∧
      ((∀ most, cap = some most → n.toNat ≤ most.toNat) →
        (∀ i, 1 ≤ i → i < n.toNat → ¬ k.NothingLeft files (tree i)) →
          p.ConvergesAt c n.toNat)) ∧
    (∀ n j m, s.rule = .stable n → 1 ≤ j →
      (∀ i, j ≤ i → i ≤ j + n.toNat → k.counts? files (tree i) = some m) →
        ∃ i ≤ j + n.toNat, p.ConvergesAt c i) ∧
    (∀ j, 1 ≤ j → k.NothingLeft files (tree j) → ∃ i ≤ j, p.ConvergesAt c i) ∧
    (cap = none → (∃ n, s.rule = .runout n) ∨
      (∃ n, s.rule = .stable n ∧ (k = .profile ∨ k = .race)) ∨
      s.rule = .finish ∧
        ((∃ target, k = .active target) ∨ ∃ withRaces, k = .chess withRaces)) := by
  intro p tree
  refine ⟨fun most hcap ↦ convergesBy_cap h hnormal hcap, fun n hrule ↦ ⟨?_, fun hcap hleft ↦ ?_⟩,
    fun n j m hrule hj hsame ↦ convergesBy_stable h hnormal hrule hj hsame,
    fun j hj hleft ↦ convergesBy_nothingLeft h hnormal hnew hj hleft, fun hcap ↦ ?_⟩
  · exact h.convergesBy hnormal fun _ ↦ stopsAt_runout hnormal haccepted hrule
  · exact convergesAt_runout h hnormal hnew haccepted hrule hcap hleft
  · rw [hcap] at haccepted
    exact rule_of_accepted haccepted hmode

/-- The second run finds a second race; from then on the first one is listed twice. -/
theorem accepted_converges_race :
    let early : Tree :=
      { nodes := .ofList [(["race.json"], .file (.text
          "\x7b\"static_races\": [\x7b\"id\": 1, \"event_ids\": []\x7d]\x7d"))] }
    let late : Tree :=
      { nodes := .ofList [(["race.json"], .file (.text
          "\x7b\"static_races\": [\x7b\"id\": 1, \"event_ids\": []\x7d,
\x7b\"id\": 2, \"event_ids\": []\x7d, \x7b\"id\": 1, \"event_ids\": []\x7d]\x7d"))] }
    let r : Reporting ℕ :=
      { tree := fun w ↦ if w < 2 then early else late
        recordCoverage := fun _ _ _ w ↦ .ok () w
        recordTiming := fun _ w ↦ .ok () w }
    let l : Launcher ℕ := { launch := fun _ w ↦ .ok .normal (w + 1), now := fun _ ↦ .epoch }
    let s : PhaseSettings := ⟨.stable, 2⟩
    let p := race.phase s none r {} l { program := "app" }
    let call := p.run 4 { kind := {} } 0
    s.fault? "race" none = none ∧ call.answer = .status .converged ∧
      call.state.history.length ≤ 4 := by
  intro early late r l s p call
  have haccepted : s.fault? race.phaseName.text none = none := by decide
  have hearly : (early.loadRegistry "sinfo.json" >>= early.loadRaceDb "race.json").map
      RaceDb.metric = .ok ⟨1, 0⟩ := by decide +kernel
  have hlate : (late.loadRegistry "sinfo.json" >>= late.loadRaceDb "race.json").map
      RaceDb.metric = .ok ⟨2, 0⟩ := by decide +kernel
  have hcounts : race.counts? {} late = some ⟨2, 0⟩ := by decide +kernel
  let c : Course Progress ℕ :=
    { kind := fun
        | 0 => {}
        | 1 => { metric := ⟨1, 0⟩ }
        | _ + 2 => { metric := ⟨2, 0⟩ }
      world := id
      landed := id
      outcome := fun _ ↦ .normal }
  have hfollows : p.Follows c := by
    refine ⟨fun _ _ ↦ rfl, fun i _ _ ↦ ?_⟩
    cases i with
    | zero => exact afterRun_race (p.record c 1) hearly
    | succ i => exact afterRun_race (p.record c (i + 2)) hlate
  obtain ⟨-, -, hstable, -⟩ :=
    accepted_converges haccepted (by decide) r {} l _ hfollows rfl fun _ ↦ rfl
  have hsame : ∀ i, 2 ≤ i → i ≤ 2 + 2 → race.counts? {} (r.tree (c.landed i)) = some ⟨2, 0⟩ := by
    intro i hi _
    rw [show r.tree (c.landed i) = late from if_neg (Nat.not_lt_of_le hi)]
    exact hcounts
  obtain ⟨i, hi, hconverges⟩ := hstable 2 2 _ rfl (by decide) hsame
  obtain ⟨hanswer, -, hlength⟩ := hconverges 4 hi
  exact ⟨haccepted, hanswer, hlength.trans_le hi⟩

/-- A cap of zero is accepted for a phase, and the phase makes one run. -/
theorem cap_zero_converges_late :
    let s : PhaseSettings := ⟨.runout, 1⟩
    let r : Reporting Unit :=
      { tree := fun _ ↦ {}
        recordCoverage := fun _ _ _ w ↦ .ok () w
        recordTiming := fun _ w ↦ .ok () w }
    let l : Launcher Unit := { launch := fun _ w ↦ .ok .normal w, now := fun _ ↦ .epoch }
    let p := native.phase s (some 0) r {} l { program := "app" }
    let c : Course Progress Unit := ⟨fun _ ↦ {}, fun _ ↦ (), fun _ ↦ (), fun _ ↦ .normal⟩
    s.fault? native.phaseName.text (some 0) = none ∧ s.mode ≠ .timeout ∧ p.Follows c ∧
      p.ConvergesAt c 1 ∧ ¬ ∃ i ≤ (0 : UInt64).toNat, p.ConvergesAt c i := by
  intro s r l p c
  have hfollows : p.Follows c := ⟨fun _ _ ↦ rfl, fun _ _ _ ↦ rfl⟩
  have haccepted : s.fault? native.phaseName.text (some 0) = none := by decide
  have hstop : p.StopsAt c 1 := stopsAt_runout (fun _ ↦ rfl) haccepted rfl
  have hgo : ∀ j < 1, ¬ p.StopsAt c j := fun j hj hstop ↦ Nat.not_lt_of_le hstop.1 hj
  have hconverges : p.ConvergesAt c 1 := hfollows.convergesAt (fun _ ↦ rfl) hstop hgo
  refine ⟨haccepted, by decide, hfollows, hconverges, ?_⟩
  rintro ⟨i, hi, hsooner⟩
  obtain rfl := Nat.le_zero.mp hi
  exact absurd ((hsooner 1 (by decide)).2.2.symm.trans (hconverges 1 (by decide)).2.2) (by decide)

end CampaignKind

end Interleave
