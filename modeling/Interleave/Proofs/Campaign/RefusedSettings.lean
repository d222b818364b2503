import Interleave.Proofs.Campaign.AcceptedSettings
import Interleave.Proofs.Campaign.Journal

/-!
# Refused settings

Settings are refused as unbounded if their rule cannot stop the phase and there is no cap on the
runs. Such a rule is never satisfied. What is left to stop the phase is that its campaign has
nothing more to do, which stops it under any rule; so a kind that never runs out of work does not
converge, and `active` and `chess` converge with the first run after which the files say that
nothing is left (`CampaignKind.unbounded_converges_iff`).

Of an end that is not reached one has to speak for every life of the phase, with runs that are
fatal, bookkeeping that fails, and calls that begin again. The journal of the life says after which
bookings the files had nothing left.
-/

namespace Interleave

namespace Phase

variable {κ ω : Type} {p : Phase κ ω} {c : Course κ ω} {i j : ℕ}

/-- A phase converges with one run at most. -/
theorem ConvergesAt.unique (hi : p.ConvergesAt c i) (hj : p.ConvergesAt c j) : i = j :=
  (hi (max i j) (Nat.le_max_left ..)).2.2.symm.trans (hj (max i j) (Nat.le_max_right ..)).2.2

theorem Follows.convergesAt_iff (h : p.Follows c) (hnormal : ∀ i, c.outcome i = .normal) :
    p.ConvergesAt c i ↔ p.StopsAt c i ∧ ∀ j < i, ¬ p.StopsAt c j := by
  refine ⟨fun hi ↦ ?_, fun ⟨hstop, hgo⟩ ↦ h.convergesAt hnormal hstop hgo⟩
  by_cases hgo : ∀ j ≤ i, ¬ p.StopsAt c j
  · have hanswer := (hi i (Nat.le_refl i)).1
    rw [run_of_not_stopsAt h hgo] at hanswer
    cases hanswer
  · simp only [not_forall, not_not] at hgo
    obtain ⟨j, -, hstop⟩ := hgo
    obtain ⟨j, -, hfirst, hgo⟩ := exists_first_stop fun _ ↦ hstop
    obtain rfl := hi.unique (h.convergesAt hnormal hfirst hgo)
    exact ⟨hfirst, hgo⟩

/-- The rule is never satisfied, and there is no cap. -/
structure Unbounded (p : Phase κ ω) : Prop where
  rule : p.rule = .finish ∨ ∃ n, p.rule = .stable n ∧ ∀ q, p.policy.metric q = none
  cap : p.maxRuns = none

/-- What stops such a phase is that there is nothing left to do. -/
theorem Unbounded.shouldStop_eq (h : p.Unbounded) (s : PhaseState κ) (now : Instant) :
    (p.shouldStop s now).1 = p.policy.exhausted s.kind := by
  have hrule : (p.ruleHolds s now).1 = false := by
    obtain hrule | ⟨n, hrule, hmetric⟩ := h.rule
    · simp [ruleHolds, hrule]
    · simp [ruleHolds, hrule, hmetric]
  have hcap : p.capReached s = false := by rw [capReached, h.cap]
  rw [shouldStop]
  cases hexhausted : p.policy.exhausted s.kind with
  | true => rfl
  | false => simp [hrule, hcap]

theorem Unbounded.stopsAt_iff (h : p.Unbounded) (hnormal : c.outcome i = .normal) :
    p.StopsAt c i ↔ 1 ≤ i ∧ p.policy.exhausted (c.kind i) = true := by
  have hrule : ¬ p.RuleMet c i := by
    obtain hrule | ⟨n, hrule, hmetric⟩ := h.rule
    · simp [RuleMet, hrule]
    · simp [RuleMet, hrule, hmetric]
  rw [stopsAt_of_normal hnormal]
  simp [hrule, h.cap]

end Phase

namespace CampaignKind

variable {ω : Type} {k : CampaignKind} {s : PhaseSettings} {mode : Mode} {name : String}
  {r : Reporting ω} {files : SnapshotPaths} {l : Launcher ω} {spec : RunSpec}

/-! ## What is refused -/

theorem stops_eq_false_of_unbounded (h : s.fault? name none = some (.unbounded name mode)) :
    s.mode.stops name = false := by
  rw [PhaseSettings.fault?] at h
  split at h
  · cases h
  · split at h
    · next hstops => simpa using hstops.2
    · cases h

/-- A rule is refused that only the end of all work satisfies, or that follows nothing. -/
theorem rule_of_unbounded
    (h : s.fault? k.phaseName.text none = some (.unbounded k.phaseName.text mode)) :
    s.rule = .finish ∨ ∃ n, s.rule = .stable n ∧ ∀ q, k.metric? q = none := by
  have hstops := stops_eq_false_of_unbounded h
  obtain ⟨mode, threshold⟩ := s
  cases mode with
  | runout | timeout => exact nomatch hstops
  | finish => exact .inl rfl
  | stable =>
    refine .inr ⟨_, rfl, fun q ↦ ?_⟩
    cases k with
    | profile | race => exact nomatch hstops
    | native | active | chess | random => rfl

/-! ## Along a course -/

section

variable (hunbounded : (k.phase s none r files l spec).Unbounded) {c : Course Progress ω}
  (h : (k.phase s none r files l spec).Follows c) (hnew : c.kind 0 = {})
  (hnormal : ∀ i, c.outcome i = .normal)

include hunbounded h hnew hnormal

theorem stopsAt_iff_nothingLeft {i : ℕ}
    (hgo : ∀ j < i, ¬ (k.phase s none r files l spec).StopsAt c j) :
    (k.phase s none r files l spec).StopsAt c i ↔
      1 ≤ i ∧ k.NothingLeft files (r.tree (c.landed i)) := by
  rw [hunbounded.stopsAt_iff (hnormal i)]
  refine and_congr_right fun hi ↦ ?_
  obtain ⟨i, rfl⟩ := Nat.exists_eq_add_of_le' hi
  exact exhausted_iff_of_follows h hnormal hnew fun j hj ↦ hgo j (Nat.lt_succ_of_le hj)

/-- As long as the files have something left there is no reason to stop. -/
theorem forall_not_stopsAt_iff (i : ℕ) :
    (∀ j < i, ¬ (k.phase s none r files l spec).StopsAt c j) ↔
      ∀ j < i, 1 ≤ j → ¬ k.NothingLeft files (r.tree (c.landed j)) := by
  -- what the files say of a run counts only if there was no reason to stop before
  induction i with
  | zero =>
    exact iff_of_true (fun _ hj ↦ absurd hj (Nat.not_lt_zero _))
      fun _ hj ↦ absurd hj (Nat.not_lt_zero _)
  | succ i ih =>
    rw [Nat.forall_lt_succ_right, Nat.forall_lt_succ_right, ← ih]
    refine and_congr_right fun hgo ↦ ?_
    rw [stopsAt_iff_nothingLeft hunbounded h hnew hnormal hgo, not_and]

theorem convergesAt_iff_nothingLeft (i : ℕ) :
    (k.phase s none r files l spec).ConvergesAt c i ↔
      1 ≤ i ∧ k.NothingLeft files (r.tree (c.landed i)) ∧
        ∀ j < i, 1 ≤ j → ¬ k.NothingLeft files (r.tree (c.landed j)) := by
  rw [h.convergesAt_iff hnormal, ← forall_not_stopsAt_iff hunbounded h hnew hnormal, ← and_assoc]
  exact and_congr_left fun hgo ↦ stopsAt_iff_nothingLeft hunbounded h hnew hnormal hgo

end

/-! ## In any life -/

/-- A kind that has no end of work is not at its end. -/
def Sound (k : CampaignKind) (q : Progress) : Prop :=
  match k with
  | active _ | chess _ => True
  | native | profile | race | random _ => q.exhausted = false

theorem Learns.sound {t : Tree} {q q' : Progress} (h : k.Learns files t q q') (hq : k.Sound q) :
    k.Sound q' := by
  cases k with
  | native | random => exact h ▸ hq
  | profile =>
    obtain ⟨d, -, rfl⟩ := h
    rfl
  | race =>
    obtain ⟨_, _, -, -, rfl⟩ := h
    rfl
  | active | chess => trivial

/-- What `active` and `chess` have known before is of no account. -/
theorem Learns.exhausted_iff_of_sound {t : Tree} {q q' : Progress} (h : k.Learns files t q q')
    (hq : k.Sound q) : q'.exhausted = true ↔ k.NothingLeft files t := by
  cases k with
  | native | profile | race | random => exact h.exhausted_iff hq
  | active | chess => exact Learns.exhausted_iff (q := {}) h rfl

/-- A run has been booked after which the files have nothing left. -/
def Done (k : CampaignKind) (r : Reporting ω) (files : SnapshotPaths) (b : Booking ω) : Prop :=
  b.failure = none ∧ k.NothingLeft files (r.tree b.world)

/-- The phase has converged exactly if a run has been booked that left nothing to do, and there is
no booking after that. -/
structure EndsDone (k : CampaignKind) (r : Reporting ω) (files : SnapshotPaths) (q : Progress)
    (status : Status) (bookings : List (Booking ω)) : Prop where
  sound : k.Sound q
  converged_iff : status = .converged ↔ ∃ b ∈ bookings, k.Done r files b
  not_done : ∀ b ∈ bookings.dropLast, ¬ k.Done r files b

theorem EndsDone.forall_not_done {q : Progress} {status : Status} {bookings : List (Booking ω)}
    (h : k.EndsDone r files q status bookings) (hstatus : status ≠ .converged) :
    ∀ b ∈ bookings, ¬ k.Done r files b :=
  fun b hb hdone ↦ hstatus (h.converged_iff.mpr ⟨b, hb, hdone⟩)

theorem EndsDone.concat {q q' : Progress} {status status' : Status} {bookings : List (Booking ω)}
    {b : Booking ω} (h : k.EndsDone r files q status bookings) (hstatus : status ≠ .converged)
    (hsound : k.Sound q') (hconverged : status' = .converged ↔ k.Done r files b) :
    k.EndsDone r files q' status' (bookings ++ [b]) := by
  have hnone := h.forall_not_done hstatus
  refine ⟨hsound, ?_, by rwa [List.dropLast_concat]⟩
  rw [hconverged]
  constructor
  · exact fun hdone ↦ ⟨b, List.mem_append_right _ (List.mem_singleton_self b), hdone⟩
  · rintro ⟨b', hb', hdone⟩
    rcases List.mem_append.mp hb' with hb' | hb'
    · exact absurd hdone (hnone b' hb')
    · exact List.mem_singleton.mp hb' ▸ hdone

theorem Turned.endsDone {p : Phase Progress (List (JournalEntry ω) × ω)}
    (hunbounded : p.Unbounded) (hexhausted : ∀ q, p.policy.exhausted q = q.exhausted)
    {st st' : PhaseState Progress} {v : Verdict} {page page' journal : List (JournalEntry ω)}
    (h : k.Turned r files p st page v st' page') (hstatus : st.status = .running)
    (hdone : k.EndsDone r files st.kind .running (JournalEntry.bookings (journal ++ page))) :
    k.EndsDone r files st'.kind st'.status (JournalEntry.bookings (journal ++ page')) := by
  cases h with
  | noRun =>
    rw [hstatus]
    exact hdone
  | fatal record _ _ hfatal hkind =>
    rw [hfatal, hkind]
    refine ⟨hdone.sound, iff_of_false Status.noConfusion ?_, hdone.not_done⟩
    rintro ⟨b, hb, hb'⟩
    exact hdone.forall_not_done Status.noConfusion b hb hb'
  | failed b e hfailure _ _ _ hstatus' hkind =>
    rw [← List.append_assoc, JournalEntry.bookings_booked]
    refine hdone.concat Status.noConfusion ?_ (iff_of_false ?_ ?_)
    · rcases hkind with hkind | ⟨withRaces, rfl⟩
      · exact hkind ▸ hdone.sound
      · trivial
    · rw [hstatus', hstatus]
      exact Status.noConfusion
    · rintro ⟨hnone, -⟩
      rw [hnone] at hfailure
      cases hfailure
  | booked b hfailure ls _ _ _ hlearns hstop =>
    obtain ⟨asked, now, hasked, hstop⟩ := hstop
    rw [hunbounded.shouldStop_eq, hexhausted, hasked] at hstop
    have hleft := hlearns.exhausted_iff_of_sound hdone.sound
    rw [← List.append_assoc, ← List.append_assoc, JournalEntry.bookings_booked,
      JournalEntry.bookings_lines]
    refine hdone.concat Status.noConfusion (hlearns.sound hdone.sound) ?_
    rw [Done, and_iff_right hfailure, ← hleft]
    rcases hstop with ⟨hend, -, hconverged⟩ | ⟨hend, -, hrunning⟩
    · exact iff_of_true hconverged hend
    · rw [hrunning, hstatus, hend]
      exact iff_of_false Status.noConfusion Bool.false_ne_true

theorem EndsDone.new : k.EndsDone r files {} .notStarted [] := by
  refine ⟨?_, iff_of_false Status.noConfusion ?_, fun b hb ↦ absurd hb List.not_mem_nil⟩
  · cases k <;> first | rfl | trivial
  · rintro ⟨b, hb, -⟩
    exact absurd hb List.not_mem_nil

theorem EndsDone.begin {q : Progress} {status : Status} {bookings : List (Booking ω)}
    (h : k.EndsDone r files q status bookings) (hstatus : status.isTerminal = false) :
    k.EndsDone r files q .running bookings := by
  refine ⟨h.sound, iff_of_false Status.noConfusion ?_, h.not_done⟩
  rintro ⟨b, hb, hdone⟩
  rw [h.converged_iff.mpr ⟨b, hb, hdone⟩] at hstatus
  cases hstatus

theorem endsDone_of_lives {rule : StopRule}
    (hunbounded : (k.journaled rule none r files l spec).Unbounded)
    {calls : List (JournaledCall ω)} {st : PhaseState Progress}
    (h : (k.journaled rule none r files l spec).Lives {} calls st) :
    k.EndsDone r files st.kind st.status (JournalEntry.bookings (calls.flatMap (·.page))) :=
  lives_induction
    (Q := fun q status _ journal ↦ k.EndsDone r files q status (JournalEntry.bookings journal))
    .new (fun hstatus hdone ↦ hdone.begin hstatus)
    (fun hrunning hturned hdone ↦ hturned.endsDone hunbounded (fun _ ↦ rfl) hrunning hdone) h

theorem works_of_nothingLeft {t : Tree} (h : k.NothingLeft files t) :
    (∃ target, k = active target) ∨ ∃ withRaces, k = chess withRaces := by
  cases k with
  | active target => exact .inl ⟨target, rfl⟩
  | chess withRaces => exact .inr ⟨withRaces, rfl⟩
  | native | profile | race | random => exact h.elim

/-- **Refused settings.** Under settings that are refused as unbounded a phase converges with the
first run after which the files say that nothing is left to do, and with no other. In every life,
whatever the outcomes, failures and calls, the phase has converged exactly if such a run has been
booked, which is the last one then; so `native`, `profile`, `race` and `random` never converge.
Along a course on which nothing fails, the phase converges with the first such run, and goes on for
ever if there is none. -/
theorem unbounded_converges_iff
    (hrejected : s.fault? k.phaseName.text none = some (.unbounded k.phaseName.text mode))
    (r : Reporting ω) (files : SnapshotPaths) (l : Launcher ω) (spec : RunSpec) :
    let p := k.phase s none r files l spec
    let journaled := k.journaled s.rule none r files l spec
    let done := fun w ↦ k.NothingLeft files (r.tree w)
    (∀ turns st page w,
      (journaled.run turns st (page, w)).mapWorld Prod.snd = p.run turns st w) ∧
    (∀ calls st, journaled.Lives {} calls st →
      let bookings := JournalEntry.bookings (calls.flatMap (·.page))
      (st.status = .converged ↔ ∃ b ∈ bookings, b.failure = none ∧ done b.world) ∧
        (∀ b ∈ bookings.dropLast, ¬ (b.failure = none ∧ done b.world)) ∧
        (st.status = .converged →
          (∃ target, k = active target) ∨ ∃ withRaces, k = chess withRaces)) ∧
    ∀ c, p.Follows c → c.kind 0 = {} → (∀ i, c.outcome i = .normal) →
      (∀ i, p.ConvergesAt c i ↔
        1 ≤ i ∧ done (c.landed i) ∧ ∀ j < i, 1 ≤ j → ¬ done (c.landed j)) ∧
      ((∀ i, 1 ≤ i → ¬ done (c.landed i)) →
        ∀ turns, (p.run turns { kind := {} } (c.world 0)).answer = .unfinished) := by
  intro p journaled done
  have hrule := rule_of_unbounded hrejected
  refine ⟨fun turns st page w ↦ (projects_journaled ..).mapWorld_run turns st (page, w),
    fun calls st h ↦ ?_, fun c h hnew hnormal ↦ ?_⟩
  · obtain ⟨-, hconverged, hnot⟩ := endsDone_of_lives ⟨hrule, rfl⟩ h
    refine ⟨hconverged, hnot, fun hstatus ↦ ?_⟩
    obtain ⟨b, -, -, hleft⟩ := hconverged.mp hstatus
    exact works_of_nothingLeft hleft
  · have hunbounded : p.Unbounded := ⟨hrule, rfl⟩
    refine ⟨convergesAt_iff_nothingLeft hunbounded h hnew hnormal, fun hleft turns ↦ ?_⟩
    have hgo := (forall_not_stopsAt_iff hunbounded h hnew hnormal (turns + 1)).mpr
      fun j _ hj ↦ hleft j hj
    rw [← hnew]
    exact Phase.run_of_not_stopsAt h fun j hj ↦ hgo j (Nat.lt_succ_of_le hj)

/-- The search is done with the second run, but the coverage of that run cannot be logged. So the
phase converges with the third run, in a second call. -/
theorem unbounded_converges_iff_chess :
    let late : Tree :=
      { nodes := .ofList [(["search.json"], .file (.text "\x7b\"done\": true\x7d"))] }
    let r : Reporting ℕ :=
      { tree := fun w ↦ if w < 2 then {} else late
        recordCoverage := fun _ _ _ w ↦
          if w = 2 then .error (.report "disk full") w else .ok () w
        recordTiming := fun _ w ↦ .ok () w }
    let l : Launcher ℕ := { launch := fun _ w ↦ .ok .normal (w + 1), now := fun _ ↦ .epoch }
    let s : PhaseSettings := ⟨.stable, 2⟩
    let p := (chess false).journaled s.rule none r {} l { program := "app" }
    let first := p.run 4 { kind := {} } ([], 0)
    let second := p.run 4 first.state ([], first.world.2)
    s.fault? "chess" none = some (.unbounded "chess" .stable) ∧
      first.answer = .failed (.report "disk full") ∧ second.state.status = .converged := by
  intro late r l s p first second
  have hrejected : s.fault? (chess false).phaseName.text none =
      some (.unbounded (chess false).phaseName.text .stable) := by decide
  have hlives : p.Lives {} ([] ++ [⟨first.answer, first.world.1⟩] ++
      [⟨second.answer, second.world.1⟩]) second.state := .call (.call .new 4 0) 4 first.world.2
  have hbooked : JournalEntry.bookings second.world.1 =
      [⟨3, ⟨.epoch, .epoch, .normal⟩, none⟩] := by decide +kernel
  have hdone : (chess false).NothingLeft {} (r.tree 3) := by
    have htree : r.tree 3 = late := rfl
    rw [htree]
    exact ⟨⟨true, 0⟩, by decide +kernel, rfl⟩
  obtain ⟨-, hlives_iff, -⟩ :=
    unbounded_converges_iff hrejected r {} l { program := "app" }
  have hconverged := (hlives_iff _ _ hlives).1
  refine ⟨hrejected, by decide +kernel, hconverged.mpr ?_⟩
  refine ⟨⟨3, ⟨.epoch, .epoch, .normal⟩, none⟩, ?_, rfl, hdone⟩
  simp [hbooked]

/-- `active` under the `stable` rule is refused, and yet it converges with its first run if there is
no candidate. -/
theorem unbounded_active_converges :
    let s : PhaseSettings := ⟨.stable, 3⟩
    let r : Reporting Unit :=
      { tree := fun _ ↦ {}
        recordCoverage := fun _ _ _ w ↦ .ok () w
        recordTiming := fun _ w ↦ .ok () w }
    let l : Launcher Unit := { launch := fun _ w ↦ .ok .normal w, now := fun _ ↦ .epoch }
    let p := (active none).phase s none r {} l { program := "app" }
    let c : Course Progress Unit :=
      ⟨fun i ↦ { exhausted := i != 0 }, fun _ ↦ (), fun _ ↦ (), fun _ ↦ .normal⟩
    s.fault? "active" none = some (.unbounded "active" .stable) ∧
      p.Follows c ∧ c.kind 0 = {} ∧ (∀ i, c.outcome i = .normal) ∧ p.ConvergesAt c 1 := by
  intro s r l p c
  have hfollows : p.Follows c := by
    refine ⟨fun _ _ ↦ rfl, fun i _ _ ↦ ?_⟩
    rfl
  have hstop : p.StopsAt c 1 :=
    (Phase.stopsAt_of_normal rfl).mpr ⟨Nat.le_refl 1, .inl rfl⟩
  have hgo : ∀ j < 1, ¬ p.StopsAt c j := fun j hj hstop ↦ Nat.not_lt_of_le hstop.1 hj
  exact ⟨by decide, hfollows, rfl, fun _ ↦ rfl, hfollows.convergesAt (fun _ ↦ rfl) hstop hgo⟩

end CampaignKind

end Interleave
