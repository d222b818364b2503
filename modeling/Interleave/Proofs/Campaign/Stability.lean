import Interleave.Proofs.Campaign.RefusedSettings
import Mathlib.Order.Bounds.Basic
import Mathlib.Tactic.IntervalCases

/-!
# When a phase is stable

The `stable` rule goes by a counter that starts over whenever the metric changes. What the counter
says of the metrics as a whole is known from `Plateau.exists_isGreatest_length`: it is the greatest
number of repetitions that the metrics end with, the zero before the first run included, as long as
that number fits a word. So along a course on which nothing else stops the phase, the rule stops it
with the first run at which the metrics end with as many repetitions as it asks for
(`Phase.stable_converges_exactly`). The number that a rule asks for is a word itself, so that for
this it does not matter that the counter is one.

The counter starts anew at every change, but the number that it is compared with can be read off the
metrics after each run alone. That is why no induction on the runs is left here.
-/

namespace Interleave

namespace Phase

variable {κ ω : Type} {p : Phase κ ω} {c : Course κ ω} {n : UInt32} {metric : ℕ → Metric} {i : ℕ}

theorem metrics_eq_map (hmetric : ∀ i, 1 ≤ i → p.policy.metric (c.kind i) = some (metric i))
    (i : ℕ) : p.metrics c i = (List.range' 1 i).map metric := by
  induction i with
  | zero => rfl
  | succ i ih =>
    rw [metrics_succ, ih, hmetric (i + 1) (Nat.succ_pos i), range'_one_succ, List.map_append]
    rfl

/-- A phase that only its `stable` rule can stop has a reason to when the metrics are steady. -/
theorem stopsAt_iff_steady (hrule : p.rule = .stable n) (hcap : p.maxRuns = none)
    (hnormal : ∀ i, c.outcome i = .normal)
    (hwork : ∀ i, 1 ≤ i → p.policy.exhausted (c.kind i) = false)
    (hmetric : ∀ i, 1 ≤ i → p.policy.metric (c.kind i) = some (metric i)) :
    p.StopsAt c i ↔ 1 ≤ i ∧ Plateau.Steady n.toNat ((List.range' 1 i).map metric) := by
  rw [stopsAt_of_normal (hnormal i)]
  refine and_congr_right fun hi ↦ ?_
  rw [RuleMet, hrule, hwork i hi, hcap, metrics_eq_map hmetric]
  simp [hmetric i hi]

/-- **When a phase is stable.** The counter of a plateau is the greatest `k` such that the last
`k + 1` metrics, the zero before the first one included, are the same, if this `k` fits a word. So a
new phase under a `stable` rule that follows a metric, in which no run is fatal, nothing fails,
there is always something left to do, and the runs are not capped, converges with the first run
after which as many metrics as the rule asks for, and one more, are the same, and never if there is
no such run. A rule that asks for none stops it with the first run. -/
theorem stable_converges_exactly (hrule : p.rule = .stable n) (hcap : p.maxRuns = none)
    (h : p.Follows c) (hnormal : ∀ i, c.outcome i = .normal)
    (hwork : ∀ i, 1 ≤ i → p.policy.exhausted (c.kind i) = false)
    (hmetric : ∀ i, 1 ≤ i → p.policy.metric (c.kind i) = some (metric i)) :
    let stable := {i | 1 ≤ i ∧ n.toNat ≤ i ∧
      Plateau.Steady n.toNat ((List.range' 1 i).map metric)}
    (∀ ms, ∃ k, IsGreatest {k | k ≤ ms.length ∧ Plateau.Steady k ms} k ∧
        (k < UInt32.size → (Plateau.observeAll {} ms).length.toNat = k)) ∧
      (∀ i, p.ConvergesAt c i ↔ IsLeast stable i) ∧
      (∀ turns, (∀ i ≤ turns, i ∉ stable) →
        (p.run turns { kind := c.kind 0 } (c.world 0)).answer = .unfinished) ∧
      (n = 0 → p.ConvergesAt c 1) := by
  intro stable
  have hstops (i : ℕ) : p.StopsAt c i ↔ i ∈ stable := by
    rw [stopsAt_iff_steady hrule hcap hnormal hwork hmetric]
    refine and_congr_right fun _ ↦ (and_iff_right_of_imp fun hsteady ↦ ?_).symm
    have hle := hsteady.le_length
    rwa [List.length_map, List.length_range'] at hle
  have hconverges (i : ℕ) : p.ConvergesAt c i ↔ IsLeast stable i := by
    rw [h.convergesAt_iff hnormal, hstops]
    refine and_congr_right fun _ ↦ ⟨fun hgo j hj ↦ ?_, fun hleast j hj hstop ↦ ?_⟩
    · by_contra hlt
      exact hgo j (Nat.not_le.mp hlt) ((hstops j).mpr hj)
    · exact Nat.not_le.mpr hj (hleast ((hstops j).mp hstop))
  refine ⟨fun ms ↦ ?_, hconverges, fun turns hgo ↦ ?_, ?_⟩
  · obtain ⟨k, hgreatest, hlength⟩ := Plateau.exists_isGreatest_length ms
    refine ⟨k, hgreatest, fun hk ↦ ?_⟩
    rw [hlength, UInt32.toNat_ofNat_of_lt' hk]
  · exact run_of_not_stopsAt h fun i hi ↦ mt (hstops i).mp (hgo i hi)
  · rintro rfl
    exact (hconverges 1).mpr
      ⟨⟨Nat.le_refl 1, Nat.zero_le 1, Plateau.steady_zero _⟩, fun j hj ↦ hj.1⟩

/-- The metric changes with the second run, so that of three that are the same the last is that of
the fourth run. -/
theorem stable_converges_exactly_late :
    let p : Phase ℕ ℕ :=
      { policy :=
          { label := "profile"
            afterRun := fun _ _ (k, w) ↦ .ok () (k + 1, w)
            metric := fun k ↦ some (.single (if k = 1 then 3 else 4)) }
        launcher := { launch := fun _ w ↦ .ok .normal (w + 1), now := fun _ ↦ .epoch }
        rule := .stable 2
        spec := { program := "app" } }
    let call := p.run 4 { kind := 0 } 0
    call.answer = .status .converged ∧ call.state.history.length = 4 ∧
      (p.run 3 { kind := 0 } 0).answer = .unfinished := by
  intro p call
  let c : Course ℕ ℕ := { kind := id, world := id, landed := id, outcome := fun _ ↦ .normal }
  let metric : ℕ → Metric := fun k ↦ .single (if k = 1 then 3 else 4)
  have hfollows : p.Follows c := ⟨fun _ _ ↦ rfl, fun _ _ _ ↦ rfl⟩
  have hchanging : ∀ i ≤ 3, ¬ Plateau.Steady 2 ((List.range' 1 i).map metric) := by
    intro i hi
    rw [Plateau.steady_iff_le_length]
    · interval_cases i <;> decide
    · rw [List.length_map, List.length_range']
      exact Nat.lt_of_le_of_lt hi (by decide)
  have hmetric : ∀ i, 1 ≤ i → p.policy.metric (c.kind i) = some (metric i) := fun _ _ ↦ rfl
  obtain ⟨-, hconverges, hunfinished, -⟩ :=
    stable_converges_exactly (n := 2) rfl rfl hfollows (fun _ ↦ rfl) (fun _ _ ↦ rfl) hmetric
  have hleast : p.ConvergesAt c 4 := by
    refine (hconverges 4).mpr ⟨⟨by decide, by decide, ⟨.single 4, [.zero, .single 3], rfl⟩⟩, ?_⟩
    rintro i ⟨-, -, hi⟩
    by_contra hlt
    exact hchanging i (Nat.le_of_lt_succ (Nat.not_le.mp hlt)) hi
  obtain ⟨hanswer, -, hlength⟩ := hleast 4 (Nat.le_refl 4)
  -- the call is named by the course, or the runs would be carried out to compare the two
  have hcall : call = p.run 4 { kind := c.kind 0 } (c.world 0) := rfl
  rw [hcall]
  exact ⟨hanswer, hlength, hunfinished 3 fun i hi hstable ↦ hchanging i hi hstable.2.2⟩

/-- After 2 ^ 32 repetitions the counter is zero again. And a run is not the last one, although the
rule asks for no repetition and is met, if it cannot be booked. -/
theorem stable_converges_exactly_full_or_failed :
    let ms := List.replicate UInt32.size Metric.zero
    let p : Phase Unit Unit :=
      { policy :=
          { label := "profile"
            afterRun := fun _ _ x ↦ .error (.report "disk full") x
            metric := fun _ ↦ some .zero }
        launcher := { launch := fun _ w ↦ .ok .normal w, now := fun _ ↦ .epoch }
        rule := .stable 0
        spec := { program := "app" } }
    let call := p.run 1 { kind := () } ()
    IsGreatest {k | k ≤ ms.length ∧ Plateau.Steady k ms} UInt32.size ∧
      (Plateau.observeAll {} ms).length = 0 ∧
      call.answer = .failed (.report "disk full") ∧ call.state.status = .running ∧
      call.state.history = [⟨.epoch, .epoch, .normal⟩] := by
  intro ms p call
  have hgreatest := Plateau.isGreatest_steady_replicate_zero UInt32.size
  obtain ⟨k, hk, hlength⟩ := Plateau.exists_isGreatest_length ms
  rw [hk.unique hgreatest] at hlength
  exact ⟨hgreatest, hlength, rfl, rfl, rfl⟩

end Phase

end Interleave
