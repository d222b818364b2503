import Interleave.Campaign.Basic
import Mathlib.Data.List.Induction
import Mathlib.Order.Bounds.Basic

/-!
# How long a plateau is

A plateau counts how often in a row the last metric has come again. Read off the metrics themselves,
with the zero that stands before the first one, its length is the greatest `k` such that the last
`k + 1` of them are the same, as far as that fits a word (`Plateau.exists_isGreatest_length`). The
metrics come in from the right, so the induction is from the right; what makes the step is that the
plateau has kept the last one.

A stop rule that asks for `k` repetitions, which fit a word, has been met by the time there are
more. So up to there the length and the number of repetitions are the same
(`Plateau.le_length_observeAll_concat_iff`).
-/

namespace Interleave.Plateau

/-- The last `k + 1` metrics are the same, the zero before the first one included. -/
def Steady (k : ℕ) (ms : List Metric) : Prop := ∃ m, List.replicate (k + 1) m <:+ Metric.zero :: ms

theorem Steady.le_length {k : ℕ} {ms : List Metric} (h : Steady k ms) : k ≤ ms.length := by
  obtain ⟨m, hm⟩ := h
  have hlength := hm.length_le
  rw [List.length_replicate, List.length_cons] at hlength
  exact Nat.succ_le_succ_iff.mp hlength

theorem Steady.mono {k n : ℕ} {ms : List Metric} (h : Steady n ms) (hkn : k ≤ n) :
    Steady k ms := by
  obtain ⟨m, hm⟩ := h
  obtain ⟨j, rfl⟩ := Nat.exists_eq_add_of_le' hkn
  refine ⟨m, List.IsSuffix.trans ⟨List.replicate j m, ?_⟩ hm⟩
  rw [List.replicate_append_replicate, Nat.add_assoc]

theorem observeAll_concat (p : Plateau) (ms : List Metric) (m : Metric) :
    p.observeAll (ms ++ [m]) = (p.observeAll ms).observe m := by
  rw [observeAll, observeAll, List.foldl_append, List.foldl_cons, List.foldl_nil]

/-- The metrics so far end with the one that the plateau has kept. -/
theorem exists_concat_previous (ms : List Metric) :
    ∃ l, Metric.zero :: ms = l ++ [(observeAll {} ms).previous] := by
  induction ms using List.reverseRecOn with
  | nil => exact ⟨[], rfl⟩
  | append_singleton ms m _ => exact ⟨Metric.zero :: ms, by rw [observeAll_concat]; rfl⟩

theorem replicate_suffix_concat_iff {α : Type} {k : ℕ} {a b : α} {l : List α} :
    List.replicate (k + 1) a <:+ l ++ [b] ↔ a = b ∧ List.replicate k a <:+ l := by
  rw [List.replicate_succ', List.suffix_concat_iff]
  constructor
  · rintro (h | ⟨t, h, ht⟩)
    · simp at h
    · obtain ⟨rfl, hab⟩ := List.append_inj' h rfl
      exact ⟨List.singleton_inj.mp hab, ht⟩
  · rintro ⟨rfl, h⟩
    exact .inr ⟨_, rfl, h⟩

theorem steady_zero (ms : List Metric) : Steady 0 ms := by
  obtain ⟨l, hl⟩ := exists_concat_previous ms
  refine ⟨(observeAll {} ms).previous, ?_⟩
  rw [hl, replicate_suffix_concat_iff]
  exact ⟨rfl, List.nil_suffix⟩

theorem steady_concat_iff {k : ℕ} {ms : List Metric} {m : Metric} :
    Steady (k + 1) (ms ++ [m]) ↔ m = (observeAll {} ms).previous ∧ Steady k ms := by
  obtain ⟨l, hl⟩ := exists_concat_previous ms
  simp only [Steady]
  -- peel the new metric off the right end, then the one that the plateau has kept
  rw [← List.cons_append, hl]
  simp only [replicate_suffix_concat_iff]
  constructor
  · rintro ⟨_, rfl, rfl, h⟩
    exact ⟨rfl, _, rfl, h⟩
  · rintro ⟨rfl, _, rfl, h⟩
    exact ⟨_, rfl, rfl, h⟩

/-- The length of a plateau is the number of repetitions, in the arithmetic of words. -/
theorem exists_isGreatest_length (ms : List Metric) :
    ∃ k, IsGreatest {k | k ≤ ms.length ∧ Steady k ms} k ∧
      (observeAll {} ms).length = UInt32.ofNat k := by
  -- that a steady `k` is at most the number of metrics need not be carried along
  suffices h : ∃ k, Steady k ms ∧ (∀ j, Steady j ms → j ≤ k) ∧
      (observeAll {} ms).length = UInt32.ofNat k by
    obtain ⟨k, hk, hgreatest, hlength⟩ := h
    exact ⟨k, ⟨⟨hk.le_length, hk⟩, fun j hj ↦ hgreatest j hj.2⟩, hlength⟩
  induction ms using List.reverseRecOn with
  | nil => exact ⟨0, steady_zero [], fun j hj ↦ hj.le_length, rfl⟩
  | append_singleton ms m ih =>
    obtain ⟨k, hk, hgreatest, hlength⟩ := ih
    rw [observeAll_concat, observe]
    by_cases hm : m = (observeAll {} ms).previous
    · refine ⟨k + 1, steady_concat_iff.mpr ⟨hm, hk⟩, fun j hj ↦ ?_, ?_⟩
      · cases j with
        | zero => exact Nat.zero_le _
        | succ j => exact Nat.succ_le_succ (hgreatest j (steady_concat_iff.mp hj).2)
      · rw [if_pos hm, hlength, UInt32.ofNat_add]
        rfl
    · refine ⟨0, steady_zero _, fun j hj ↦ ?_, by rw [if_neg hm]; rfl⟩
      cases j with
      | zero => exact Nat.le_refl 0
      | succ j => exact absurd (steady_concat_iff.mp hj).1 hm

/-- For few enough metrics, the number of repetitions can be computed. -/
theorem steady_iff_le_length {k : ℕ} {ms : List Metric} (h : ms.length < UInt32.size) :
    Steady k ms ↔ k ≤ (observeAll {} ms).length.toNat := by
  obtain ⟨n, ⟨⟨hle, hn⟩, hgreatest⟩, hlength⟩ := exists_isGreatest_length ms
  rw [hlength, UInt32.toNat_ofNat_of_lt' (Nat.lt_of_le_of_lt hle h)]
  exact ⟨fun hk ↦ hgreatest ⟨hk.le_length, hk⟩, hn.mono⟩

/-- A metric that stays at zero has been repeated with every run. -/
theorem isGreatest_steady_replicate_zero (n : ℕ) :
    IsGreatest {k | k ≤ (List.replicate n Metric.zero).length ∧
      Steady k (List.replicate n .zero)} n := by
  refine ⟨⟨List.length_replicate.ge, .zero, List.suffix_refl _⟩, ?_⟩
  rintro k ⟨hk, -⟩
  rwa [List.length_replicate] at hk

/-- Whether the last metrics are as many as asked for can be told from the length, if they were not
so before the last one. -/
theorem le_length_observeAll_concat_iff {k : UInt32} {ms : List Metric} (m : Metric)
    (h : k.toNat ≠ 0 → ¬ Steady k.toNat ms) :
    k ≤ (observeAll {} (ms ++ [m])).length ↔ Steady k.toNat (ms ++ [m]) := by
  by_cases hzero : k.toNat = 0
  · rw [UInt32.le_iff_toNat_le, hzero]
    exact iff_of_true (Nat.zero_le _) (steady_zero _)
  obtain ⟨n, ⟨⟨-, hn⟩, hgreatest⟩, hlength⟩ := exists_isGreatest_length (ms ++ [m])
  have hsize := k.toNat_lt_size
  have hle : n ≤ k.toNat := by
    cases n with
    | zero => exact Nat.zero_le _
    | succ n =>
      by_contra hlt
      have hbefore : Steady n ms := (steady_concat_iff.mp hn).2
      exact h hzero (hbefore.mono (Nat.le_of_lt_succ (Nat.not_le.mp hlt)))
  have htoNat : (observeAll {} (ms ++ [m])).length.toNat = n := by
    rw [hlength, UInt32.toNat_ofNat_of_lt' (Nat.lt_of_le_of_lt hle hsize)]
  rw [UInt32.le_iff_toNat_le, htoNat]
  exact ⟨hn.mono, fun hk ↦ hgreatest ⟨hk.le_length, hk⟩⟩

/-- A metric that goes up once and stays. -/
example : (observeAll {} [.single 1, .single 1, .single 1]).length = 2 := rfl

end Interleave.Plateau
