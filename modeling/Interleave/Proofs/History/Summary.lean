import Interleave.Proofs.Memo.Views
import Mathlib.Data.Set.Card

/-!
# What the summary of a history counts

A history is summed up twice: by runs, and by targets. The runs of an idiom are divided by their
result, and each run has one idiom, that of its target. The targets are counted without repetition,
all of them and those exposed at least once; those never exposed are only counted as the difference
of the two. This is their number because the exposed targets are among the targets, so the
difference of the sizes is the size of the difference.

All of it is read off the runs of an idiom, which are the logged entries whose target has this idiom
in the catalog (`History.of_ofSnapshot`). Only these runs count, and not their order.
-/

namespace Interleave

section

variable {ε α β : Type} {f : α → Except ε β} {g : β → α}

/-- What is loaded from a list one by one still has the list in it, if each item has. -/
theorem map_of_mapM_eq_ok (hg : ∀ a b, f a = .ok b → g b = a) {l : List α} {bs : List β}
    (h : l.mapM f = .ok bs) : bs.map g = l := by
  induction l generalizing bs with
  | nil =>
    obtain rfl := Except.ok.inj h
    rfl
  | cons a l ih =>
    rw [List.mapM_cons] at h
    obtain ⟨b, hb, h⟩ := bind_eq_ok.mp h
    obtain ⟨rest, hrest, ⟨⟩⟩ := bind_eq_ok.mp h
    rw [List.map_cons, hg a b hb, ih hrest]

end

namespace SortedSet

variable {κ : Type} [Ord κ] [Std.TransOrd κ] [Std.LawfulEqOrd κ] {s t : SortedSet κ}

omit [Std.TransOrd κ] in
/-- The size of a set is the number of its members. -/
theorem coe_size_eq_encard (s : SortedSet κ) :
    (s.size : ℕ∞) = {k | s.contains k = true}.encard := by
  classical
  have hkeys : {k | s.contains k = true} = ↑s.keys.toFinset := by
    ext k
    rw [Set.mem_ofPred_eq, Finset.mem_coe, List.mem_toFinset]
    exact SortedMap.mem_keys_iff.symm
  have hnodup : s.keys.Nodup := SortedMap.nodup_keys s.ascending
  rw [hkeys, Set.encard_coe_eq_coe_finsetCard, List.toFinset_card_of_nodup hnodup,
    SortedMap.length_keys]

/-- What a set has beyond a part of it. -/
theorem size_add_size_diff (h : ∀ k, s.contains k = true → t.contains k = true) :
    s.size + (diff t s).size = t.size := by
  have hunion : union s t = t := by
    refine ext_contains fun k ↦ ?_
    rw [contains_union, Bool.eq_iff_iff, Bool.or_eq_true]
    exact ⟨fun hk ↦ hk.elim (h k) id, .inr⟩
  rw [← size_union, hunion]

end SortedSet

namespace History

variable {s : Snapshot} {catalog : Catalog} {history : History} {l l' : List HistoryEntry}
  {id : IRootId} {i : Idiom}

/-! ## The runs of an idiom -/

theorem mapM_of_ofSnapshot (h : ofSnapshot s catalog = .ok history) :
    s.entries.mapM (resolve catalog) = .ok history.entries := by
  rw [ofSnapshot] at h
  cases hload : s.entries.mapM (resolve catalog) with
  | error e =>
    rw [hload] at h
    contradiction
  | ok entries =>
    rw [hload] at h
    obtain rfl := Except.ok.inj h
    rfl

theorem resolve_eq_ok {e : HistoryEntry} {r : HistoryEntry × Idiom}
    (h : resolve catalog e = .ok r) : r.1 = e := by
  rw [resolve] at h
  split at h
  · obtain rfl := Except.ok.inj h
    rfl
  · contradiction

theorem map_fst_of_ofSnapshot (h : ofSnapshot s catalog = .ok history) :
    history.entries.map (·.1) = s.entries :=
  map_of_mapM_eq_ok (fun _ _ ↦ resolve_eq_ok) (mapM_of_ofSnapshot h)

theorem size_of_ofSnapshot (h : ofSnapshot s catalog = .ok history) :
    history.size = s.entries.length := by
  rw [size, ← map_fst_of_ofSnapshot h, List.length_map]

/-- The runs of an idiom are the entries whose target has it in the catalog. -/
theorem of_ofSnapshot (h : ofSnapshot s catalog = .ok history) (i : Idiom) :
    history.of i = s.entries.filter fun e ↦ catalog.idiomOf? e.iroot == some i := by
  have hidiom : ∀ e ∈ history.entries,
      (e.2 == i) = (catalog.idiomOf? e.1.iroot == some i) := by
    intro ⟨e, idiom⟩ he
    rw [idiomOf?_of_ofSnapshot h he]
    rfl
  rw [of, List.filter_congr hidiom, ← map_fst_of_ofSnapshot h, List.filter_map]
  rfl

theorem exists_idiomOf?_of_mem (h : ofSnapshot s catalog = .ok history) {e : HistoryEntry}
    (he : e ∈ s.entries) : ∃ i, catalog.idiomOf? e.iroot = some i := by
  rw [← map_fst_of_ofSnapshot h, List.mem_map] at he
  obtain ⟨r, hr, rfl⟩ := he
  exact ⟨r.2, idiomOf?_of_ofSnapshot h hr⟩

/-- Each run counts for one idiom. -/
theorem sum_length_of (h : ofSnapshot s catalog = .ok history) :
    (PerIdiom.sum fun i ↦ (history.of i).length) = history.size := by
  have hknown : ∀ id ∈ s.entries.map (·.iroot), ∃ i, catalog.idiomOf? id = some i := by
    intro id hid
    obtain ⟨e, he, rfl⟩ := List.mem_map.mp hid
    exact exists_idiomOf?_of_mem h he
  rw [size_of_ofSnapshot h, ← List.length_map (·.iroot), Catalog.length_eq_sum_of_known hknown]
  congr 1
  funext i
  rw [of_ofSnapshot h, List.filter_map, List.length_map]
  rfl

/-! ## Results -/

/-- Each run has exposed its target, has not, or has no result. -/
theorem length_eq_of_results (l : List HistoryEntry) :
    (l.filter fun e ↦ e.success == some true).length +
        (l.filter fun e ↦ e.success == some false).length +
        (l.filter fun e ↦ e.success == none).length = l.length := by
  induction l with
  | nil => rfl
  | cons e l ih =>
    obtain ⟨id, seed, success⟩ := e
    rcases success with _ | _ | _
    all_goals
      simp only [List.filter_cons, List.length_cons, reduceCtorEq, beq_iff_eq, Option.some.injEq,
        Bool.true_eq_false, Bool.false_eq_true, if_true, if_false] at ih ⊢
      omega

/-! ## Targets -/

theorem contains_targets_iff : (targets l).contains id = true ↔ ∃ e ∈ l, e.iroot = id := by
  rw [targets, SortedSet.contains_ofList_iff, List.mem_map]

theorem contains_targets_withResult_iff :
    (targets (history.withResult i true)).contains id = true ↔
      ∃ e ∈ history.of i, e.iroot = id ∧ e.success = some true := by
  simp only [contains_targets_iff, withResult, List.mem_filter, beq_iff_eq]
  constructor
  · rintro ⟨e, ⟨he, hsuccess⟩, hid⟩
    exact ⟨e, he, hid, hsuccess⟩
  · rintro ⟨e, he, hid, hsuccess⟩
    exact ⟨e, ⟨he, hsuccess⟩, hid⟩

theorem size_targets_le (l : List HistoryEntry) : (targets l).size ≤ l.length := by
  have hlength : (l.map (·.iroot)).length = l.length := List.length_map _
  rw [targets, SortedSet.size_ofList, ← hlength]
  exact (List.dedup_sublist _).length_le

/-- Exposed targets are targets. -/
theorem successTargetCount_add_size_diff (history : History) (i : Idiom) :
    history.successTargetCount i + (SortedSet.diff (targets (history.of i))
      (targets (history.withResult i true))).size = history.targetCount i := by
  refine SortedSet.size_add_size_diff fun id hid ↦ ?_
  obtain ⟨e, he, heid, -⟩ := contains_targets_withResult_iff.mp hid
  exact contains_targets_iff.mpr ⟨e, he, heid⟩

theorem coe_successTargetCount (history : History) (i : Idiom) :
    (history.successTargetCount i : ℕ∞) =
      {id | ∃ e ∈ history.of i, e.iroot = id ∧ e.success = some true}.encard := by
  rw [successTargetCount, SortedSet.coe_size_eq_encard]
  simp only [contains_targets_withResult_iff]

theorem coe_failIRoots_summary (history : History) (i : Idiom) :
    ((history.summary i).failIRoots : ℕ∞) =
      {id | (∃ e ∈ history.of i, e.iroot = id) ∧
        ¬ ∃ e ∈ history.of i, e.iroot = id ∧ e.success = some true}.encard := by
  have hsize : (history.summary i).failIRoots = (SortedSet.diff (targets (history.of i))
      (targets (history.withResult i true))).size :=
    Nat.sub_eq_of_eq_add' (successTargetCount_add_size_diff history i).symm
  rw [hsize, SortedSet.coe_size_eq_encard]
  congr 1
  ext id
  rw [Set.mem_ofPred_eq, Set.mem_ofPred_eq, SortedSet.contains_diff, Bool.and_eq_true,
    Bool.not_eq_true', ← Bool.not_eq_true, contains_targets_iff, contains_targets_withResult_iff]

/-! ## Order -/

theorem targets_perm (h : l.Perm l') : targets l = targets l' := SortedSet.ofList_perm (h.map _)

/-- The order of the runs does not count. -/
theorem summary_congr {history' : History} (h : ∀ i, (history.of i).Perm (history'.of i)) :
    history.summary = history'.summary := by
  funext i
  have hresult (b : Bool) : (history.withResult i b).Perm (history'.withResult i b) :=
    (h i).filter _
  rw [summary, summary, successCount, successCount, failCount, failCount, targetCount, targetCount,
    successTargetCount, successTargetCount, (hresult true).length_eq, (hresult false).length_eq,
    targets_perm (h i), targets_perm (hresult true)]

theorem exists_ofSnapshot_perm (h : ofSnapshot s catalog = .ok history)
    {entries : List HistoryEntry} (hperm : entries.Perm s.entries) :
    ∃ history', ofSnapshot ⟨entries⟩ catalog = .ok history' ∧
      history'.summary = history.summary := by
  obtain ⟨resolved, hresolved⟩ : ∃ resolved, entries.mapM (resolve catalog) = .ok resolved := by
    refine exists_mapM_eq_ok fun e he ↦ ?_
    obtain ⟨i, hi⟩ := exists_idiomOf?_of_mem h (hperm.mem_iff.mp he)
    exact ⟨(e, i), by rw [resolve, hi]⟩
  have hload : ofSnapshot ⟨entries⟩ catalog = .ok ⟨resolved⟩ := by
    rw [ofSnapshot, hresolved]
    rfl
  refine ⟨⟨resolved⟩, hload, summary_congr fun i ↦ ?_⟩
  rw [of_ofSnapshot hload, of_ofSnapshot h]
  exact hperm.filter _

/-- **The summary of a history.** Of a history that was loaded against a catalog the runs of the
five idioms add up to all runs. For each idiom the runs that have exposed their target, those that
have not and those without a result are all its runs; its exposed targets are counted once each, are
no more than its targets and no more than the runs that exposed them; and what is left of its
targets is the number of those that no run has exposed. The same entries in any other order load as
well and have the same summary. -/
theorem summary_counts (h : ofSnapshot s catalog = .ok history) :
    (PerIdiom.sum fun i ↦ (history.of i).length) = history.size ∧
      (∀ i,
        let runs := history.of i
        let counts := history.summary i
        let Exposed := fun id ↦ ∃ e ∈ runs, e.iroot = id ∧ e.success = some true
        runs = s.entries.filter (fun e ↦ catalog.idiomOf? e.iroot == some i) ∧
          counts.success = (runs.filter fun e ↦ e.success == some true).length ∧
          counts.fail = (runs.filter fun e ↦ e.success == some false).length ∧
          counts.success + counts.fail + (runs.filter fun e ↦ e.success == none).length =
            runs.length ∧
          (counts.successIRoots : ℕ∞) = {id | Exposed id}.encard ∧
          history.successTargetCount i ≤ history.targetCount i ∧
          (counts.failIRoots : ℕ∞) = {id | (∃ e ∈ runs, e.iroot = id) ∧ ¬ Exposed id}.encard ∧
          counts.successIRoots ≤ counts.success) ∧
      ∀ entries, entries.Perm s.entries → ∃ history',
        ofSnapshot ⟨entries⟩ catalog = .ok history' ∧ history'.summary = history.summary := by
  refine ⟨sum_length_of h, fun i ↦ ?_, fun entries hperm ↦ exists_ofSnapshot_perm h hperm⟩
  exact ⟨of_ofSnapshot h i, rfl, rfl, length_eq_of_results _, coe_successTargetCount history i,
    Nat.le.intro (successTargetCount_add_size_diff history i), coe_failIRoots_summary history i,
    size_targets_le _⟩

/-- One target is exposed twice and missed once, another only missed; a third run of the idiom and
one of another idiom have no result. -/
theorem summary_counts_repeated :
    let catalog : Catalog :=
      { iroots := .ofList [(⟨1⟩, ⟨⟨1⟩, .idiom2, []⟩), (⟨2⟩, ⟨⟨2⟩, .idiom2, []⟩),
          (⟨3⟩, ⟨⟨3⟩, .idiom5, []⟩)] }
    let s : Snapshot :=
      { entries := [⟨⟨1⟩, 7, some true⟩, ⟨⟨2⟩, 8, some false⟩, ⟨⟨1⟩, 9, some false⟩, ⟨⟨3⟩, 1, none⟩,
          ⟨⟨1⟩, 7, some true⟩, ⟨⟨2⟩, 5, none⟩] }
    let history : History :=
      { entries := s.entries.zip [.idiom2, .idiom2, .idiom2, .idiom5, .idiom2, .idiom2] }
    ofSnapshot s catalog = .ok history ∧ history.summary .idiom2 = ⟨2, 2, 1, 1⟩ ∧
      (PerIdiom.sum fun i ↦ (history.of i).length) = 6 ∧
      {id | (∃ e ∈ history.of .idiom2, e.iroot = id) ∧
        ¬ ∃ e ∈ history.of .idiom2, e.iroot = id ∧ e.success = some true}.encard = 1 ∧
      ∃ history', ofSnapshot ⟨s.entries.reverse⟩ catalog = .ok history' ∧
        history'.summary .idiom2 = ⟨2, 2, 1, 1⟩ := by
  intro catalog s history
  have hload : ofSnapshot s catalog = .ok history := by decide +kernel
  have hsummary : history.summary .idiom2 = ⟨2, 2, 1, 1⟩ := by decide +kernel
  obtain ⟨hsum, hidioms, horder⟩ := summary_counts hload
  obtain ⟨-, -, -, -, -, -, hmissed, -⟩ := hidioms .idiom2
  obtain ⟨history', hload', hsummary'⟩ := horder s.entries.reverse s.entries.reverse_perm
  rw [hsummary] at hmissed
  exact ⟨hload, hsummary, hsum, hmissed.symm, history', hload', by rw [hsummary', hsummary]⟩

end History

end Interleave
