import Interleave.Proofs.Memo.RefinedMerge

/-!
# What refining and closing come to

Refining asks of each candidate alone whether it is due for another run. An iRoot that is due when
failures are respected is due when they are not. So to refine a memo in several ways is to refine it
once, with failures respected if one of them respects them, and what is removed on the way adds up.

Closing gives up every iRoot that has evidence and was not exposed. In a well-formed memo nothing
else is given up then, whatever was before (`Dossier.failed_close`), so what is given up in a closed
memo is known from its evidence and the exposed iRoots. A merge joins both of these. That is why it
does not matter whether shards are closed before they are merged or after: an iRoot that only one of
them closes because the other has exposed it is struck off by the merge.
-/

namespace Interleave

/-! ## What a filter takes out -/

section

variable {κ α : Type} [Ord κ] [Std.LawfulEqOrd κ]

/-- What is filtered out are the keys that are missing afterwards. -/
theorem SortedMap.length_filter_keys_add_size (m : SortedMap κ α) (p : κ → α → Bool) :
    (m.keys.filter fun k ↦ !(m.filter p).contains k).length + (m.filter p).size = m.size := by
  have hmissing : ∀ e ∈ m.entries, (!(m.filter p).contains e.1) = !p e.1 e.2 := by
    rintro ⟨k, v⟩ he
    rw [contains, get?_filter, mem_entries_iff.mp he, Option.filter_some]
    cases p k v <;> rfl
  calc (m.keys.filter fun k ↦ !(m.filter p).contains k).length + (m.filter p).size
    _ = (m.entries.filter fun e ↦ !(m.filter p).contains e.1).length + (m.filter p).size := by
      rw [keys, List.filter_map, List.length_map]
      rfl
    _ = (m.entries.filter fun e ↦ !p e.1 e.2).length + (m.filter p).size := by
      rw [List.filter_congr hmissing]
    _ = m.size := by
      rw [Nat.add_comm]
      exact (List.length_eq_length_filter_add fun e : κ × α ↦ p e.1 e.2).symm

end

namespace Dossier

variable {a b d : Dossier} {f g respectFailed : Bool}

/-! ## Refining -/

theorem open_or : d.Open (f || g) ↔ d.Open f ∧ d.Open g := by
  constructor
  · rintro ⟨hexposed, hfailed⟩
    exact ⟨⟨hexposed, fun hf ↦ hfailed (by rw [hf, Bool.true_or])⟩,
      ⟨hexposed, fun hg ↦ hfailed (by rw [hg, Bool.or_true])⟩⟩
  · rintro ⟨⟨hexposed, hf⟩, ⟨-, hg⟩⟩
    exact ⟨hexposed, fun hor ↦ (Bool.or_eq_true_iff.mp hor).elim hf hg⟩

theorem due_or : d.Due (f || g) ↔ d.Due f ∧ d.Due g := by
  rw [Due, Due, Due, open_or]
  exact and_and_right

/-- Refining again takes out what is not due for one of the two reasons. -/
theorem refine_refine (d : Dossier) (f g : Bool) :
    (d.refine f).refine g = d.refine (f || g) := by
  by_cases hf : d.Due f
  · rw [refine_of_due hf]
    by_cases hg : d.Due g
    · rw [refine_of_due hg, refine_of_due (due_or.mpr ⟨hf, hg⟩)]
    · rw [refine_of_not_due hg, refine_of_not_due fun h ↦ hg (due_or.mp h).2]
  · -- an entry that was taken out stays out
    have hor : ¬d.Due (f || g) := fun h ↦ hf (due_or.mp h).1
    rw [refine_of_not_due hf, refine_of_not_due hor]
    rfl

theorem queued_refine_eq_some_iff {n : UInt32} :
    (d.refine respectFailed).queued = some n ↔
      d.queued = some n ∧ n < 2 ∧ d.Open respectFailed := by
  by_cases hdue : d.Due respectFailed
  · rw [refine_of_due hdue]
    exact ⟨fun hn ↦ ⟨hn, UInt32.not_le.mp fun hle ↦ hdue.2 ⟨n, hn, hle⟩, hdue.1⟩, And.left⟩
  · rw [refine_of_not_due hdue]
    refine iff_of_false (Option.some_ne_none n).symm ?_
    rintro ⟨hn, hlt, hopen⟩
    refine hdue ⟨hopen, ?_⟩
    rintro ⟨k, hk, hle⟩
    obtain rfl := Option.some.inj (hn.symm.trans hk)
    exact UInt32.not_le.mpr hlt hle

/-! ## Closing -/

/-- What was given up before has evidence and was not exposed, so closing would give it up
anyway. -/
theorem failed_close (h : d.WellFormed) : d.close.failed = (d.info.isSome && !d.exposed) := by
  rw [close]
  cases hfailed : d.failed with
  | false => rfl
  | true =>
    have hinfo : d.info.isSome = true := h.hasInfo .failed hfailed
    have hexposed : d.exposed = false := by
      rw [Bool.eq_false_iff]
      exact fun he ↦ Bool.false_ne_true ((h.disjoint he).symm.trans hfailed)
    rw [hinfo, hexposed]
    rfl

theorem close_close (d : Dossier) : d.close.close = d.close := by
  simp only [close, Bool.or_assoc, Bool.or_self]

theorem close_join (ha : a.WellFormed) (hb : b.WellFormed) (hiroot : b.iroot = a.iroot) :
    (a.join b).close = a.close.join b.close := by
  have hfailed : (a.join b).close.failed = (a.close.join b.close).failed :=
    calc (a.join b).close.failed
      _ = ((a.info.isSome || b.info.isSome) && !(a.exposed || b.exposed)) := by
        rw [failed_close (ha.join hb hiroot), join, SortedMap.isSome_joinValues]
      _ = ((a.info.isSome && !a.exposed || b.info.isSome && !b.exposed) &&
          !(a.exposed || b.exposed)) := by
        cases a.exposed <;> cases b.exposed <;> simp
      _ = ((a.close.failed || b.close.failed) && !(a.exposed || b.exposed)) := by
        rw [failed_close ha, failed_close hb]
  calc (a.join b).close
    _ = { a.join b with failed := (a.join b).close.failed } := rfl
    _ = { a.join b with failed := (a.close.join b.close).failed } := by rw [hfailed]
    _ = a.close.join b.close := rfl

/-- A candidate has evidence, so it is exposed or given up once its memo is closed. -/
theorem queued_refine_close (h : d.WellFormed) : (d.close.refine true).queued = none := by
  refine Option.eq_none_iff_forall_ne_some.mpr fun n hn ↦ ?_
  obtain ⟨hqueued, -, hexposed, hfailed⟩ := queued_refine_eq_some_iff.mp hn
  have hinfo : d.info.isSome = true := h.hasInfo .candidates (Option.isSome_of_eq_some hqueued)
  have hexposed : d.exposed = false := hexposed
  have hgivenUp : d.close.failed = true := by
    rw [failed_close h, hinfo, hexposed]
    rfl
  exact Bool.false_ne_true ((hfailed rfl).symm.trans hgivenUp)

end Dossier

namespace Memo

variable {a b : Memo}

/-! ## Refined memos -/

theorem refine_refine (m : Memo) (f g : Bool) :
    ((m.refine f).memo.refine g).memo = (m.refine (f || g)).memo :=
  ext_dossier fun id ↦ by
    rw [dossier_refine, dossier_refine, dossier_refine, Dossier.refine_refine]

/-- There are never more candidates left than there were. -/
theorem size_refine_add_removed (m : Memo) (respectFailed : Bool) :
    (m.refine respectFailed).memo.candidates.size + (m.refine respectFailed).removed =
      m.candidates.size :=
  Nat.add_sub_of_le (List.length_filter_le _ _)

theorem removed_refine (m : Memo) (respectFailed : Bool) :
    (m.refine respectFailed).removed = (m.candidates.keys.filter fun id ↦
      !(m.refine respectFailed).memo.candidates.contains id).length :=
  Nat.sub_eq_of_eq_add (SortedMap.length_filter_keys_add_size m.candidates _).symm

theorem removed_refine_refine (m : Memo) (f g : Bool) :
    (m.refine f).removed + ((m.refine f).memo.refine g).removed = (m.refine (f || g)).removed := by
  have hfirst := m.size_refine_add_removed f
  have hsecond := (m.refine f).memo.size_refine_add_removed g
  have hboth := m.size_refine_add_removed (f || g)
  rw [refine_refine] at hsecond
  omega

/-- **Refining.** The candidates that stay are those with fewer than two runs that were not exposed
and, if failures are respected, not given up; their counters and all else stay as they are. What is
counted as removed are the candidates that are gone. Refining again in any way is refining once,
with failures respected if they are the first time or the second, and the removed candidates add up:
so the same refinement removes nothing the second time, and if failures are respected once it does
not matter whether a refinement that does not respect them comes before or after. -/
theorem refine_keeps_due (m : Memo) (respectFailed : Bool) :
    let refined := m.refine respectFailed
    (∀ id n, refined.memo.candidateRuns? id = some n ↔
        m.candidateRuns? id = some n ∧ n < 2 ∧ m.exposed.contains id = false ∧
          (respectFailed = true → m.failed.contains id = false)) ∧
      refined.memo = { m with candidates := refined.memo.candidates } ∧
      refined.removed =
        (m.candidates.keys.filter fun id ↦ !refined.memo.candidates.contains id).length ∧
      refined.memo.candidates.size + refined.removed = m.candidates.size ∧
      (refined.memo.refine respectFailed).memo = refined.memo ∧
      (refined.memo.refine respectFailed).removed = 0 ∧
      ∀ again, (refined.memo.refine again).memo = (m.refine (respectFailed || again)).memo ∧
        refined.removed + (refined.memo.refine again).removed =
          (m.refine (respectFailed || again)).removed := by
  intro refined
  have hkept (id : IRootId) (n : UInt32) : (refined.memo.dossier id).queued = some n ↔
      (m.dossier id).queued = some n ∧ n < 2 ∧ (m.dossier id).Open respectFailed := by
    rw [dossier_refine, Dossier.queued_refine_eq_some_iff]
  have hremoved := m.removed_refine_refine respectFailed respectFailed
  rw [Bool.or_self] at hremoved
  refine ⟨fun id n ↦ (hkept id n).trans ?_, rfl, m.removed_refine respectFailed,
    m.size_refine_add_removed respectFailed, ?_, Nat.add_eq_left.mp hremoved,
    fun again ↦ ⟨m.refine_refine respectFailed again, m.removed_refine_refine respectFailed again⟩⟩
  · exact and_congr_right' (and_congr_right' ⟨fun h ↦ ⟨h.exposed, h.failed⟩, fun h ↦ ⟨h.1, h.2⟩⟩)
  · rw [refine_refine, Bool.or_self]

/-! ## Closed memos -/

theorem closeUnexposed_closeUnexposed (m : Memo) :
    m.closeUnexposed.closeUnexposed = m.closeUnexposed :=
  ext_dossier fun id ↦ by
    rw [dossier_closeUnexposed, dossier_closeUnexposed, Dossier.close_close]

theorem closeUnexposed_merge (ha : a.WellFormed) (hb : b.WellFormed) :
    (a.merge b).closeUnexposed = a.closeUnexposed.merge b.closeUnexposed := by
  rw [wellFormed_iff] at ha hb
  refine ext_dossier fun id ↦ ?_
  rw [dossier_closeUnexposed, dossier_merge, dossier_merge, dossier_closeUnexposed,
    dossier_closeUnexposed, Dossier.close_join (ha id) (hb id) rfl]

theorem candidates_refine_closeUnexposed (ha : a.WellFormed) :
    (a.closeUnexposed.refine true).memo.candidates = ∅ := by
  refine SortedMap.ext_get? fun id ↦ ?_
  have hqueued : ((a.closeUnexposed.refine true).memo.dossier id).queued = none := by
    rw [dossier_refine, dossier_closeUnexposed]
    exact Dossier.queued_refine_close (wellFormed_iff.mp ha id)
  exact hqueued

theorem hasCandidate_of_candidates_eq_empty {m : Memo} (h : m.candidates = ∅) (catalog : Catalog)
    (target : Option Idiom) : m.hasCandidate catalog target = false := by
  cases target <;> rw [hasCandidate, h] <;> rfl

/-- **Closing.** It changes what is given up and nothing else. Afterwards every iRoot with evidence
is either exposed or given up, and no other iRoot is the one or the other. To close again changes
nothing, to close two memos and merge them is to merge them and close the result, and if a closed
memo is refined with failures respected, the queue is empty. -/
theorem closeUnexposed_partitions (ha : a.WellFormed) (hb : b.WellFormed) :
    let closed := a.closeUnexposed
    let refined := (closed.refine true).memo
    closed = { a with failed := closed.failed } ∧
      (∀ id, (closed.info? id).isSome = true →
        closed.failed.contains id = !closed.exposed.contains id) ∧
      (∀ id, closed.info? id = none →
        closed.exposed.contains id = false ∧ closed.failed.contains id = false) ∧
      closed.closeUnexposed = closed ∧
      (a.merge b).closeUnexposed = closed.merge b.closeUnexposed ∧
      refined.candidates = ∅ ∧
      ∀ catalog target, refined.hasCandidate catalog target = false := by
  intro closed refined
  have hclosed : closed.WellFormed := ha.edit .close
  have hfailed (id : IRootId) :
      closed.failed.contains id = ((closed.info? id).isSome && !closed.exposed.contains id) := by
    have hdossier : (closed.dossier id).failed =
        ((a.info? id).isSome && !a.exposed.contains id) := by
      rw [dossier_closeUnexposed]
      exact Dossier.failed_close (wellFormed_iff.mp ha id)
    exact hdossier
  have hempty : refined.candidates = ∅ := candidates_refine_closeUnexposed ha
  refine ⟨rfl, fun id hinfo ↦ ?_, fun id hinfo ↦ ⟨?_, ?_⟩, a.closeUnexposed_closeUnexposed,
    closeUnexposed_merge ha hb, hempty, hasCandidate_of_candidates_eq_empty hempty⟩
  · rw [hfailed, hinfo, Bool.true_and]
  · rw [Bool.eq_false_iff]
    intro hexposed
    have hsome := hclosed.hasInfo .exposed id hexposed
    rw [hinfo] at hsome
    exact Bool.false_ne_true hsome
  · rw [hfailed, hinfo]
    rfl

/-- What one shard closes the other has exposed, and what it has queued it gives up. -/
theorem closeUnexposed_partitions_exposed_in_shard :
    let a : Memo := [.record ⟨1⟩ .queued, .record ⟨2⟩ .failure].foldl Memo.edit {}
    let b : Memo := [.record ⟨1⟩ .success, .record ⟨3⟩ .queued].foldl Memo.edit {}
    a.WellFormed ∧ b.WellFormed ∧ a.closeUnexposed.failed.contains ⟨1⟩ = true ∧
      (a.merge b).closeUnexposed = a.closeUnexposed.merge b.closeUnexposed ∧
      (a.merge b).closeUnexposed.failed.contains ⟨1⟩ = false ∧
      (a.merge b).closeUnexposed.failed.contains ⟨3⟩ = true ∧
      a.candidates ≠ ∅ ∧ (a.closeUnexposed.refine true).memo.hasCandidate {} none = false := by
  intro a b
  have ha : a.WellFormed :=
    Reachable.wellFormed (Grown.edits (.first (.inl rfl)) fun _ _ _ ↦ trivial)
  have hb : b.WellFormed :=
    Reachable.wellFormed (Grown.edits (.first (.inl rfl)) fun _ _ _ ↦ trivial)
  obtain ⟨-, -, -, -, hmerge, -, hempty⟩ := closeUnexposed_partitions ha hb
  exact ⟨ha, hb, by decide, hmerge, by decide, by decide, by decide, hempty {} none⟩

end Memo

end Interleave
