import Interleave.Memo.Offline
import Interleave.Proofs.Memo.EvidenceOrder

/-!
# Refining before and after a merge

Refining takes a queue entry away together with its retry counter, and nothing remembers that it was
there. A later merge may bring the iRoot back from a memo in which it has retries left. So it makes
a difference whether shards are refined before they are merged, and whether a shard is applied once
or again. The difference is in the queue alone, and there at iRoots of one kind: their retries are
used up on one side and not on the other (`Dossier.SpentOnlyIn`). Where the two counters meet, the
greater one wins and the iRoot leaves the queue. Where the greater one was refined away before, it
stays.

In a single dossier, refining does nothing or clears the queue entry, and whether it does the one or
the other is decided on the two sides of a merge separately: a join is *due* for another run if both
sides are (`Dossier.due_join`). A cleared entry is due unless the iRoot was exposed or given up.
From these facts both comparisons are read off by going through which of the two sides are due.
-/

namespace Interleave

namespace Dossier

/-- The iRoot was not exposed and, if failures are respected, not given up. -/
structure Open (d : Dossier) (respectFailed : Bool) : Prop where
  exposed : d.exposed = false
  failed : respectFailed = true → d.failed = false

/-- The iRoot is queued and has no retries left. -/
def Spent (d : Dossier) : Prop := ∃ n, d.queued = some n ∧ 2 ≤ n

/-- The iRoot is queued and has retries left. -/
def Retriable (d : Dossier) : Prop := ∃ n, d.queued = some n ∧ n < 2

/-- Refining has no reason to take the iRoot out of the queue. -/
def Due (d : Dossier) (respectFailed : Bool) : Prop := d.Open respectFailed ∧ ¬d.Spent

/-- The iRoot is open on both sides, and queued on both, with its retries used up in `a` and some
left in `b`. -/
structure SpentOnlyIn (a b : Dossier) (respectFailed : Bool) : Prop where
  open_left : a.Open respectFailed
  open_right : b.Open respectFailed
  spent : a.Spent
  retriable : b.Retriable

/-- What applying a shard makes of a dossier: it is joined with that of the shard and refined. -/
def apply (d shard : Dossier) (respectFailed : Bool) : Dossier :=
  (d.join shard).refine respectFailed

variable {a b d : Dossier} {respectFailed : Bool}

/-! ## Joining -/

theorem join_join_right (a b : Dossier) : (a.join b).join b = a.join b := by
  have hinfo := SortedMap.joinValues_joinValues_right Evidence.join_self Evidence.join_join_right
    a.info b.info
  have hqueued := SortedMap.joinValues_joinValues_right max_count_self max_max_count_right
    a.queued b.queued
  have hfailed : ∀ f g e : Bool, (((f || g) && !e || g) && !e) = ((f || g) && !e) := by decide
  simp only [join, hinfo, hqueued, hfailed, Bool.or_assoc, Bool.or_self]

/-- Two sides may name the iRoot differently; the queue does not look at that. -/
theorem queued_apply_comm (a b : Dossier) (respectFailed : Bool) :
    (a.apply b respectFailed).queued = (b.apply a respectFailed).queued := by
  have hqueued := SortedMap.joinValues_comm max_count_comm a.queued b.queued
  simp only [apply, refine, join, hqueued, Bool.or_comm]

theorem open_join :
    (a.join b).Open respectFailed ↔ a.Open respectFailed ∧ b.Open respectFailed := by
  constructor
  · intro h
    obtain ⟨hea, heb⟩ := Bool.or_eq_false_iff.mp h.exposed
    -- nothing is struck off the given-up ones if neither side is exposed
    have hfailed (hrespect : respectFailed = true) : (a.failed || b.failed) = false := by
      have hjoin := h.failed hrespect
      rwa [join, hea, heb, Bool.or_self, Bool.not_false, Bool.and_true] at hjoin
    exact ⟨⟨hea, fun hr ↦ (Bool.or_eq_false_iff.mp (hfailed hr)).1⟩,
      ⟨heb, fun hr ↦ (Bool.or_eq_false_iff.mp (hfailed hr)).2⟩⟩
  · rintro ⟨ha, hb⟩
    refine ⟨Bool.or_eq_false_iff.mpr ⟨ha.exposed, hb.exposed⟩, fun hrespect ↦ ?_⟩
    rw [join, ha.failed hrespect, hb.failed hrespect]
    rfl

theorem spent_join : (a.join b).Spent ↔ a.Spent ∨ b.Spent := by
  simp only [Spent, join]
  cases a.queued with
  | none => simp
  | some n =>
    cases b.queued with
    | none => simp
    | some k => simp [le_max_count_iff]

theorem due_join : (a.join b).Due respectFailed ↔ a.Due respectFailed ∧ b.Due respectFailed := by
  rw [Due, Due, Due, open_join, spent_join, not_or]
  exact and_and_and_comm

theorem eq_of_queued_eq (hrest : a.unqueue = b.unqueue) (hqueued : a.queued = b.queued) :
    a = b :=
  calc a = { a.unqueue with queued := a.queued } := rfl
    _ = { b.unqueue with queued := b.queued } := by rw [hrest, hqueued]
    _ = b := rfl

theorem unqueue_eq_self (h : d.queued = none) : d.unqueue = d := by
  rw [unqueue, ← h]

theorem queued_unqueue_join (a b : Dossier) : (a.unqueue.join b).queued = b.queued :=
  SortedMap.joinValues_none_left max b.queued

theorem not_spent_unqueue (d : Dossier) : ¬d.unqueue.Spent := fun ⟨_, hn, _⟩ ↦ absurd hn nofun

theorem open_unqueue : d.unqueue.Open respectFailed ↔ d.Open respectFailed :=
  ⟨fun h ↦ ⟨h.exposed, h.failed⟩, fun h ↦ ⟨h.exposed, h.failed⟩⟩

theorem due_unqueue : d.unqueue.Due respectFailed ↔ d.Open respectFailed := by
  rw [Due, open_unqueue]
  exact and_iff_left d.not_spent_unqueue

theorem retriable_iff : d.Retriable ↔ d.queued.isSome = true ∧ ¬d.Spent := by
  simp only [Retriable, Spent]
  cases d.queued <;> simp

/-! ## Refining -/

theorem refine_of_due (h : d.Due respectFailed) : d.refine respectFailed = d := by
  obtain ⟨⟨hexposed, hfailed⟩, hspent⟩ := h
  have hstays : (respectFailed && d.failed) = false := by
    cases respectFailed with
    | false => rfl
    | true => exact hfailed rfl
  have hqueued : (d.refine respectFailed).queued = d.queued := by
    simp only [refine, hexposed, hstays]
    cases hn : d.queued with
    | none => rfl
    | some n =>
      have hlt : n < Memo.retryLimit := UInt32.not_le.mp fun hle ↦ hspent ⟨n, hn, hle⟩
      simp [hlt]
  calc d.refine respectFailed = { d with queued := (d.refine respectFailed).queued } := rfl
    _ = d := by rw [hqueued]

theorem refine_of_not_due (h : ¬d.Due respectFailed) : d.refine respectFailed = d.unqueue := by
  have hqueued : (d.refine respectFailed).queued = none := by
    refine Option.filter_eq_none_iff.mpr fun n hn hstays ↦ h ?_
    rw [Bool.and_eq_true, Bool.and_eq_true, decide_eq_true_iff, Bool.not_eq_true',
      Bool.not_eq_true', Bool.and_eq_false_iff] at hstays
    obtain ⟨⟨hlt, hexposed⟩, hfailed⟩ := hstays
    refine ⟨⟨hexposed, fun hrespect ↦ hfailed.resolve_left (by simp [hrespect])⟩, ?_⟩
    rintro ⟨k, hk, hle⟩
    obtain rfl := Option.some.inj (hn.symm.trans hk)
    exact UInt32.not_le.mpr hlt hle
  calc d.refine respectFailed = { d with queued := (d.refine respectFailed).queued } := rfl
    _ = d.unqueue := by rw [hqueued, unqueue]

/-- An open iRoot is due again once it was taken out of the queue. -/
theorem due_refine : (d.refine respectFailed).Due respectFailed ↔ d.Open respectFailed := by
  by_cases h : d.Due respectFailed
  · rw [refine_of_due h]
    exact iff_of_true h h.1
  · rw [refine_of_not_due h, due_unqueue]

theorem queued_refine_of_not_retriable (h : ¬d.Retriable) :
    (d.refine respectFailed).queued = none := by
  by_cases hdue : d.Due respectFailed
  · rw [refine_of_due hdue, ← Option.not_isSome_iff_eq_none]
    exact fun hsome ↦ h (retriable_iff.mpr ⟨hsome, hdue.2⟩)
  · rw [refine_of_not_due hdue]
    rfl

namespace SpentOnlyIn

theorem due_right (h : a.SpentOnlyIn b respectFailed) : b.Due respectFailed :=
  ⟨h.open_right, (retriable_iff.mp h.retriable).2⟩

theorem refine_left (h : a.SpentOnlyIn b respectFailed) : a.refine respectFailed = a.unqueue :=
  refine_of_not_due fun hdue ↦ hdue.2 h.spent

/-- The greater of the two counters takes the iRoot out of the queue. -/
theorem apply_eq (h : a.SpentOnlyIn b respectFailed) :
    a.apply b respectFailed = (a.join b).unqueue :=
  refine_of_not_due fun hdue ↦ (due_join.mp hdue).1.2 h.spent

theorem queued_apply (h : a.SpentOnlyIn b respectFailed) :
    (a.apply b respectFailed).queued = none := by
  rw [h.apply_eq, unqueue]

/-- With the greater counter refined away before, the other one remains. -/
theorem queued_apply_refine (h : a.SpentOnlyIn b respectFailed) :
    ((a.refine respectFailed).apply (b.refine respectFailed) respectFailed).queued = b.queued := by
  have hjoin : (a.unqueue.join b).Due respectFailed :=
    due_join.mpr ⟨due_unqueue.mpr h.open_left, h.due_right⟩
  rw [h.refine_left, refine_of_due h.due_right, apply, refine_of_due hjoin, queued_unqueue_join]

end SpentOnlyIn

/-! ## Refining both sides before -/

theorem apply_refine_of_not_due (ha : ¬a.Due respectFailed) (h : ¬a.SpentOnlyIn b respectFailed) :
    (a.refine respectFailed).apply (b.refine respectFailed) respectFailed =
      a.apply b respectFailed := by
  have hlate : ¬(a.join b).Due respectFailed := fun hdue ↦ ha (due_join.mp hdue).1
  have hqueued :
      ((a.refine respectFailed).apply (b.refine respectFailed) respectFailed).queued = none := by
    rw [refine_of_not_due ha, apply]
    by_cases hdue : (a.unqueue.join (b.refine respectFailed)).Due respectFailed
    · -- both sides are open, so the left one is spent, and the right one has no retries left either
      obtain ⟨hleft, hright⟩ := due_join.mp hdue
      rw [due_unqueue] at hleft
      rw [due_refine] at hright
      have hspent : a.Spent := by_contra fun hspent ↦ ha ⟨hleft, hspent⟩
      have hb : ¬b.Retriable := fun hb ↦ h ⟨hleft, hright, hspent, hb⟩
      rw [refine_of_due hdue, join, queued_refine_of_not_retriable hb]
      rfl
    · rw [refine_of_not_due hdue]
      rfl
  have hright : a.apply b respectFailed = (a.join b).unqueue := refine_of_not_due hlate
  rw [hright, ← unqueue_eq_self hqueued]
  rfl

/-- Unless exactly one side is spent, it makes no difference if both sides are refined before. -/
theorem apply_refine (h : ¬a.SpentOnlyIn b respectFailed) (h' : ¬b.SpentOnlyIn a respectFailed) :
    (a.refine respectFailed).apply (b.refine respectFailed) respectFailed =
      a.apply b respectFailed := by
  by_cases ha : a.Due respectFailed
  · by_cases hb : b.Due respectFailed
    · rw [refine_of_due ha, refine_of_due hb]
    · -- the queue is that of the other order, and the rest is not touched by refining
      refine eq_of_queued_eq rfl ?_
      rw [queued_apply_comm a, queued_apply_comm (a.refine respectFailed),
        apply_refine_of_not_due hb h']
  · exact apply_refine_of_not_due ha h

theorem queued_apply_refine_iff :
    ((a.refine respectFailed).apply (b.refine respectFailed) respectFailed).queued.isSome = true ∧
        (a.apply b respectFailed).queued = none ↔
      a.SpentOnlyIn b respectFailed ∨ b.SpentOnlyIn a respectFailed := by
  constructor
  · rintro ⟨hsome, hnone⟩
    by_contra hsame
    rw [apply_refine (not_or.mp hsame).1 (not_or.mp hsame).2, hnone] at hsome
    exact Bool.false_ne_true hsome
  · rintro (h | h)
    · rw [h.queued_apply_refine]
      exact ⟨(retriable_iff.mp h.retriable).1, h.queued_apply⟩
    · rw [queued_apply_comm a, queued_apply_comm (a.refine respectFailed), h.queued_apply_refine]
      exact ⟨(retriable_iff.mp h.retriable).1, h.queued_apply⟩

theorem queued_apply_refine_of_queued {n : UInt32}
    (h : (a.apply b respectFailed).queued = some n) :
    ((a.refine respectFailed).apply (b.refine respectFailed) respectFailed).queued = some n := by
  have hqueued : (a.apply b respectFailed).queued ≠ none := by
    rw [h]
    exact nofun
  obtain ⟨hleft, hright⟩ :=
    not_or.mp (mt queued_apply_refine_iff.mpr fun hdiffer ↦ hqueued hdiffer.2)
  rw [apply_refine hleft hright, h]

/-! ## Applying again -/

theorem spentOnlyIn_join :
    (a.join b).SpentOnlyIn b respectFailed ↔ a.SpentOnlyIn b respectFailed := by
  constructor
  · intro h
    have hspent := (spent_join.mp h.spent).resolve_right h.due_right.2
    exact ⟨(open_join.mp h.open_left).1, h.open_right, hspent, h.retriable⟩
  · intro h
    exact ⟨open_join.mpr ⟨h.open_left, h.open_right⟩, h.open_right, spent_join.mpr (.inl h.spent),
      h.retriable⟩

/-- Applying a shard again is refining the join before the shard is joined in once more. -/
theorem apply_apply (h : ¬a.SpentOnlyIn b respectFailed) :
    (a.apply b respectFailed).apply b respectFailed = a.apply b respectFailed := by
  by_cases hb : b.Due respectFailed
  · have hagain := apply_refine (mt spentOnlyIn_join.mp h) fun h' ↦ hb.2 h'.spent
    rwa [refine_of_due hb, apply, apply, join_join_right] at hagain
  · have hfirst : ¬(a.join b).Due respectFailed := fun hdue ↦ hb (due_join.mp hdue).2
    have hagain : ¬((a.join b).unqueue.join b).Due respectFailed :=
      fun hdue ↦ hb (due_join.mp hdue).2
    rw [apply, apply, refine_of_not_due hfirst, refine_of_not_due hagain]
    calc ((a.join b).unqueue.join b).unqueue = ((a.join b).join b).unqueue := rfl
      _ = (a.join b).unqueue := by rw [join_join_right]

/-- Where the counter was refined away, the second time finds the iRoot due. -/
theorem SpentOnlyIn.apply_apply_eq (h : a.SpentOnlyIn b respectFailed) :
    (a.apply b respectFailed).apply b respectFailed = (a.apply b respectFailed).join b := by
  refine refine_of_due (due_join.mpr ⟨due_refine.mpr (open_join.mpr ?_), h.due_right⟩)
  exact ⟨h.open_left, h.open_right⟩

theorem SpentOnlyIn.queued_apply_apply (h : a.SpentOnlyIn b respectFailed) :
    ((a.apply b respectFailed).apply b respectFailed).queued = b.queued := by
  rw [h.apply_apply_eq, h.apply_eq, queued_unqueue_join]

theorem queued_apply_apply_of_queued {n : UInt32} (h : (a.apply b respectFailed).queued = some n) :
    ((a.apply b respectFailed).apply b respectFailed).queued = some n := by
  by_cases hspent : a.SpentOnlyIn b respectFailed
  · exact absurd (hspent.queued_apply.symm.trans h) nofun
  · rw [apply_apply hspent, h]

theorem queued_apply_apply_iff {n : UInt32} :
    ((a.apply b respectFailed).apply b respectFailed).queued = some n ∧
        (a.apply b respectFailed).queued = none ↔
      a.SpentOnlyIn b respectFailed ∧ b.queued = some n := by
  by_cases hspent : a.SpentOnlyIn b respectFailed
  · rw [hspent.queued_apply_apply, and_iff_left hspent.queued_apply, and_iff_right hspent]
  · rw [apply_apply hspent]
    exact iff_of_false (fun ⟨hsome, hnone⟩ ↦ absurd (hsome.symm.trans hnone) nofun)
      fun h ↦ hspent h.1

theorem apply_apply_iff :
    (a.apply b respectFailed).apply b respectFailed = a.apply b respectFailed ↔
      ¬a.SpentOnlyIn b respectFailed := by
  refine ⟨fun heq hspent ↦ ?_, apply_apply⟩
  obtain ⟨n, hn, -⟩ := hspent.retriable
  obtain ⟨hagain, hfirst⟩ := queued_apply_apply_iff.mpr ⟨hspent, hn⟩
  rw [heq, hfirst] at hagain
  exact absurd hagain nofun

theorem unqueue_apply_apply (a b : Dossier) (respectFailed : Bool) :
    ((a.apply b respectFailed).apply b respectFailed).unqueue =
      (a.apply b respectFailed).unqueue :=
  calc ((a.apply b respectFailed).apply b respectFailed).unqueue
    _ = ((a.join b).join b).unqueue := rfl
    _ = (a.join b).unqueue := by rw [join_join_right]
    _ = (a.apply b respectFailed).unqueue := rfl

/-- The third time makes no difference. -/
theorem apply_apply_apply (a b : Dossier) (respectFailed : Bool) :
    ((a.apply b respectFailed).apply b respectFailed).apply b respectFailed =
      (a.apply b respectFailed).apply b respectFailed := by
  by_cases h : a.SpentOnlyIn b respectFailed
  · have htwice := h.apply_apply_eq
    calc ((a.apply b respectFailed).apply b respectFailed).apply b respectFailed
      _ = ((a.apply b respectFailed).join b).apply b respectFailed := by rw [htwice]
      _ = (((a.apply b respectFailed).join b).join b).refine respectFailed := rfl
      _ = ((a.apply b respectFailed).join b).refine respectFailed := by rw [join_join_right]
  · rw [apply_apply h, apply_apply h]

end Dossier

namespace Memo

/-! ## Memos -/

theorem dossier_refine_merge (a b : Memo) (respectFailed : Bool) (id : IRootId) :
    ((a.merge b).refine respectFailed).memo.dossier id =
      (a.dossier id).apply (b.dossier id) respectFailed := by
  rw [dossier_refine, dossier_merge, Dossier.apply]

/-- Two memos that differ in the queue at most. -/
structure AgreeOffQueue (a b : Memo) : Prop where
  info : a.info = b.info
  exposed : a.exposed = b.exposed
  failed : a.failed = b.failed
  predicted : a.predicted = b.predicted
  shadowExposed : a.shadowExposed = b.shadowExposed

theorem AgreeOffQueue.of_dossier {a b : Memo}
    (h : ∀ id, (a.dossier id).unqueue = (b.dossier id).unqueue) : a.AgreeOffQueue b := by
  have heq : a.clearCandidates = b.clearCandidates := ext_dossier h
  exact ⟨congrArg (·.info) heq, congrArg (·.exposed) heq, congrArg (·.failed) heq,
    congrArg (·.predicted) heq, congrArg (·.shadowExposed) heq⟩

/-- **Refining shards before a merge keeps more of the queue.** Evidence and classes come out the
same, and what is queued if the merge is refined is queued, with the same counter, if both sides
were refined before. Queued only then are the iRoots that were exposed on neither side and, if
failures are respected, given up on neither, and whose retries are used up on one of the two sides
and not on the other. -/
theorem refine_before_merge (a b : Memo) (respectFailed : Bool) :
    let late := ((a.merge b).refine respectFailed).memo
    let early := (((a.refine respectFailed).memo.merge
      (b.refine respectFailed).memo).refine respectFailed).memo
    early.AgreeOffQueue late ∧
      (∀ id n, late.candidateRuns? id = some n → early.candidateRuns? id = some n) ∧
      ∀ id, (early.candidateRuns? id).isSome = true ∧ late.candidateRuns? id = none ↔
        (a.dossier id).SpentOnlyIn (b.dossier id) respectFailed ∨
          (b.dossier id).SpentOnlyIn (a.dossier id) respectFailed := by
  intro late early
  have hlate (id : IRootId) :
      late.dossier id = (a.dossier id).apply (b.dossier id) respectFailed :=
    dossier_refine_merge a b respectFailed id
  have hearly (id : IRootId) : early.dossier id =
      ((a.dossier id).refine respectFailed).apply ((b.dossier id).refine respectFailed)
        respectFailed := by
    rw [dossier_refine_merge, dossier_refine, dossier_refine]
  have hrest (id : IRootId) : (early.dossier id).unqueue = (late.dossier id).unqueue := by
    rw [hearly, hlate]
    rfl
  have hkept (id : IRootId) (n : UInt32) (hn : (late.dossier id).queued = some n) :
      (early.dossier id).queued = some n := by
    rw [hlate] at hn
    rw [hearly, Dossier.queued_apply_refine_of_queued hn]
  have hdiffer (id : IRootId) :
      (early.dossier id).queued.isSome = true ∧ (late.dossier id).queued = none ↔
        (a.dossier id).SpentOnlyIn (b.dossier id) respectFailed ∨
          (b.dossier id).SpentOnlyIn (a.dossier id) respectFailed := by
    rw [hearly, hlate, Dossier.queued_apply_refine_iff]
  exact ⟨.of_dossier hrest, hkept, hdiffer⟩

/-- **Applying a shard again.** A second run leaves evidence and classes as they are, and every
queue entry. It queues again, with the counter of the shard, the iRoots that are open in memo and
shard and have their retries used up in the memo and some left in the shard, and no others. So it
changes nothing exactly if there are none of these. A third run never changes anything. -/
theorem apply_again (catalog : Catalog) (chosen : UInt64) (path : String) (respectFailed : Bool)
    (shard m : Memo) :
    let applied := (MemoChange.apply path respectFailed).applyTo catalog chosen shard
    (applied (applied m)).AgreeOffQueue (applied m) ∧
      (∀ id n, (applied m).candidateRuns? id = some n →
        (applied (applied m)).candidateRuns? id = some n) ∧
      (∀ id n, (applied (applied m)).candidateRuns? id = some n ∧
          (applied m).candidateRuns? id = none ↔
        (m.dossier id).SpentOnlyIn (shard.dossier id) respectFailed ∧
          shard.candidateRuns? id = some n) ∧
      (applied (applied m) = applied m ↔
        ∀ id, ¬(m.dossier id).SpentOnlyIn (shard.dossier id) respectFailed) ∧
      applied (applied (applied m)) = applied (applied m) := by
  intro applied
  have hdossier (x : Memo) (id : IRootId) :
      (applied x).dossier id = (x.dossier id).apply (shard.dossier id) respectFailed :=
    dossier_refine_merge x shard respectFailed id
  have honce (id : IRootId) := hdossier m id
  have htwice (id : IRootId) : (applied (applied m)).dossier id =
      ((m.dossier id).apply (shard.dossier id) respectFailed).apply (shard.dossier id)
        respectFailed := by
    rw [hdossier, honce]
  have hrest (id : IRootId) :
      ((applied (applied m)).dossier id).unqueue = ((applied m).dossier id).unqueue := by
    rw [htwice, honce, Dossier.unqueue_apply_apply]
  have hkept (id : IRootId) (n : UInt32) (hn : ((applied m).dossier id).queued = some n) :
      ((applied (applied m)).dossier id).queued = some n := by
    rw [honce] at hn
    rw [htwice, Dossier.queued_apply_apply_of_queued hn]
  have hback (id : IRootId) (n : UInt32) :
      ((applied (applied m)).dossier id).queued = some n ∧
          ((applied m).dossier id).queued = none ↔
        (m.dossier id).SpentOnlyIn (shard.dossier id) respectFailed ∧
          (shard.dossier id).queued = some n := by
    rw [htwice, honce, Dossier.queued_apply_apply_iff]
  have hsame : applied (applied m) = applied m ↔
      ∀ id, ¬(m.dossier id).SpentOnlyIn (shard.dossier id) respectFailed := by
    refine ⟨fun heq id ↦ ?_, fun h ↦ ext_dossier fun id ↦ ?_⟩
    · rw [← Dossier.apply_apply_iff, ← htwice, ← honce, heq]
    · rw [htwice, honce, Dossier.apply_apply (h id)]
  have hthird : applied (applied (applied m)) = applied (applied m) :=
    ext_dossier fun id ↦ by rw [hdossier, htwice, Dossier.apply_apply_apply]
  exact ⟨.of_dossier hrest, hkept, hback, hsame, hthird⟩

/-- A candidate that two runs have failed to expose is a new one in the shard. The first time the
shard takes it out of the queue, the second time it brings it back. -/
theorem apply_again_requeues :
    let catalog : Catalog :=
      { events := .ofList [(⟨1⟩, ⟨⟨1⟩, ⟨1⟩, .memRead⟩), (⟨2⟩, ⟨⟨2⟩, ⟨1⟩, .memWrite⟩)]
        iroots := .ofList [(⟨1⟩, ⟨⟨1⟩, .idiom1, [⟨1⟩, ⟨2⟩]⟩)] }
    let stored : Snapshot := { info := [⟨⟨1⟩, 2, none⟩], candidates := [⟨⟨1⟩, 2⟩] }
    let storedShard : Snapshot := { info := [⟨⟨1⟩, 0, none⟩], candidates := [⟨⟨1⟩, 0⟩] }
    let m := stored.unchecked
    let shard := storedShard.unchecked
    let applied := (MemoChange.apply "shard.json" false).applyTo catalog 0 shard
    ofSnapshot stored catalog = .ok m ∧ ofSnapshot storedShard catalog = .ok shard ∧
      m.WellFormed ∧ shard.WellFormed ∧ applied (applied m) ≠ applied m := by
  intro catalog stored storedShard m shard applied
  have hm : ofSnapshot stored catalog = .ok m :=
    ofSnapshot_eq_ok_iff.mpr ⟨by decide, by decide, rfl⟩
  have hshard : ofSnapshot storedShard catalog = .ok shard :=
    ofSnapshot_eq_ok_iff.mpr ⟨by decide, by decide, rfl⟩
  exact ⟨hm, hshard, wellFormed_ofSnapshot hm, wellFormed_ofSnapshot hshard, by decide⟩

end Memo

end Interleave
