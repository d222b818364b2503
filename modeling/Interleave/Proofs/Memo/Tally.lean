import Interleave.Proofs.Memo.GivenUp
import Mathlib.Data.List.Induction

/-!
# What recordings amount to

A memo is fed by recordings, reports about single iRoots. What a list of them makes of a dossier
can be told from a few figures: how many targeted runs are among the reports on the iRoot, which
other reports there are, and which flag was reported last (`Dossier.tally`). The order of the
reports goes into the last of these only. So the recordings of an engine may come in any order, as
long as the flags reported of one iRoot keep theirs (`Memo.recordAll_perm`).

That a failure looks at the runs so far, and at whether the iRoot was exposed so far, does not speak
against it. Without a success among the reports every run is a failure, so who is given up at one of
them is told from the number of runs: one of the counts on the way was at the limit. A success,
whether it comes before or after, takes back what the failures did. None of this asks if the counter
starts again on the way.
-/

namespace Interleave

/-! ## Counting on -/

/-- A counter after some more counts. -/
def countOn (n : UInt32) : ℕ → UInt32
  | 0 => n
  | k + 1 => nextCount (countOn n k)

@[simp] theorem countOn_zero (n : UInt32) : countOn n 0 = n := rfl

@[simp] theorem countOn_succ (n : UInt32) (k : ℕ) :
    countOn n (k + 1) = nextCount (countOn n k) := rfl

theorem toNat_countOn {n : UInt32} {k : ℕ} (h : n.toNat + k < UInt32.size) :
    (countOn n k).toNat = n.toNat + k := by
  induction k with
  | zero => rfl
  | succ k ih =>
    have hk := ih (Nat.lt_of_succ_lt h)
    rw [countOn_succ, toNat_nextCount (by rwa [hk]), hk]
    rfl

theorem countOn_le_countOn {n : UInt32} {j k : ℕ} (hjk : j ≤ k) (h : n.toNat + k < UInt32.size) :
    countOn n j ≤ countOn n k := by
  have hj : n.toNat + j < UInt32.size := Nat.lt_of_le_of_lt (Nat.add_le_add_left hjk _) h
  rw [UInt32.le_iff_toNat_le, toNat_countOn hj, toNat_countOn h]
  exact Nat.add_le_add_left hjk _

/-- Whether one of the next counts is at the limit after which an iRoot is given up. -/
def reachesLimit (n : UInt32) (k : ℕ) : Bool :=
  (List.range k).any fun j ↦ Memo.failureLimit ≤ countOn n (j + 1)

@[simp] theorem reachesLimit_zero (n : UInt32) : reachesLimit n 0 = false := rfl

theorem reachesLimit_succ (n : UInt32) (k : ℕ) :
    reachesLimit n (k + 1) =
      (reachesLimit n k || decide (Memo.failureLimit ≤ nextCount (countOn n k))) := by
  rw [reachesLimit, List.range_succ, List.any_append, List.any_cons, List.any_nil, Bool.or_false]
  rfl

theorem reachesLimit_of_le {n : UInt32} {j k : ℕ} (hjk : j ≤ k) (h : reachesLimit n j = true) :
    reachesLimit n k = true := by
  obtain ⟨i, hi, hlimit⟩ := List.any_eq_true.mp h
  have hik : i < k := (List.mem_range.mp hi).trans_le hjk
  exact List.any_eq_true.mpr ⟨i, List.mem_range.mpr hik, hlimit⟩

/-! ## Reports -/

namespace Report

/-- The flag that is reported, if the report is about asynchronous events. -/
@[simp] def flag? : Report → Option Bool
  | async isAsync => some isAsync
  | observed | predicted | shadowExposed | queued | success | failure => none

/-- Whether the report queues an iRoot that was not queued. -/
@[simp] def queues : Report → Bool
  | queued | success | failure => true
  | observed | async _ | predicted | shadowExposed => false

theorem queues_of_isRun {r : Report} (h : r.isRun = true) : r.queues = true := by
  cases r with
  | success | failure => rfl
  | observed | async | predicted | shadowExposed | queued => exact absurd h Bool.false_ne_true

/-- The number of targeted runs in a list of reports. -/
def runs (rs : List Report) : ℕ := rs.countP isRun

/-- The flags in a list of reports, in order. -/
def flags (rs : List Report) : List Bool := rs.filterMap flag?

@[simp] theorem runs_nil : runs [] = 0 := rfl

@[simp] theorem runs_append (rs rs' : List Report) : runs (rs ++ rs') = runs rs + runs rs' :=
  List.countP_append

@[simp] theorem runs_singleton (r : Report) : runs [r] = if r.isRun then 1 else 0 :=
  List.countP_singleton

@[simp] theorem flags_append (rs rs' : List Report) :
    flags (rs ++ rs') = flags rs ++ flags rs' := List.filterMap_append

@[simp] theorem flags_singleton (r : Report) : flags [r] = r.flag?.toList := by
  cases r <;> rfl

end Report

namespace Dossier

/-- What reports make of a dossier. -/
def tally (d : Dossier) (rs : List Report) : Dossier where
  iroot := d.iroot
  info :=
    if rs.isEmpty then d.info
    else some {
      iroot := d.evidence.iroot
      runs := countOn d.runs (Report.runs rs)
      isAsync := (Report.flags rs).getLast?.or d.evidence.isAsync }
  exposed := d.exposed || rs.contains .success
  failed := !rs.contains .success &&
    (d.failed || (!d.exposed && reachesLimit d.runs (Report.runs rs)))
  predicted := d.predicted || rs.contains .predicted
  shadowExposed := d.shadowExposed || rs.contains .shadowExposed
  queued :=
    if rs.any Report.queues then some (countOn (d.queued.getD 0) (Report.runs rs)) else d.queued

/-! ## One report after the other -/

theorem evidence_tally (d : Dossier) (rs : List Report) :
    (d.tally rs).evidence =
      { iroot := d.evidence.iroot
        runs := countOn d.runs (Report.runs rs)
        isAsync := (Report.flags rs).getLast?.or d.evidence.isAsync } := by
  cases rs with
  | nil => rfl
  | cons r rs => rfl

theorem runs_tally (d : Dossier) (rs : List Report) :
    (d.tally rs).runs = countOn d.runs (Report.runs rs) := by
  rw [runs, evidence_tally]

theorem queued_tally (d : Dossier) (rs : List Report) :
    (d.tally rs).queued =
      if rs.any Report.queues then some (countOn (d.queued.getD 0) (Report.runs rs))
      else d.queued := rfl

theorem getD_queued_tally (d : Dossier) (rs : List Report) :
    (d.tally rs).queued.getD 0 = countOn (d.queued.getD 0) (Report.runs rs) := by
  rw [queued_tally]
  split
  · rfl
  · next hnone =>
    -- where no report queues the iRoot none is of a run
    have hruns : Report.runs rs = 0 := List.countP_eq_zero.mpr fun r hr hrun ↦
      hnone (List.any_eq_true.mpr ⟨r, hr, Report.queues_of_isRun hrun⟩)
    rw [hruns, countOn_zero]

/-- A failure gives up whoever has enough runs by then and was not exposed. -/
theorem failed_tally_failure (d : Dossier) (rs : List Report) :
    (d.tally (rs ++ [.failure])).failed =
      ((d.tally rs).failed ||
        (decide (Memo.failureLimit ≤ nextCount (d.tally rs).runs) && !(d.tally rs).exposed)) := by
  have hsuccess : (rs ++ [Report.failure]).contains .success = rs.contains .success := by simp
  have hruns : Report.runs (rs ++ [.failure]) = Report.runs rs + 1 := by simp
  have hbool : ∀ success given exposed before now : Bool,
      (!success && (given || (!exposed && (before || now)))) =
        ((!success && (given || (!exposed && before))) || (now && !(exposed || success))) := by
    decide
  rw [runs_tally, tally, hsuccess, hruns, reachesLimit_succ]
  exact hbool _ _ _ _ _

theorem tally_concat (d : Dossier) (rs : List Report) (r : Report) :
    d.tally (rs ++ [r]) = (d.tally rs).record r := by
  cases r with
  | observed | async | predicted | shadowExposed =>
    rw [record, updateInfo, evidence_tally]
    simp [tally]
  | queued =>
    rw [record, updateInfo, evidence_tally, getD_queued_tally]
    simp [tally]
  | success =>
    rw [record, countRun, updateInfo, evidence_tally, getD_queued_tally]
    simp [tally]
  | failure =>
    rw [record, runs_countRun, ← failed_tally_failure, countRun, updateInfo, evidence_tally,
      getD_queued_tally]
    simp [tally]

theorem foldl_record (d : Dossier) (rs : List Report) : rs.foldl record d = d.tally rs := by
  induction rs using List.reverseRecOn with
  | nil => simp [tally]
  | append_singleton rs r ih =>
    rw [List.foldl_append, ih, tally_concat, List.foldl_cons, List.foldl_nil]

/-- The order of the reports matters to the flags alone. -/
theorem tally_eq_of_perm (d : Dossier) {rs rs' : List Report} (hperm : rs.Perm rs')
    (hflags : Report.flags rs = Report.flags rs') : d.tally rs = d.tally rs' := by
  have hruns : Report.runs rs = Report.runs rs' := hperm.countP_eq _
  have hcontains (r : Report) : rs.contains r = rs'.contains r := hperm.contains_eq
  have hqueues : rs.any Report.queues = rs'.any Report.queues := hperm.any_eq
  have hempty : rs.isEmpty = rs'.isEmpty := hperm.isEmpty_eq
  simp only [tally, hruns, hflags, hcontains, hqueues, hempty]

end Dossier

/-! ## Recordings -/

/-- A report with the iRoot that it is about. -/
abbrev Recording : Type := IRootId × Report

/-- The reports about one iRoot in a list of recordings. -/
def reportsOn (id : IRootId) (rs : List Recording) : List Report :=
  rs.filterMap fun r ↦ if r.1 = id then some r.2 else none

theorem reportsOn_cons_self (r : Recording) (rs : List Recording) :
    reportsOn r.1 (r :: rs) = r.2 :: reportsOn r.1 rs := by
  simp [reportsOn]

theorem reportsOn_cons_of_ne {id : IRootId} {r : Recording} (h : r.1 ≠ id) (rs : List Recording) :
    reportsOn id (r :: rs) = reportsOn id rs := by
  simp [reportsOn, h]

theorem reportsOn_append (id : IRootId) (rs rs' : List Recording) :
    reportsOn id (rs ++ rs') = reportsOn id rs ++ reportsOn id rs' := List.filterMap_append

namespace Memo

/-- The memo after some recordings. -/
def recordAll (m : Memo) (rs : List Recording) : Memo :=
  rs.foldl (fun m r ↦ m.record r.1 r.2) m

theorem dossier_recordAll (m : Memo) (rs : List Recording) (id : IRootId) :
    (m.recordAll rs).dossier id = (m.dossier id).tally (reportsOn id rs) := by
  rw [← Dossier.foldl_record]
  induction rs generalizing m with
  | nil => rfl
  | cons r rs ih =>
    rw [recordAll, List.foldl_cons, ← recordAll, ih]
    by_cases h : r.1 = id
    · rw [← h, dossier_record_self, reportsOn_cons_self, List.foldl_cons]
    · rw [dossier_record_of_ne m (Ne.symm h), reportsOn_cons_of_ne h]

/-- **The order of recordings does not matter.** Two lists of the same recordings make the same memo
of a memo, as long as the flags reported of each iRoot come in the same order. -/
theorem recordAll_perm (m : Memo) {rs rs' : List Recording} (hperm : rs.Perm rs')
    (hflags : ∀ id, Report.flags (reportsOn id rs) = Report.flags (reportsOn id rs')) :
    m.recordAll rs = m.recordAll rs' := by
  refine ext_dossier fun id ↦ ?_
  rw [dossier_recordAll, dossier_recordAll]
  exact Dossier.tally_eq_of_perm _ (hperm.filterMap _) (hflags id)

/-- The last failure that an iRoot is allowed and its first success change places, among flags of
two iRoots. -/
theorem recordAll_perm_limit :
    let m := ({} : Memo).recordAll (List.replicate 5 (⟨1⟩, .failure))
    let rs : List Recording := [(⟨1⟩, .failure), (⟨1⟩, .async true), (⟨2⟩, .async true),
      (⟨1⟩, .success), (⟨2⟩, .async false)]
    let rs' : List Recording := [(⟨2⟩, .async true), (⟨1⟩, .success), (⟨1⟩, .async true),
      (⟨2⟩, .async false), (⟨1⟩, .failure)]
    (m.recordAll (rs.take 1)).failed.contains ⟨1⟩ = true ∧ rs.Perm rs' ∧
      (∀ id, Report.flags (reportsOn id rs) = Report.flags (reportsOn id rs')) ∧
      m.recordAll rs = m.recordAll rs' := by
  intro m rs rs'
  have hperm : rs.Perm rs' := by decide
  have hflags (id : IRootId) :
      Report.flags (reportsOn id rs) = Report.flags (reportsOn id rs') := by
    by_cases h₁ : (⟨1⟩ : IRootId) = id
    · subst h₁
      decide
    · by_cases h₂ : (⟨2⟩ : IRootId) = id
      · subst h₂
        decide
      · simp [rs, rs', reportsOn, h₁, h₂]
  exact ⟨by decide, hperm, hflags, recordAll_perm m hperm hflags⟩

end Memo

end Interleave
