import Interleave.Data.SortedMap.Lemmas
import Interleave.Memo.Basic
import Mathlib.Order.Lattice

/-!
# A memo, one iRoot at a time

A memo is six finite maps and sets, but no operation on memos looks across iRoots, apart from the
draw of a sample. So a memo is known by its *dossiers*: what the six of them hold about each iRoot
(`Memo.ext_dossier`), and an operation by what it does to one dossier. What is proved of a single
dossier, where only finitely many flags have to be told apart, then holds of the memo.

A dossier says which iRoot it was asked for. The evidence in it has a name of its own, and nothing
in the type of memos makes the two agree.

Recordings concern one iRoot and leave the dossiers of all others alone. They are gathered in a
type of *reports*, so that histories of recordings are lists.
-/

namespace Interleave

/-! ## Counters -/

/-- Below the greatest word a counter counts as a number. -/
theorem toNat_nextCount {n : UInt32} (h : n.toNat + 1 < UInt32.size) :
    (nextCount n).toNat = n.toNat + 1 := by
  rw [nextCount, UInt32.toNat_add, UInt32.toNat_one]
  exact Nat.mod_eq_of_lt h

theorem le_nextCount {n : UInt32} (h : n.toNat + 1 < UInt32.size) : n ≤ nextCount n := by
  rw [UInt32.le_iff_toNat_le, toNat_nextCount h]
  omega

theorem zero_le_count (n : UInt32) : 0 ≤ n := UInt32.le_iff_toNat_le.mpr (Nat.zero_le _)

theorem le_max_count_iff {a b c : UInt32} : c ≤ max a b ↔ c ≤ a ∨ c ≤ b := by
  simp only [UInt32.le_iff_toNat_le, UInt32.toNat_max]
  omega

theorem max_count_comm (n k : UInt32) : max n k = max k n := by
  rw [← UInt32.toNat_inj, UInt32.toNat_max, UInt32.toNat_max, max_comm]

theorem max_count_self (n : UInt32) : max n n = n := by
  rw [← UInt32.toNat_inj, UInt32.toNat_max, max_self]

theorem max_max_count_right (n k : UInt32) : max (max n k) k = max n k := by
  rw [← UInt32.toNat_inj, UInt32.toNat_max, UInt32.toNat_max, max_assoc, max_self]

/-! ## Reports -/

/-- What can be recorded about an iRoot. -/
inductive Report where
  | observed
  | async (isAsync : Bool)
  | predicted
  | shadowExposed
  | queued
  | success
  | failure
  deriving DecidableEq

/-- Whether a targeted run is reported. -/
@[simp] def Report.isRun : Report → Bool
  | success | failure => true
  | observed | async _ | predicted | shadowExposed | queued => false

/-- Records a report about an iRoot. -/
def Memo.record (m : Memo) (id : IRootId) : Report → Memo
  | .observed => m.observe id
  | .async isAsync => m.setAsync id isAsync
  | .predicted => m.predict id
  | .shadowExposed => m.markShadowExposed id
  | .queued => m.addCandidate id
  | .success => m.recordSuccess id
  | .failure => m.recordFailure id

/-! ## Dossiers -/

/-- All that a memo holds about one iRoot. -/
structure Dossier where
  iroot : IRootId
  info : Option Evidence := none
  exposed : Bool := false
  failed : Bool := false
  predicted : Bool := false
  shadowExposed : Bool := false
  /-- The targeted runs while queued, if it is. -/
  queued : Option UInt32 := none
  deriving DecidableEq

namespace Dossier

/-- The evidence, or what there is once the iRoot is observed. -/
def evidence (d : Dossier) : Evidence := d.info.getD { iroot := d.iroot }

/-- The targeted runs over all campaigns; none if there is no evidence. -/
def runs (d : Dossier) : UInt32 := d.evidence.runs

def updateInfo (d : Dossier) (f : Evidence → Evidence) : Dossier :=
  { d with info := some (f d.evidence) }

def countRun (d : Dossier) : Dossier :=
  { d.updateInfo fun e ↦ { e with runs := nextCount e.runs } with
    queued := some (nextCount (d.queued.getD 0)) }

def record (d : Dossier) : Report → Dossier
  | .observed => d.updateInfo fun e ↦ e
  | .async isAsync => d.updateInfo fun e ↦ { e with isAsync := some isAsync }
  | .predicted => { d.updateInfo fun e ↦ e with predicted := true }
  | .shadowExposed => { d.updateInfo fun e ↦ e with shadowExposed := true }
  | .queued => { d.updateInfo fun e ↦ e with queued := some (d.queued.getD 0) }
  | .success => { d.countRun with failed := false, exposed := true }
  | .failure =>
    { d.countRun with
      failed := d.failed || (decide (Memo.failureLimit ≤ d.countRun.runs) && !d.exposed) }

def join (a b : Dossier) : Dossier where
  iroot := a.iroot
  info := SortedMap.joinValues Evidence.join a.info b.info
  exposed := a.exposed || b.exposed
  failed := (a.failed || b.failed) && !(a.exposed || b.exposed)
  predicted := a.predicted || b.predicted
  shadowExposed := a.shadowExposed || b.shadowExposed
  queued := SortedMap.joinValues max a.queued b.queued

def refine (d : Dossier) (respectFailed : Bool) : Dossier :=
  { d with queued := d.queued.filter fun n ↦
      n < Memo.retryLimit && !d.exposed && !(respectFailed && d.failed) }

def close (d : Dossier) : Dossier := { d with failed := d.failed || (d.info.isSome && !d.exposed) }

def unpredict (d : Dossier) : Dossier := { d with predicted := false }

def unqueue (d : Dossier) : Dossier := { d with queued := none }

end Dossier

namespace Memo

def dossier (m : Memo) (id : IRootId) : Dossier where
  iroot := id
  info := m.info? id
  exposed := m.exposed.contains id
  failed := m.failed.contains id
  predicted := m.predicted.contains id
  shadowExposed := m.shadowExposed.contains id
  queued := m.candidateRuns? id

/-- Two memos with the same dossiers are the same. -/
theorem ext_dossier {a b : Memo} (h : ∀ id, a.dossier id = b.dossier id) : a = b := by
  have hinfo : a.info = b.info := SortedMap.ext_get? fun id ↦ congrArg Dossier.info (h id)
  have hexposed : a.exposed = b.exposed :=
    SortedSet.ext_contains fun id ↦ congrArg Dossier.exposed (h id)
  have hfailed : a.failed = b.failed :=
    SortedSet.ext_contains fun id ↦ congrArg Dossier.failed (h id)
  have hpredicted : a.predicted = b.predicted :=
    SortedSet.ext_contains fun id ↦ congrArg Dossier.predicted (h id)
  have hshadow : a.shadowExposed = b.shadowExposed :=
    SortedSet.ext_contains fun id ↦ congrArg Dossier.shadowExposed (h id)
  have hqueued : a.candidates = b.candidates :=
    SortedMap.ext_get? fun id ↦ congrArg Dossier.queued (h id)
  cases a
  cases b
  simp_all

@[simp] theorem dossier_new (id : IRootId) : ({} : Memo).dossier id = { iroot := id } := rfl

/-! ## Recording -/

theorem dossier_updateInfo_self (m : Memo) (id : IRootId) (f : Evidence → Evidence) :
    (m.updateInfo id f).dossier id = (m.dossier id).updateInfo f := by
  simp [dossier, updateInfo, info?, Dossier.updateInfo, Dossier.evidence, candidateRuns?]

theorem dossier_updateInfo_of_ne (m : Memo) {id id' : IRootId} (h : id' ≠ id)
    (f : Evidence → Evidence) : (m.updateInfo id f).dossier id' = m.dossier id' := by
  simp [dossier, updateInfo, info?, candidateRuns?, SortedMap.get?_alter_of_ne _ h]

theorem dossier_countRun_self (m : Memo) (id : IRootId) :
    (m.countRun id).dossier id = (m.dossier id).countRun := by
  simp [dossier, countRun, updateInfo, info?, candidateRuns?, Dossier.countRun,
    Dossier.updateInfo, Dossier.evidence]

theorem dossier_countRun_of_ne (m : Memo) {id id' : IRootId} (h : id' ≠ id) :
    (m.countRun id).dossier id' = m.dossier id' := by
  simp [dossier, countRun, updateInfo, info?, candidateRuns?, SortedMap.get?_alter_of_ne _ h]

/-- The runs that decide whether a failure is the last one are those of the new dossier. -/
theorem runs_dossier (m : Memo) (id : IRootId) :
    (m.dossier id).runs = ((m.info? id).getD { iroot := id }).runs := rfl

theorem dossier_recordSuccess_self (m : Memo) (id : IRootId) :
    (m.recordSuccess id).dossier id = (m.dossier id).record .success := by
  rw [Dossier.record, ← dossier_countRun_self]
  simp [dossier, recordSuccess, info?, candidateRuns?]

theorem dossier_recordFailure_self (m : Memo) (id : IRootId) :
    (m.recordFailure id).dossier id = (m.dossier id).record .failure := by
  rw [Dossier.record, ← dossier_countRun_self, recordFailure]
  simp only [runs_dossier]
  split
  · next h => simp_all [dossier, info?, candidateRuns?, countRun, updateInfo]
  · next h => simp_all [dossier, info?, candidateRuns?, countRun, updateInfo]

/-- A report changes the dossier of its iRoot. -/
theorem dossier_record_self (m : Memo) (id : IRootId) (r : Report) :
    (m.record id r).dossier id = (m.dossier id).record r := by
  cases r with
  | observed => exact dossier_updateInfo_self m id _
  | async isAsync => exact dossier_updateInfo_self m id _
  | predicted =>
    rw [Dossier.record, ← dossier_updateInfo_self]
    simp [dossier, record, predict, observe, info?, candidateRuns?]
  | shadowExposed =>
    rw [Dossier.record, ← dossier_updateInfo_self]
    simp [dossier, record, markShadowExposed, observe, info?, candidateRuns?]
  | queued =>
    rw [Dossier.record, ← dossier_updateInfo_self]
    simp [dossier, record, addCandidate, observe, updateInfo, info?, candidateRuns?,
      SortedMap.insertIfNew]
  | success => exact dossier_recordSuccess_self m id
  | failure => exact dossier_recordFailure_self m id

/-- A report leaves all other dossiers alone. -/
theorem dossier_record_of_ne (m : Memo) {id id' : IRootId} (h : id' ≠ id) (r : Report) :
    (m.record id r).dossier id' = m.dossier id' := by
  cases r with
  | observed => exact dossier_updateInfo_of_ne m h _
  | async isAsync => exact dossier_updateInfo_of_ne m h _
  | predicted =>
    rw [← dossier_updateInfo_of_ne m h fun e ↦ e]
    simp [dossier, record, predict, observe, info?, candidateRuns?,
      SortedSet.contains_add_of_ne _ h]
  | shadowExposed =>
    rw [← dossier_updateInfo_of_ne m h fun e ↦ e]
    simp [dossier, record, markShadowExposed, observe, info?, candidateRuns?,
      SortedSet.contains_add_of_ne _ h]
  | queued =>
    rw [← dossier_updateInfo_of_ne m h fun e ↦ e]
    simp [dossier, record, addCandidate, observe, updateInfo, info?, candidateRuns?,
      SortedMap.insertIfNew, SortedMap.get?_alter_of_ne _ h]
  | success =>
    rw [← dossier_countRun_of_ne m h]
    simp [dossier, record, recordSuccess, info?, candidateRuns?,
      SortedSet.contains_add_of_ne _ h, SortedSet.contains_erase_of_ne _ h]
  | failure =>
    rw [← dossier_countRun_of_ne m h, record, recordFailure]
    split
    · simp [dossier, info?, candidateRuns?, SortedSet.contains_add_of_ne _ h]
    · rfl

/-! ## Tidying -/

theorem dossier_refine (m : Memo) (respectFailed : Bool) (id : IRootId) :
    (m.refine respectFailed).memo.dossier id = (m.dossier id).refine respectFailed := by
  simp only [dossier, refine, Dossier.refine, info?, candidateRuns?, SortedMap.get?_filter]
  rfl

theorem dossier_closeUnexposed (m : Memo) (id : IRootId) :
    m.closeUnexposed.dossier id = (m.dossier id).close := by
  simp only [dossier, closeUnexposed, Dossier.close, info?, candidateRuns?,
    SortedSet.contains_union, SortedSet.contains_ofKeys,
    SortedMap.contains_filter m.info fun id ↦ !m.exposed.contains id]
  rfl

theorem dossier_clearPredicted (m : Memo) (id : IRootId) :
    m.clearPredicted.dossier id = (m.dossier id).unpredict := rfl

theorem dossier_clearCandidates (m : Memo) (id : IRootId) :
    m.clearCandidates.dossier id = (m.dossier id).unqueue := rfl

/-- A sample drops some of the candidates and changes nothing else, whatever shuffles them. -/
theorem dossier_sample {ρ : Type} (shuffle : Shuffle ρ) (m : Memo) (catalog : Catalog)
    (idiom : Idiom) (num : Nat) (r : ρ) (id : IRootId) :
    (m.sample shuffle catalog idiom num r).1.memo.dossier id = m.dossier id ∨
      (m.sample shuffle catalog idiom num r).1.memo.dossier id = (m.dossier id).unqueue := by
  rw [sample]
  split
  · exact .inl rfl
  · next hmore =>
    simp only [dossier, info?, candidateRuns?, SortedMap.get?_filter, Dossier.unqueue]
    by_cases hkept : id ∈ ((shuffle (m.candidatesFor catalog idiom).keys r).1.take
        ((m.candidatesFor catalog idiom).keys.length - num))
    · refine .inr ?_
      cases m.candidates.get? id <;> simp [Option.filter, hkept]
    · refine .inl ?_
      cases m.candidates.get? id <;> simp [Option.filter, hkept]

/-! ## Merging -/

theorem dossier_merge (a b : Memo) (id : IRootId) :
    (a.merge b).dossier id = (a.dossier id).join (b.dossier id) := by
  simp only [dossier, merge, Dossier.join, info?, candidateRuns?, SortedMap.get?_mergeWith,
    SortedSet.contains_union, SortedSet.contains_diff]

end Memo

end Interleave
