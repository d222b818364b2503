import Interleave.Proofs.Memo.WellFormed

/-!
# Who is given up

The set of given-up iRoots is kept up to date one recording at a time: a failure may add to it, a
success takes out of it, a merge joins two of them and takes out what either side exposed. What it
amounts to is a law of counters and exposures alone: given up is who has had as many targeted runs
as the limit and was not exposed in any of them. It holds of all memos that grow out of new ones,
are never closed and count no run on a full counter: closing gives up whatever is left, loading
takes the set as it is listed, and a full counter starts again below the limit.

The law alone is not kept by a merge or a success. What is kept with it is that exposure and retries
have been counted: an exposed iRoot has had a run, and no retry counter exceeds the runs. So if the
runs fit their counter, the retries fit theirs.
-/

namespace Interleave

/-! ## Accounts -/

namespace Dossier

/-- The account of one iRoot: the law of giving up, and what carries it through all edits. -/
structure Accounted (d : Dossier) : Prop where
  failed_iff : d.failed = true ↔ Memo.failureLimit ≤ d.runs ∧ d.exposed = false
  exposed : d.exposed = true → 1 ≤ d.runs
  queued : ∀ n, d.queued = some n → n ≤ d.runs

/-- One more run fits the counter. -/
def Fits (d : Dossier) : Prop := d.runs.toNat + 1 < UInt32.size

theorem runs_countRun (d : Dossier) : d.countRun.runs = nextCount d.runs := rfl

/-- The runs do not depend on the name that an observation would give. -/
theorem runs_eq (d : Dossier) : d.runs = (d.info.map (·.runs)).getD 0 := by
  rw [runs, evidence]
  cases d.info <;> rfl

/-- The runs of a join are the greater of the two. -/
theorem le_runs_join_iff {a b : Dossier} {n : UInt32} :
    n ≤ (a.join b).runs ↔ n ≤ a.runs ∨ n ≤ b.runs := by
  simp only [runs_eq, join]
  cases a.info with
  | none =>
    rw [SortedMap.joinValues_none_left]
    exact (or_iff_right_of_imp fun h ↦ UInt32.le_trans h (zero_le_count _)).symm
  | some e =>
    cases b.info with
    | none => exact (or_iff_left_of_imp fun h ↦ UInt32.le_trans h (zero_le_count _)).symm
    | some e' => exact le_max_count_iff

namespace Accounted

theorem new (id : IRootId) : ({ iroot := id } : Dossier).Accounted where
  failed_iff := iff_of_false Bool.false_ne_true fun h ↦
    absurd h.1 (by decide : ¬Memo.failureLimit ≤ 0)
  exposed h := absurd h Bool.false_ne_true
  queued n h := absurd h.symm (Option.some_ne_none n)

/-- The queue may lose an iRoot or let it in with a counter that is covered by its runs. -/
theorem of_queued {d d' : Dossier} (h : d.Accounted) (hruns : d'.runs = d.runs)
    (hexposed : d'.exposed = d.exposed) (hfailed : d'.failed = d.failed)
    (hqueued : ∀ n, d'.queued = some n → n ≤ d.runs) : d'.Accounted where
  failed_iff := by
    rw [hfailed, hruns, hexposed]
    exact h.failed_iff
  exposed := by
    rw [hexposed, hruns]
    exact h.exposed
  queued := by
    rw [hruns]
    exact hqueued

/-- A run that fits the counter is counted, and the count covers the retry that it is. -/
theorem countRun {d : Dossier} (h : d.Accounted) (hfits : d.Fits) :
    d.countRun.runs.toNat = d.runs.toNat + 1 ∧
      ∀ n, d.countRun.queued = some n → n ≤ d.countRun.runs := by
  have hruns : d.countRun.runs.toNat = d.runs.toNat + 1 := toNat_nextCount hfits
  refine ⟨hruns, fun n hn ↦ ?_⟩
  obtain rfl : nextCount (d.queued.getD 0) = n := Option.some.inj hn
  have hle : (d.queued.getD 0).toNat ≤ d.runs.toNat := by
    cases hq : d.queued with
    | none => exact Nat.zero_le _
    | some k => exact UInt32.le_iff_toNat_le.mp (h.queued k hq)
  rw [UInt32.le_iff_toNat_le, hruns,
    toNat_nextCount (Nat.lt_of_le_of_lt (Nat.succ_le_succ hle) hfits)]
  exact Nat.succ_le_succ hle

theorem one_le_countRun {d : Dossier} (h : d.Accounted) (hfits : d.Fits) : 1 ≤ d.countRun.runs := by
  rw [UInt32.le_iff_toNat_le, (h.countRun hfits).1]
  exact Nat.le_add_left 1 _

theorem success {d : Dossier} (h : d.Accounted) (hfits : d.Fits) :
    (d.record .success).Accounted where
  failed_iff :=
    ⟨fun hf ↦ absurd hf Bool.false_ne_true, fun ⟨_, he⟩ ↦ absurd he.symm Bool.false_ne_true⟩
  exposed _ := h.one_le_countRun hfits
  queued := (h.countRun hfits).2

theorem failure {d : Dossier} (h : d.Accounted) (hfits : d.Fits) :
    (d.record .failure).Accounted where
  failed_iff := by
    have hruns : (d.record .failure).runs = d.countRun.runs := rfl
    have hfailed : (d.record .failure).failed = true ↔
        d.failed = true ∨ Memo.failureLimit ≤ d.countRun.runs ∧ d.exposed = false := by
      simp [record]
    have hexposed : (d.record .failure).exposed = d.exposed := rfl
    rw [hruns, hfailed, hexposed, h.failed_iff]
    -- who was given up before has had enough runs before, hence has enough now
    apply or_iff_right_of_imp
    rintro ⟨hlimit, he⟩
    exact ⟨UInt32.le_trans hlimit (le_nextCount hfits), he⟩
  exposed _ := h.one_le_countRun hfits
  queued := (h.countRun hfits).2

theorem record {d : Dossier} (h : d.Accounted) (r : Report) (hfits : r.isRun = true → d.Fits) :
    (d.record r).Accounted := by
  cases r with
  | observed | async | predicted | shadowExposed => exact h.of_queued rfl rfl rfl h.queued
  | queued =>
    refine h.of_queued rfl rfl rfl fun n hn ↦ ?_
    obtain rfl : d.queued.getD 0 = n := Option.some.inj hn
    cases hq : d.queued with
    | none => exact zero_le_count _
    | some k => exact h.queued k hq
  | success => exact h.success (hfits rfl)
  | failure => exact h.failure (hfits rfl)

theorem edited {e : Edit} {d d' : Dossier} (h : d.Accounted) (hclose : e ≠ .close)
    (hfits : ∀ r, e = .record d.iroot r → r.isRun = true → d.Fits) (he : Edited e d d') :
    d'.Accounted := by
  cases he with
  | other | kept => exact h
  | record => exact h.record _ (hfits _ rfl)
  | refine =>
    refine h.of_queued rfl rfl rfl fun n hn ↦ h.queued n ?_
    exact (Option.filter_eq_some_iff.mp hn).1
  | close => exact absurd rfl hclose
  | unpredict => exact h.of_queued rfl rfl rfl h.queued
  | unqueue | dropped => exact h.of_queued rfl rfl rfl fun n hn ↦ by cases hn

theorem join {a b : Dossier} (ha : a.Accounted) (hb : b.Accounted) : (a.join b).Accounted where
  failed_iff := by
    have hfailed : (a.join b).failed = true ↔
        (a.failed = true ∨ b.failed = true) ∧ a.exposed = false ∧ b.exposed = false := by
      simp [Dossier.join]
    have hexposed : (a.join b).exposed = false ↔ a.exposed = false ∧ b.exposed = false := by
      simp [Dossier.join]
    rw [hfailed, hexposed, le_runs_join_iff, ha.failed_iff, hb.failed_iff]
    constructor
    · rintro ⟨h, he⟩
      exact ⟨h.imp And.left And.left, he⟩
    · rintro ⟨h, hea, heb⟩
      exact ⟨h.imp (⟨·, hea⟩) (⟨·, heb⟩), hea, heb⟩
  exposed he := le_runs_join_iff.mpr ((Bool.or_eq_true_iff.mp he).imp ha.exposed hb.exposed)
  queued n hn := by
    rw [le_runs_join_iff]
    have hn : SortedMap.joinValues max a.queued b.queued = some n := hn
    cases hqa : a.queued with
    | none =>
      rw [hqa, SortedMap.joinValues_none_left] at hn
      exact .inr (hb.queued n hn)
    | some j =>
      cases hqb : b.queued with
      | none =>
        rw [hqa, hqb] at hn
        exact .inl (ha.queued n (hqa.trans hn))
      | some k =>
        rw [hqa, hqb] at hn
        obtain rfl : max j k = n := Option.some.inj hn
        exact (le_max_count_iff.mp (UInt32.le_refl _)).imp
          (UInt32.le_trans · (ha.queued j hqa)) (UInt32.le_trans · (hb.queued k hqb))

end Accounted

end Dossier

/-! ## Memos that were never closed -/

namespace Memo

/-- An edit that does not close the memo and counts no run on a full counter. -/
structure Continues (m : Memo) (e : Edit) : Prop where
  ne_close : e ≠ .close
  fits : ∀ id r, e = .record id r → r.isRun = true → (m.dossier id).Fits

/-- The memos that grow out of new ones and are never closed, with counters that are never full. -/
def NeverClosed : Memo → Prop := Grown (· = {}) Continues

theorem NeverClosed.accounted {m : Memo} (h : m.NeverClosed) (id : IRootId) :
    (m.dossier id).Accounted := by
  induction h with
  | first h =>
    subst h
    exact .new id
  | edit _ he ih => exact ih.edited he.ne_close (fun r ↦ he.fits id r) (edited_dossier _ _ id)
  | merge _ _ iha ihb =>
    rw [dossier_merge]
    exact iha.join ihb

theorem NeverClosed.reachable {m : Memo} (h : m.NeverClosed) : m.Reachable :=
  h.mono (fun _ h ↦ .inl h) fun _ _ _ ↦ trivial

theorem runs_dossier_of_info {m : Memo} {id : IRootId} {e : Evidence} (h : m.info? id = some e) :
    (m.dossier id).runs = e.runs := by
  rw [runs_dossier, h, Option.getD_some]

/-- **Who is given up.** In a memo that was never closed, and whose counters were never full, these
are the iRoots with at least six targeted runs that were not exposed. With it, an exposed iRoot has
had a run, and no retry counter exceeds the runs. -/
theorem failed_iff_of_neverClosed {m : Memo} (h : m.NeverClosed) :
    (∀ id, m.failed.contains id = true ↔
      (∃ e, m.info? id = some e ∧ 6 ≤ e.runs) ∧ m.exposed.contains id = false) ∧
    (∀ id, m.exposed.contains id = true → ∃ e, m.info? id = some e ∧ 1 ≤ e.runs) ∧
    ∀ id n, m.candidateRuns? id = some n → ∃ e, m.info? id = some e ∧ n ≤ e.runs := by
  have hinfo : ∀ c id, (m.members c).contains id = true →
      ∃ e, m.info? id = some e ∧ (m.dossier id).runs = e.runs := by
    intro c id hc
    obtain ⟨e, he⟩ := Option.isSome_iff_exists.mp (h.reachable.wellFormed.hasInfo c id hc)
    exact ⟨e, he, runs_dossier_of_info he⟩
  refine ⟨fun id ↦ ⟨fun hf ↦ ?_, fun ⟨⟨e, he, hlimit⟩, hexposed⟩ ↦ ?_⟩, fun id hexposed ↦ ?_,
    fun id n hn ↦ ?_⟩
  · obtain ⟨e, he, hruns⟩ := hinfo .failed id hf
    obtain ⟨hlimit, hexposed⟩ := (h.accounted id).failed_iff.mp hf
    exact ⟨⟨e, he, hruns ▸ hlimit⟩, hexposed⟩
  · rw [← runs_dossier_of_info he] at hlimit
    exact (h.accounted id).failed_iff.mpr ⟨hlimit, hexposed⟩
  · obtain ⟨e, he, hruns⟩ := hinfo .exposed id hexposed
    exact ⟨e, he, hruns ▸ (h.accounted id).exposed hexposed⟩
  · have hc : (m.members .candidates).contains id = true := by
      rw [contains_members, Dossier.isIn]
      exact Option.isSome_of_eq_some hn
    obtain ⟨e, he, hruns⟩ := hinfo .candidates id hc
    exact ⟨e, he, hruns ▸ (h.accounted id).queued n hn⟩

/-- Six failures on one shard outlast a merge with a shard of fewer runs. -/
theorem failed_of_six_failures :
    ∃ m : Memo, m.NeverClosed ∧ m.failed.contains ⟨1⟩ = true ∧ m.failed.contains ⟨2⟩ = false ∧
      ∃ e, m.info? ⟨1⟩ = some e ∧ 6 ≤ e.runs := by
  let failures := fun (n : Nat) (id : IRootId) ↦
    (List.replicate n (Edit.record id .failure)).foldl Memo.edit {}
  have hfits : ∀ k < 6, ∀ n ∈ [5, 6], ∀ id ∈ [(⟨1⟩ : IRootId), ⟨2⟩],
      ((((List.replicate n (Edit.record id .failure)).take k).foldl Memo.edit
        {}).dossier id).runs.toNat + 1 < UInt32.size := by decide
  have hfailures : ∀ n ∈ [5, 6], ∀ id ∈ [(⟨1⟩ : IRootId), ⟨2⟩], NeverClosed (failures n id) := by
    intro n hn id hid
    have hnew : NeverClosed {} := .first rfl
    refine Grown.edits hnew fun k e he ↦ ?_
    obtain ⟨hk, rfl⟩ := List.getElem?_eq_some_iff.mp he
    rw [List.getElem_replicate]
    refine ⟨nofun, fun id' r hrecord _ ↦ ?_⟩
    obtain ⟨rfl, -⟩ := Edit.record.inj hrecord
    exact hfits k (by grind) n hn id hid
  have h := Grown.merge (hfailures 6 (by simp) ⟨1⟩ (by simp)) (hfailures 5 (by simp) ⟨2⟩ (by simp))
  have hfailed : ((failures 6 ⟨1⟩).merge (failures 5 ⟨2⟩)).failed.contains ⟨1⟩ = true := by
    decide
  exact ⟨_, h, hfailed, by decide, (((failed_iff_of_neverClosed h).1 ⟨1⟩).mp hfailed).1⟩

end Memo

end Interleave
