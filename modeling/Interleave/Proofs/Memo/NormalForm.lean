import Interleave.Proofs.Memo.Saving

/-!
# The normal form of a snapshot

A snapshot may list its records in any order and more than once, and what it lists as given up it
may list as exposed too. The snapshot of a memo is a normal form of all snapshots that load as the
memo: its lists ascend, and it loads as the memo again.

That the order does not matter is a matter of the maps that are read: of several entries with one
identifier the last counts, so a list whose identifiers are distinct makes the same map in any order
(`SortedMap.ofList_perm`). Whether a snapshot loads is decided by which identifiers are listed where
(`Memo.loads_iff`), hence not by the order either, distinct or not.
-/

namespace Interleave

theorem SortedMap.keys_rise {k : Kind} {α : Type} (m : SortedMap (Id k) α) :
    m.keys.Pairwise fun a b ↦ a.val < b.val :=
  List.pairwise_map.mpr (m.ascending.imp fun {a _} h ↦ (Std.compare_eq_lt (a := a.1.val)).mp h)

namespace Memo

variable {m : Memo} {s s' : Snapshot} {catalog : Catalog}

/-! ## Ascending lists -/

/-- Identifiers that ascend strictly along the list. -/
def Rising (ids : List IRootId) : Prop := ids.Pairwise fun a b ↦ a.val < b.val

/-- All lists of the snapshot ascend. -/
structure Snapshot.Normal (s : Snapshot) : Prop where
  info : Rising (s.info.map (·.iroot))
  listed : ∀ c, Rising (s.listed c)

theorem listed_toSnapshot (m : Memo) (c : MemoClass) :
    m.toSnapshot.listed c = (m.members c).keys := by
  cases c with
  | exposed | failed | predicted | shadowExposed => rfl
  | candidates =>
    rw [Snapshot.listed, toSnapshot, List.map_map, members, SortedSet.keys_ofKeys]
    rfl

theorem normal_toSnapshot (h : ∀ id e, m.info? id = some e → e.iroot = id) :
    m.toSnapshot.Normal where
  info := by
    have hkeys : m.toSnapshot.info.map (·.iroot) = m.info.keys := by
      rw [toSnapshot, SortedMap.values, List.map_map]
      exact List.map_congr_left fun x hx ↦ h x.1 x.2 (SortedMap.mem_entries_iff.mp hx)
    rw [hkeys]
    exact m.info.keys_rise
  listed c := by
    rw [listed_toSnapshot]
    exact SortedMap.keys_rise _

/-- The snapshot of a memo says all there is to say about it. -/
theorem toSnapshot_injOn :
    Set.InjOn toSnapshot {m | ∀ id e, m.info? id = some e → e.iroot = id} := by
  intro m hm m' hm' h
  have hinfo : m.info = m'.info := by
    rw [← evidence_toSnapshot hm, h, evidence_toSnapshot hm']
  have hmembers (c : MemoClass) : m.members c = m'.members c := by
    rw [← SortedSet.ofList_keys (m.members c), ← listed_toSnapshot, h, listed_toSnapshot,
      SortedSet.ofList_keys]
  have hcandidates : m.candidates = m'.candidates := by
    refine SortedMap.ext_entries ?_
    rw [← queue_toSnapshot, h, queue_toSnapshot]
  obtain ⟨_, _, _, _, _, _⟩ := m
  obtain ⟨_, _, _, _, _, _⟩ := m'
  exact Memo.mk.injEq .. ▸ ⟨hinfo, hmembers .exposed, hmembers .failed, hmembers .predicted,
    hmembers .shadowExposed, hcandidates⟩

/-! ## Reordering -/

/-- The same records in another order, list by list. -/
structure Snapshot.Reorders (s s' : Snapshot) : Prop where
  info : s.info.Perm s'.info
  exposed : s.exposed.Perm s'.exposed
  failed : s.failed.Perm s'.failed
  predicted : s.predicted.Perm s'.predicted
  shadowExposed : s.shadowExposed.Perm s'.shadowExposed
  candidates : s.candidates.Perm s'.candidates

/-- Each iRoot has at most one piece of evidence and stands in the queue at most once. -/
structure Snapshot.Distinct (s : Snapshot) : Prop where
  info : (s.info.map (·.iroot)).Nodup
  candidates : (s.candidates.map (·.iroot)).Nodup

theorem Snapshot.Reorders.listed (h : s.Reorders s') (c : MemoClass) :
    (s.listed c).Perm (s'.listed c) := by
  cases c with
  | exposed => exact h.exposed
  | failed => exact h.failed
  | predicted => exact h.predicted
  | shadowExposed => exact h.shadowExposed
  | candidates => exact h.candidates.map _

theorem Snapshot.Reorders.unchecked (h : s.Reorders s') (hs : s.Distinct) :
    s.unchecked = s'.unchecked := by
  have hinfo : s.evidence = s'.evidence := by
    refine SortedMap.ofList_perm ?_ (h.info.map _)
    rw [List.map_map]
    exact hs.info
  have hcandidates : SortedMap.ofList (s.candidates.map fun r ↦ (r.iroot, r.runs)) =
      SortedMap.ofList (s'.candidates.map fun r ↦ (r.iroot, r.runs)) := by
    refine SortedMap.ofList_perm ?_ (h.candidates.map _)
    rw [List.map_map]
    exact hs.candidates
  rw [Snapshot.unchecked, Snapshot.unchecked, hinfo, hcandidates,
    SortedSet.ofList_perm h.exposed, SortedSet.ofList_perm h.failed,
    SortedSet.ofList_perm h.predicted, SortedSet.ofList_perm h.shadowExposed]

/-- A snapshot loads if all its evidence is about catalogued iRoots and all iRoots that it names
elsewhere have evidence. -/
theorem loads_iff :
    (∃ m, ofSnapshot s catalog = .ok m) ↔
      (∀ r ∈ s.info, catalog.contains r.iroot = true) ∧
        ∀ c, ∀ id ∈ s.listed c, id ∈ s.info.map (·.iroot) := by
  simp only [ofSnapshot_eq_ok_iff, dangling?_eq_none_iff, Snapshot.contains_evidence_iff]
  constructor
  · rintro ⟨_, hcatalogued, hlisted, _⟩
    exact ⟨hcatalogued, hlisted⟩
  · rintro ⟨hcatalogued, hlisted⟩
    exact ⟨_, hcatalogued, hlisted, rfl⟩

theorem Snapshot.Reorders.loads_iff (h : s.Reorders s') :
    (∃ m, ofSnapshot s catalog = .ok m) ↔ ∃ m, ofSnapshot s' catalog = .ok m := by
  simp only [Memo.loads_iff, h.info.mem_iff, (h.info.map _).mem_iff, (h.listed _).mem_iff]

theorem Snapshot.Reorders.ofSnapshot (h : s.Reorders s') (hs : s.Distinct)
    (hm : Memo.ofSnapshot s catalog = .ok m) : Memo.ofSnapshot s' catalog = .ok m := by
  obtain ⟨m', hm'⟩ := h.loads_iff.mp ⟨m, hm⟩
  have heq : s.unchecked = m := (ofSnapshot_eq_ok_iff.mp hm).2.2
  have heq' : s'.unchecked = m' := (ofSnapshot_eq_ok_iff.mp hm').2.2
  rw [hm', ← heq', ← h.unchecked hs, heq]

/-! ## Loading and saving -/

/-- **Loading and saving undo each other, up to the normal form.** A memo is loaded back from its
snapshot. If each piece of evidence names the iRoot that it stands under, as in all reachable memos
(`WellFormed.filed`), the snapshot is in normal form and belongs to no other such memo. A snapshot
that loads may be replaced by the snapshot of its memo, and its lists may come in any other order as
long as no iRoot has two pieces of evidence or two places in the queue. No reordering helps a
snapshot that does not load. -/
theorem snapshot_normalForm (catalog : Catalog) :
    (∀ m : Memo, m.Reachable → (∀ id, (m.info? id).isSome = true → catalog.contains id = true) →
      ofSnapshot m.toSnapshot catalog = .ok m) ∧
    (∀ m : Memo, (∀ id e, m.info? id = some e → e.iroot = id) → m.toSnapshot.Normal) ∧
    Set.InjOn toSnapshot {m | ∀ id e, m.info? id = some e → e.iroot = id} ∧
    (∀ s m, ofSnapshot s catalog = .ok m → ofSnapshot m.toSnapshot catalog = .ok m) ∧
    (∀ s s' m, s.Reorders s' → s.Distinct → ofSnapshot s catalog = .ok m →
      ofSnapshot s' catalog = .ok m) ∧
    ∀ s s' failure, s.Reorders s' → ofSnapshot s catalog = .error failure →
      ∃ failure', ofSnapshot s' catalog = .error failure' := by
  refine ⟨fun m hm hover ↦ ofSnapshot_toSnapshot hm.wellFormed hover, fun m ↦ normal_toSnapshot,
    toSnapshot_injOn, fun s m hm ↦ ?_, fun s s' m h hs hm ↦ h.ofSnapshot hs hm,
    fun s s' failure h hfails ↦ ?_⟩
  · exact ofSnapshot_toSnapshot (wellFormed_ofSnapshot hm) (over_ofSnapshot hm)
  · cases hs' : ofSnapshot s' catalog with
    | error failure' => exact ⟨failure', rfl⟩
    | ok m' =>
      obtain ⟨m, hm⟩ := h.loads_iff.mpr ⟨m', hs'⟩
      rw [hm] at hfails
      exact nomatch hfails

/-- A shuffled snapshot whose failures overlap with what was exposed, and one that names iRoots
without evidence. -/
theorem snapshot_normalForm_shuffled :
    ∃ (catalog : Catalog) (s s' : Snapshot) (m : Memo), s ≠ s' ∧ s.Reorders s' ∧ s.Distinct ∧
      s' ≠ m.toSnapshot ∧ m.Reachable ∧ ofSnapshot s catalog = .ok m ∧
      ofSnapshot s' catalog = .ok m ∧ ofSnapshot m.toSnapshot catalog = .ok m ∧
      ∃ failure, ofSnapshot { exposed := [⟨2⟩, ⟨1⟩] } catalog = .error failure := by
  let catalog : Catalog :=
    { iroots := .ofList [(⟨1⟩, ⟨⟨1⟩, .idiom1, []⟩), (⟨2⟩, ⟨⟨2⟩, .idiom1, []⟩)] }
  let s : Snapshot :=
    { info := [⟨⟨2⟩, 6, none⟩, ⟨⟨1⟩, 1, some true⟩], exposed := [⟨1⟩, ⟨1⟩], failed := [⟨2⟩, ⟨1⟩],
      candidates := [⟨⟨2⟩, 1⟩, ⟨⟨1⟩, 0⟩] }
  let s' : Snapshot :=
    { info := [⟨⟨1⟩, 1, some true⟩, ⟨⟨2⟩, 6, none⟩], exposed := [⟨1⟩, ⟨1⟩], failed := [⟨1⟩, ⟨2⟩],
      candidates := [⟨⟨1⟩, 0⟩, ⟨⟨2⟩, 1⟩] }
  have hreorders : s.Reorders s' := by constructor <;> decide
  have hdistinct : s.Distinct := by constructor <;> decide
  have hs : ofSnapshot s catalog = .ok s.unchecked := by
    refine ofSnapshot_eq_ok_iff.mpr ⟨?_, ?_, rfl⟩ <;> decide
  have hm : s.unchecked.Reachable := .first (.inr ⟨s, catalog, hs⟩)
  have hover : ∀ id, (s.unchecked.info? id).isSome = true → catalog.contains id = true :=
    over_ofSnapshot hs
  obtain ⟨hload, -, -, -, hreorder, hfail⟩ := snapshot_normalForm catalog
  have hdangling : ofSnapshot { exposed := [⟨1⟩, ⟨2⟩] } catalog =
      .error (.dangling .exposed ⟨1⟩) := by decide
  refine ⟨catalog, s, s', s.unchecked, by decide, hreorders, hdistinct, by decide, hm, hs,
    hreorder s s' _ hreorders hdistinct hs, hload _ hm hover, ?_⟩
  exact hfail { exposed := [⟨1⟩, ⟨2⟩] } _ _ (by constructor <;> decide) hdangling

end Memo

end Interleave
