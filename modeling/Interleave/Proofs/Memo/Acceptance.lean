import Interleave.Proofs.Memo.NormalForm
import Mathlib.Data.List.Induction

/-!
# Which snapshots load, and what a memo is loaded from

A snapshot is checked list by list, in a fixed order, and each list from its front. So what a load
reports is the first fault in the first list that has one (`FirstIn`). A list is also read from its
front, and each entry replaces an earlier one for the same iRoot. So what a memo holds about an
iRoot is the last entry for it (`LastIn`). Checking and reading come apart only here: an entry that
is replaced has been checked like all others.
-/

namespace Interleave

section

variable {α : Type} {l : List α} {P : α → Prop} {a : α}

/-- The first element of a list that has a property. -/
def FirstIn (l : List α) (P : α → Prop) (a : α) : Prop :=
  ∃ before after, l = before ++ a :: after ∧ P a ∧ ∀ x ∈ before, ¬ P x

/-- The last element of a list that has a property. -/
def LastIn (l : List α) (P : α → Prop) (a : α) : Prop :=
  ∃ before after, l = before ++ a :: after ∧ P a ∧ ∀ x ∈ after, ¬ P x

theorem FirstIn.mem (h : FirstIn l P a) : a ∈ l := by
  obtain ⟨before, after, rfl, -, -⟩ := h
  exact List.mem_append_right before List.mem_cons_self

theorem FirstIn.holds (h : FirstIn l P a) : P a := by
  obtain ⟨-, -, -, ha, -⟩ := h
  exact ha

theorem find?_eq_some_iff_firstIn {p : α → Bool} :
    l.find? p = some a ↔ FirstIn l (fun x ↦ p x = true) a := by
  rw [List.find?_eq_some_iff_append, FirstIn]
  constructor
  · rintro ⟨ha, before, after, hl, hbefore⟩
    exact ⟨before, after, hl, ha, fun x hx ↦ by simpa using hbefore x hx⟩
  · rintro ⟨before, after, hl, ha, hbefore⟩
    exact ⟨ha, before, after, hl, fun x hx ↦ by simpa using hbefore x hx⟩

theorem not_lastIn_nil : ¬ LastIn [] P a := by
  rintro ⟨before, after, hl, -, -⟩
  exact List.append_ne_nil_of_right_ne_nil before (List.cons_ne_nil a after) hl.symm

theorem lastIn_concat {x : α} : LastIn (l ++ [x]) P a ↔ P x ∧ a = x ∨ ¬ P x ∧ LastIn l P a := by
  constructor
  · -- `a` is the new element just if nothing stands behind it
    rintro ⟨before, after, hl, ha, hafter⟩
    rcases after.eq_nil_or_concat' with rfl | ⟨after, y, rfl⟩
    · obtain ⟨-, hx⟩ := List.append_inj' hl rfl
      obtain rfl := (List.cons.inj hx).1
      exact .inl ⟨ha, rfl⟩
    · rw [← List.cons_append, ← List.append_assoc] at hl
      obtain ⟨rfl, hx⟩ := List.append_inj' hl rfl
      obtain rfl := (List.cons.inj hx).1
      have hx : ¬ P x := hafter x (List.mem_append_right _ List.mem_cons_self)
      exact .inr ⟨hx, before, after, rfl, ha, fun y hy ↦ hafter y (List.mem_append_left _ hy)⟩
  · rintro (⟨hx, rfl⟩ | ⟨hx, before, after, rfl, ha, hafter⟩)
    · exact ⟨l, [], rfl, hx, fun y hy ↦ absurd hy List.not_mem_nil⟩
    · refine ⟨before, after ++ [x], List.append_assoc .., ha, fun y hy ↦ ?_⟩
      rcases List.mem_append.mp hy with hy | hy
      · exact hafter y hy
      · exact List.mem_singleton.mp hy ▸ hx

/-- A map that is read from a list of records holds the last record for each key. -/
theorem SortedMap.get?_ofList_map_eq_some_iff {κ β : Type} [Ord κ] [Std.TransOrd κ]
    [Std.LawfulEqOrd κ] {key : α → κ} {value : α → β} {k : κ} {v : β} :
    (ofList (l.map fun r ↦ (key r, value r))).get? k = some v ↔
      ∃ r, LastIn l (key · = k) r ∧ value r = v := by
  induction l using List.reverseRecOn with
  | nil => exact iff_of_false (Option.some_ne_none v).symm fun ⟨_, h, _⟩ ↦ not_lastIn_nil h
  | append_singleton l x ih =>
    have hread : ofList ((l ++ [x]).map fun r ↦ (key r, value r)) =
        (ofList (l.map fun r ↦ (key r, value r))).insert (key x) (value x) := by
      rw [List.map_append, ofList, List.foldl_append]
      rfl
    simp only [lastIn_concat]
    rw [hread, get?_insert]
    by_cases hx : key x = k
    · simp [hx]
    · have hne : compare k (key x) ≠ .eq := fun h ↦ hx (Std.LawfulEqCmp.eq_of_compare h).symm
      simp only [hne, if_false, ih, hx, false_and, false_or, not_false_eq_true, true_and]

end

namespace Memo

variable {s : Snapshot} {catalog : Catalog} {m : Memo} {id : IRootId}

/-! ## Faults -/

/-- The snapshot lists evidence for the iRoot. -/
def Snapshot.Evidenced (s : Snapshot) (id : IRootId) : Prop := id ∈ s.info.map (·.iroot)

/-- What is reported of a snapshot that does not load: the first evidence about an iRoot that is not
catalogued, or if there is none, the first name without evidence in the first class with one. -/
inductive Snapshot.Fault (s : Snapshot) (catalog : Catalog) : Failure → Prop where
  | uncatalogued {e : Evidence} (he : FirstIn s.info (catalog.contains ·.iroot = false) e) :
    Fault s catalog (.unknownIRoot e.iroot)
  | dangling {c : MemoClass} {id : IRootId} (hinfo : ∀ r ∈ s.info, catalog.contains r.iroot = true)
    (hc : FirstIn MemoClass.all (fun c ↦ ∃ id ∈ s.listed c, ¬ s.Evidenced id) c)
    (hid : FirstIn (s.listed c) (¬ s.Evidenced ·) id) : Fault s catalog (.dangling c id)

theorem Snapshot.contains_evidence_eq_false_iff :
    (!s.evidence.contains id) = true ↔ ¬ s.Evidenced id := by
  rw [Bool.not_eq_true', ← Bool.not_eq_true, Snapshot.contains_evidence_iff, Snapshot.Evidenced]

theorem Snapshot.dangling?_eq_some_iff {failure : Failure} :
    s.dangling? s.evidence = some failure ↔
      ∃ c id, FirstIn MemoClass.all (fun c ↦ ∃ id ∈ s.listed c, ¬ s.Evidenced id) c ∧
        FirstIn (s.listed c) (¬ s.Evidenced ·) id ∧ .dangling c id = failure := by
  have hclass (c : MemoClass) :
      ((s.listed c).find? fun id ↦ !s.evidence.contains id).map (Failure.dangling c) = none ↔
        ¬ ∃ id ∈ s.listed c, ¬ s.Evidenced id := by
    simp [List.find?_eq_none, Snapshot.contains_evidence_iff, Snapshot.Evidenced]
  have hname (c : MemoClass) :
      ((s.listed c).find? fun id ↦ !s.evidence.contains id).map (Failure.dangling c) =
          some failure ↔
        ∃ id, FirstIn (s.listed c) (¬ s.Evidenced ·) id ∧ .dangling c id = failure := by
    simp only [Option.map_eq_some_iff, find?_eq_some_iff_firstIn,
      Snapshot.contains_evidence_eq_false_iff]
  rw [Snapshot.dangling?, List.findSome?_eq_some_iff]
  simp only [hclass, hname]
  constructor
  · rintro ⟨before, c, after, hall, ⟨id, hid, hfailure⟩, hbefore⟩
    exact ⟨c, id, ⟨before, after, hall, ⟨id, hid.mem, hid.holds⟩, hbefore⟩, hid, hfailure⟩
  · rintro ⟨c, id, ⟨before, after, hall, -, hbefore⟩, hid, hfailure⟩
    exact ⟨before, c, after, hall, ⟨id, hid, hfailure⟩, hbefore⟩

theorem ofSnapshot_eq_error_iff_checks {failure : Failure} :
    ofSnapshot s catalog = .error failure ↔
      (∃ r, (s.info.find? fun r ↦ !catalog.contains r.iroot) = some r ∧
        .unknownIRoot r.iroot = failure) ∨
      (s.info.find? fun r ↦ !catalog.contains r.iroot) = none ∧
        s.dangling? s.evidence = some failure := by
  have hevidence : SortedMap.ofList (s.info.map fun e ↦ (e.iroot, e)) = s.evidence := rfl
  rw [ofSnapshot]
  cases s.info.find? fun r ↦ !catalog.contains r.iroot with
  | some r => simp
  | none =>
    dsimp only
    rw [hevidence]
    cases s.dangling? s.evidence <;> simp

theorem ofSnapshot_eq_error_iff {failure : Failure} :
    ofSnapshot s catalog = .error failure ↔ s.Fault catalog failure := by
  have huncatalogued (r : Evidence) :
      (s.info.find? fun r ↦ !catalog.contains r.iroot) = some r ↔
        FirstIn s.info (catalog.contains ·.iroot = false) r := by
    simp only [find?_eq_some_iff_firstIn, Bool.not_eq_true']
  rw [ofSnapshot_eq_error_iff_checks, find?_not_eq_none_iff, Snapshot.dangling?_eq_some_iff]
  simp only [huncatalogued]
  constructor
  · rintro (⟨r, hr, rfl⟩ | ⟨hinfo, c, id, hc, hid, rfl⟩)
    · exact .uncatalogued hr
    · exact .dangling hinfo hc hid
  · rintro (hr | ⟨hinfo, hc, hid⟩)
    · exact .inl ⟨_, hr, rfl⟩
    · exact .inr ⟨hinfo, _, _, hc, hid, rfl⟩

/-! ## What is read -/

theorem Snapshot.info?_unchecked {e : Evidence} :
    s.unchecked.info? id = some e ↔ LastIn s.info (·.iroot = id) e :=
  SortedMap.get?_ofList_map_eq_some_iff.trans exists_eq_right

theorem Snapshot.candidateRuns?_unchecked {n : UInt32} :
    s.unchecked.candidateRuns? id = some n ↔
      ∃ r, LastIn s.candidates (·.iroot = id) r ∧ r.runs = n :=
  SortedMap.get?_ofList_map_eq_some_iff

theorem Snapshot.failed_unchecked :
    s.unchecked.failed.contains id = true ↔ id ∈ s.failed ∧ id ∉ s.exposed := by
  rw [Snapshot.unchecked, SortedSet.contains_diff, Bool.and_eq_true, Bool.not_eq_true',
    ← Bool.not_eq_true, SortedSet.contains_ofList_iff, SortedSet.contains_ofList_iff]

/-- **A load accepts the consistent snapshots, and reports the first fault of any other.** What it
reports is the first evidence about an iRoot that is not catalogued; if there is none, the first
name without evidence in the first class with such a name; and nothing else. Otherwise there is a
memo, which has the last evidence and the last counter listed for each iRoot, and the classes as
they are listed, but for iRoots that are given up and exposed, which only count as exposed. -/
theorem ofSnapshot_first_fault_or_last_entries (s : Snapshot) (catalog : Catalog) :
    (∀ failure, ofSnapshot s catalog = .error failure ↔ s.Fault catalog failure) ∧
      ((∃ m, ofSnapshot s catalog = .ok m) ↔
        (∀ r ∈ s.info, catalog.contains r.iroot = true) ∧
          ∀ c, ∀ id ∈ s.listed c, s.Evidenced id) ∧
      ∀ m, ofSnapshot s catalog = .ok m → ∀ id,
        (∀ e, m.info? id = some e ↔ LastIn s.info (·.iroot = id) e) ∧
        (∀ n, m.candidateRuns? id = some n ↔
          ∃ r, LastIn s.candidates (·.iroot = id) r ∧ r.runs = n) ∧
        (m.exposed.contains id = true ↔ id ∈ s.exposed) ∧
        (m.predicted.contains id = true ↔ id ∈ s.predicted) ∧
        (m.shadowExposed.contains id = true ↔ id ∈ s.shadowExposed) ∧
        (m.failed.contains id = true ↔ id ∈ s.failed ∧ id ∉ s.exposed) := by
  refine ⟨fun failure ↦ ofSnapshot_eq_error_iff, loads_iff, fun m hm id ↦ ?_⟩
  obtain ⟨-, -, rfl⟩ := ofSnapshot_eq_ok_iff.mp hm
  exact ⟨fun e ↦ Snapshot.info?_unchecked, fun n ↦ Snapshot.candidateRuns?_unchecked,
    SortedSet.contains_ofList_iff, SortedSet.contains_ofList_iff, SortedSet.contains_ofList_iff,
    Snapshot.failed_unchecked⟩

end Memo

end Interleave
