import Interleave.Memo.Basic
import Interleave.Proofs.Memo.Dossier

/-!
# What loading a memo checks

Loading reads the lists of a snapshot into maps and sets whether or not the checks succeed; the
checks only decide if the result is handed out (`Memo.ofSnapshot_eq_ok_iff`). They are two: every
piece of evidence is about a catalogued iRoot, and every name in a class has evidence.
-/

namespace Interleave

/-- A load in steps succeeds if each of them does. -/
theorem bind_eq_ok {ε α β : Type} {x : Except ε α} {f : α → Except ε β} {b : β} :
    x >>= f = .ok b ↔ ∃ a, x = .ok a ∧ f a = .ok b := by
  cases x with
  | error e => exact iff_of_false nofun fun ⟨_, h, _⟩ ↦ absurd h nofun
  | ok a => exact ⟨fun h ↦ ⟨a, rfl, h⟩, fun ⟨_, ha, h⟩ ↦ Except.ok.inj ha ▸ h⟩

/-- No element is found to fail a check if all of them pass it. -/
theorem find?_not_eq_none_iff {α : Type} {l : List α} {p : α → Bool} :
    (l.find? fun a ↦ !p a) = none ↔ ∀ a ∈ l, p a = true := by
  simp only [List.find?_eq_none, Bool.not_eq_true', Bool.not_eq_false]

namespace Memo

/-! ## Reading -/

/-- The evidence of a snapshot, as it is read. -/
def Snapshot.evidence (s : Snapshot) : SortedMap IRootId Evidence :=
  .ofList (s.info.map fun e ↦ (e.iroot, e))

theorem Snapshot.contains_evidence_iff {s : Snapshot} {id : IRootId} :
    s.evidence.contains id = true ↔ id ∈ s.info.map (·.iroot) := by
  rw [Snapshot.evidence, SortedMap.contains_ofList_iff]
  simp only [List.mem_map, Prod.mk.injEq]
  constructor
  · rintro ⟨_, e, he, hid, _⟩
    exact ⟨e, he, hid⟩
  · rintro ⟨e, he, hid⟩
    exact ⟨_, e, he, hid, rfl⟩

/-- Evidence is read under the iRoot that it is about. -/
theorem Snapshot.iroot_of_get?_evidence {s : Snapshot} {id : IRootId} {e : Evidence}
    (h : s.evidence.get? id = some e) : e.iroot = id :=
  (SortedMap.mem_of_get?_ofList h).2

/-- The memo of a snapshot, as it is read before anything is known to be in order. -/
def Snapshot.unchecked (s : Snapshot) : Memo where
  info := s.evidence
  exposed := SortedSet.ofList s.exposed
  failed := SortedSet.diff (SortedSet.ofList s.failed) (SortedSet.ofList s.exposed)
  predicted := SortedSet.ofList s.predicted
  shadowExposed := SortedSet.ofList s.shadowExposed
  candidates := SortedMap.ofList (s.candidates.map fun r ↦ (r.iroot, r.runs))

/-- No name is read into a class in which the snapshot does not list it. -/
theorem mem_listed_of_contains_unchecked {s : Snapshot} {c : MemoClass} {id : IRootId}
    (h : (s.unchecked.members c).contains id = true) : id ∈ s.listed c := by
  cases c with
  | exposed | predicted | shadowExposed => exact SortedSet.contains_ofList_iff.mp h
  | failed =>
    rw [members, Snapshot.unchecked, SortedSet.contains_diff, Bool.and_eq_true] at h
    exact SortedSet.contains_ofList_iff.mp h.1
  | candidates =>
    rw [members, SortedSet.contains_ofKeys, Snapshot.unchecked, SortedMap.contains_ofList_iff] at h
    obtain ⟨runs, h⟩ := h
    obtain ⟨r, hr, heq⟩ := List.mem_map.mp h
    exact List.mem_map.mpr ⟨r, hr, (Prod.ext_iff.mp heq).1⟩

/-! ## Checking -/

theorem mem_allClasses (c : MemoClass) : c ∈ MemoClass.all := by
  cases c <;> decide

theorem dangling?_eq_none_iff {s : Snapshot} {info : SortedMap IRootId Evidence} :
    s.dangling? info = none ↔ ∀ c, ∀ id ∈ s.listed c, info.contains id = true := by
  simp [Snapshot.dangling?, List.findSome?_eq_none_iff, mem_allClasses]

theorem ofSnapshot_eq_ok_iff {s : Snapshot} {catalog : Catalog} {m : Memo} :
    ofSnapshot s catalog = .ok m ↔
      (∀ e ∈ s.info, catalog.contains e.iroot = true) ∧ s.dangling? s.evidence = none ∧
        s.unchecked = m := by
  have hevidence : SortedMap.ofList (s.info.map fun e ↦ (e.iroot, e)) = s.evidence := rfl
  rw [← find?_not_eq_none_iff, ofSnapshot]
  cases s.info.find? fun e ↦ !catalog.contains e.iroot with
  | some e => simp
  | none =>
    dsimp only
    rw [hevidence]
    cases s.dangling? s.evidence with
    | some failure => simp
    | none => simp [Snapshot.unchecked]

/-! ## Saving -/

/-- A saved memo lists the evidence as it stands in the memo, wherever that is. -/
theorem mem_toSnapshot_info_iff {m : Memo} {e : Evidence} :
    e ∈ m.toSnapshot.info ↔ ∃ id, m.info? id = some e := SortedMap.mem_values_iff

end Memo

end Interleave
