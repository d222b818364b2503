import Interleave.Memo.Offline
import Interleave.Proofs.Json.Databases
import Interleave.Proofs.Memo.WellFormed

/-!
# A saved memo loads as itself

Saving goes through a snapshot and through its text. The text of every snapshot is read back as the
snapshot (`Memo.Snapshot.readsBack`), and the snapshot of a memo is loaded as the memo if the memo
is well-formed and all its evidence is about catalogued iRoots (`Memo.ofSnapshot_toSnapshot`). Both
are true of a memo that was loaded over the catalog, and remain true as long as nothing new is
recorded in it.
-/

namespace Interleave.Memo

/-! ## Memos over a catalog -/

/-- All evidence is about catalogued iRoots. -/
def Over (m : Memo) (catalog : Catalog) : Prop :=
  ∀ id, (m.info? id).isSome = true → catalog.contains id = true

variable {m other : Memo} {catalog : Catalog}

theorem over_new : ({} : Memo).Over catalog := fun _ h ↦ absurd h Bool.false_ne_true

theorem over_ofSnapshot {s : Snapshot} (h : ofSnapshot s catalog = .ok m) : m.Over catalog := by
  obtain ⟨hcatalogued, -, rfl⟩ := ofSnapshot_eq_ok_iff.mp h
  intro id hid
  obtain ⟨e, he⟩ := SortedMap.contains_ofList_iff.mp hid
  obtain ⟨r, hr, heq⟩ := List.mem_map.mp he
  exact (Prod.mk.inj heq).1 ▸ hcatalogued r hr

/-- An edit that is no recording leaves the evidence alone. -/
theorem info_edited {e : Edit} {d d' : Dossier} (h : Dossier.Edited e d d')
    (he : ∀ id r, e ≠ .record id r) : d'.info = d.info := by
  cases h with
  | other | record => exact absurd rfl (he _ _)
  | refine | close | unpredict | unqueue | kept | dropped => rfl

theorem Over.edit {e : Edit} (h : m.Over catalog) (he : ∀ id r, e ≠ .record id r) :
    (m.edit e).Over catalog := by
  intro id hid
  have hinfo : (m.edit e).info? id = m.info? id := info_edited (m.edited_dossier e id) he
  exact h id (hinfo ▸ hid)

theorem Over.merge (h : m.Over catalog) (hother : other.Over catalog) :
    (m.merge other).Over catalog := by
  intro id hid
  have hinfo : ((m.merge other).dossier id).info.isSome = true := hid
  rw [dossier_merge, Dossier.join, SortedMap.isSome_joinValues, Bool.or_eq_true] at hinfo
  exact hinfo.elim (h id) (hother id)

/-- Memos that were loaded over a catalog, and what refining, closing, clearing, sampling and
merging make of them. Nothing was recorded since. -/
def Tidied (catalog : Catalog) : Memo → Prop :=
  Grown (fun m ↦ m = {} ∨ ∃ s, ofSnapshot s catalog = .ok m) fun _ e ↦ ∀ id r, e ≠ .record id r

theorem Tidied.wellFormed (h : Tidied catalog m) : m.WellFormed :=
  Reachable.wellFormed
    (h.mono (fun _ h ↦ h.imp id fun ⟨s, h⟩ ↦ ⟨s, catalog, h⟩) fun _ _ _ ↦ trivial)

theorem Tidied.over (h : Tidied catalog m) : m.Over catalog := by
  induction h with
  | first h =>
    rcases h with rfl | ⟨s, h⟩
    · exact over_new
    · exact over_ofSnapshot h
  | edit _ he ih => exact ih.edit he
  | merge _ _ iha ihb => exact iha.merge ihb

theorem Tidied.applyTo (hm : Tidied catalog m) (hother : Tidied catalog other) (c : MemoChange)
    (chosen : UInt64) : Tidied catalog (c.applyTo catalog chosen other m) := by
  cases c with
  | inputChange => exact (hm.edit (e := .clearPredicted) nofun).edit (e := .clearCandidates) nofun
  | close => exact hm.edit (e := .close) nofun
  | refine respectFailed => exact hm.edit (e := .refine respectFailed) nofun
  | merge => exact Grown.merge hm hother
  | apply _ respectFailed => exact (Grown.merge hm hother).edit (e := .refine respectFailed) nofun
  | sample idiom num seed =>
    exact hm.edit
      (e := .sample shuffle catalog idiom num (WordStream.ofSeed (seed.getD chosen))) nofun

/-! ## Loading what was saved -/

/-- Evidence that is saved under its own name is read where it stood. -/
theorem evidence_toSnapshot (h : ∀ id e, m.info? id = some e → e.iroot = id) :
    m.toSnapshot.evidence = m.info := by
  have hentries : m.toSnapshot.info.map (fun e ↦ (e.iroot, e)) = m.info.entries := by
    rw [toSnapshot, SortedMap.values, List.map_map]
    refine (List.map_congr_left fun x hx ↦ ?_).trans (List.map_id _)
    exact Prod.ext (h x.1 x.2 (SortedMap.mem_entries_iff.mp hx)) rfl
  rw [Snapshot.evidence, hentries, SortedMap.ofList_entries]

theorem queue_toSnapshot (m : Memo) :
    m.toSnapshot.candidates.map (fun r ↦ (r.iroot, r.runs)) = m.candidates.entries := by
  rw [toSnapshot, List.map_map]
  exact List.map_id _

theorem unchecked_toSnapshot (h : m.WellFormed) : m.toSnapshot.unchecked = m := by
  -- loading strikes off what was exposed; in a well-formed memo there is nothing to strike off
  have hfailed : SortedSet.diff m.failed m.exposed = m.failed := by
    refine SortedSet.ext_contains fun id ↦ ?_
    rw [SortedSet.contains_diff]
    cases hexposed : m.exposed.contains id with
    | false => exact Bool.and_true _
    | true => rw [h.disjoint id hexposed, Bool.false_and]
  rw [Snapshot.unchecked, evidence_toSnapshot h.filed, queue_toSnapshot, SortedMap.ofList_entries]
  simp only [toSnapshot, SortedSet.ofList_keys, hfailed]

theorem dangling?_toSnapshot (h : m.WellFormed) : m.toSnapshot.dangling? m.info = none := by
  refine dangling?_eq_none_iff.mpr fun c id hid ↦ h.hasInfo c id ?_
  cases c with
  | exposed | failed | predicted | shadowExposed => exact SortedMap.mem_keys_iff.mp hid
  | candidates =>
    rw [Snapshot.listed, toSnapshot, List.map_map] at hid
    rw [members, SortedSet.contains_ofKeys]
    exact SortedMap.mem_keys_iff.mp hid

theorem ofSnapshot_toSnapshot (hm : m.WellFormed) (hover : m.Over catalog) :
    ofSnapshot m.toSnapshot catalog = .ok m := by
  refine ofSnapshot_eq_ok_iff.mpr ⟨fun e he ↦ hover e.iroot ?_, ?_, unchecked_toSnapshot hm⟩
  · obtain ⟨id, hid⟩ := mem_toSnapshot_info_iff.mp he
    rw [hm.filed id e hid]
    exact Option.isSome_of_eq_some hid
  · rw [evidence_toSnapshot hm.filed]
    exact dangling?_toSnapshot hm

end Interleave.Memo
