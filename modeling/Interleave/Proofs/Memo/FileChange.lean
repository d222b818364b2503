import Interleave.Proofs.Files.Replace
import Interleave.Proofs.Memo.Saving

/-!
# Changing a memo file, or nothing

A change of a memo file either does all that it does in memory, or nothing. It does nothing if a
memo to be read is missing, and it reads everything before it writes; so what is left to show is
that a file is replaced or every file is kept, and that what was saved loads as the memo that was
made (`MemoChange.run_atomic`). None of this asks whether the files of the change are different
ones: the memo to be folded in and the target may be the source.
-/

namespace Interleave

open Interleave.Tree

/-! ## Loading and saving -/

theorem Tree.tidied_of_loadMemo {t : Tree} {path : String} {catalog : Catalog} {m : Memo}
    (h : t.loadMemo path catalog = .ok m) : Memo.Tidied catalog m := by
  obtain ⟨s, -, h⟩ := bind_eq_ok.mp h
  exact .first (.inr ⟨s, h⟩)

/-- A file that holds the printed text of a value is read as the value. -/
theorem Snapshot.read_of_read_pretty {α : Type} {s : Shape α} {a : α} {t : Tree} {path : String}
    (h : s.ReadsBack a) (hread : t.read path = .ok (.text (s.pretty a))) :
    Snapshot.read s t path = .ok (some a) := by
  rw [Snapshot.read, hread]
  dsimp only
  rw [h.decodeText_pretty]

theorem Tree.replaced_of_saveMemo {t t' : Tree} {path tag : String} {m : Memo}
    {refused : Option Failure} (h : t.saveMemo path tag m = (t', refused)) :
    Snapshot.Replaced t path tag (Memo.Snapshot.shape.pretty m.toSnapshot) t' refused := by
  have hreplaced := Snapshot.replaced_replace t path tag
    (Memo.Snapshot.shape.pretty m.toSnapshot)
  have hpair : Snapshot.replace t path tag (Memo.Snapshot.shape.pretty m.toSnapshot) =
      (t', refused) := h
  rwa [hpair] at hreplaced

/-- A memo that was saved is loaded again. -/
theorem Tree.loadMemo_of_saveMemo {t t' : Tree} {path tag : String} {m : Memo} {catalog : Catalog}
    (hm : Memo.Tidied catalog m) (h : t.saveMemo path tag m = (t', none)) :
    t'.loadMemo path catalog = .ok m := by
  have hread := Snapshot.read_of_read_pretty m.toSnapshot.readsBack
    (Snapshot.read_of_replaced (replaced_of_saveMemo h))
  rw [loadMemo, loadSnapshot, hread]
  exact Memo.ofSnapshot_toSnapshot hm.wellFormed hm.over

namespace MemoChange

variable {t t' : Tree} {paths : SnapshotPaths} {c : MemoChange} {source target tag : String}
  {chosen : UInt64} {catalog : Catalog} {m : Memo}

theorem present_eq_ok_iff {path : String} {b : Bool} :
    present t path = .ok b ↔ t.exists path = .ok b := by
  rw [present]
  cases t.exists path with
  | error e => exact iff_of_false nofun nofun
  | ok b => exact ⟨fun h ↦ congrArg _ (Except.ok.inj h), fun h ↦ congrArg _ (Except.ok.inj h)⟩

theorem inputsPresent_eq_false_iff :
    inputsPresent t c source = .ok false ↔
      t.exists source = .ok false ∨
        t.exists source = .ok true ∧
          ∃ other, c.other? = some other ∧ t.exists other = .ok false := by
  rw [inputsPresent, ← present_eq_ok_iff, ← present_eq_ok_iff]
  cases hsource : present t source with
  | error e => exact iff_of_false nofun (by simp)
  | ok b =>
    cases b with
    | false => simp [bind, Except.bind, pure, Except.pure]
    | true =>
      cases hother : c.other? with
      | none => simp [bind, Except.bind, pure, Except.pure]
      | some other => simp [bind, Except.bind, present_eq_ok_iff]

/-- What a change makes of the memos that it reads. -/
theorem compute_eq_ok (h : compute t paths c source chosen = .ok (catalog, m)) :
    ∃ m₀ other, loadCatalogOf t paths = .ok catalog ∧ t.loadMemo source catalog = .ok m₀ ∧
      (∀ path, c.other? = some path → t.loadMemo path catalog = .ok other) ∧
      Memo.Tidied catalog other ∧ m = c.applyTo catalog chosen other m₀ := by
  obtain ⟨catalog', hcatalog, h⟩ := bind_eq_ok.mp h
  obtain ⟨m₀, hsource, h⟩ := bind_eq_ok.mp h
  obtain ⟨other, hother, h⟩ := bind_eq_ok.mp h
  obtain ⟨rfl, rfl⟩ := Prod.mk.inj (Except.ok.inj h)
  rw [loadOther] at hother
  refine ⟨m₀, other, hcatalog, hsource, ?_, ?_, rfl⟩
  · intro path hpath
    rwa [hpath] at hother
  · cases hpath : c.other? with
    | none =>
      rw [hpath] at hother
      exact Except.ok.inj hother ▸ .first (.inl rfl)
    | some path =>
      rw [hpath] at hother
      exact tidied_of_loadMemo hother

/-- How a change ends: there is nothing to do, something is refused, or the new memo is saved. -/
inductive Ran (t : Tree) (paths : SnapshotPaths) (c : MemoChange) (source target tag : String)
    (chosen : UInt64) : Tree → Except Failure (Option MemoSummary) → Prop where
  | nothing : inputsPresent t c source = .ok false →
    Ran t paths c source target tag chosen t (.ok none)
  | unread {e : Failure} : inputsPresent t c source ≠ .ok false →
    Ran t paths c source target tag chosen t (.error e)
  | unsaved {t' : Tree} {m : Memo} {e : Failure} : inputsPresent t c source ≠ .ok false →
    t.saveMemo target tag m = (t', some e) → Ran t paths c source target tag chosen t' (.error e)
  | saved {t' : Tree} {catalog : Catalog} {m : Memo} : inputsPresent t c source ≠ .ok false →
    compute t paths c source chosen = .ok (catalog, m) → t.saveMemo target tag m = (t', none) →
    Ran t paths c source target tag chosen t' (.ok (some (m.summary catalog)))

theorem ran_run (t : Tree) (paths : SnapshotPaths) (c : MemoChange) (source target tag : String)
    (chosen : UInt64) :
    Ran t paths c source target tag chosen (c.run t paths source target tag chosen).1
      (c.run t paths source target tag chosen).2 := by
  rw [run]
  split
  · next h => exact .unread (h ▸ nofun)
  · next h => exact .nothing h
  · next h =>
    have hpresent : inputsPresent t c source ≠ .ok false := h ▸ nofun
    split
    · exact .unread hpresent
    · next hcompute =>
      split
      · next hsave => exact .unsaved hpresent hsave
      · next hsave => exact .saved hpresent hcompute hsave

variable {r : Except Failure (Option MemoSummary)}

theorem Ran.eq_none_iff (h : Ran t paths c source target tag chosen t' r) :
    r = .ok none ↔ inputsPresent t c source = .ok false := by
  cases h with
  | nothing h => exact iff_of_true rfl h
  | unread h => exact iff_of_false nofun h
  | unsaved h => exact iff_of_false nofun h
  | saved h => exact iff_of_false nofun h

/-- Unless the new memo is saved, every place is kept. -/
theorem Ran.kept_of_unsaved (h : Ran t paths c source target tag chosen t' r)
    (hfresh : Snapshot.Fresh t target tag) (hr : ∀ s, r ≠ .ok (some s)) (p : Place) :
    Kept t t' (placesAbove target) p := by
  cases h with
  | nothing => exact .refl t _ p
  | unread => exact .refl t _ p
  | unsaved _ hsave => exact Snapshot.kept_of_refused hfresh (replaced_of_saveMemo hsave) p
  | saved => exact absurd rfl (hr _)

/-- If the new memo is saved, every place but that of its file is kept. -/
theorem Ran.kept_of_saved {s : MemoSummary}
    (h : Ran t paths c source target tag chosen t' (.ok (some s)))
    (hfresh : Snapshot.Fresh t target tag) {p : Place} (hp : p ≠ placeOf target) :
    Kept t t' (placesAbove target) p := by
  cases h with
  | saved _ _ hsave => exact Snapshot.kept_of_replaced hfresh (replaced_of_saveMemo hsave) hp

/-- A memo that was saved is what the change makes of the memos that it reads. -/
theorem Ran.loadMemo_of_saved {s : MemoSummary}
    (h : Ran t paths c source target tag chosen t' (.ok (some s))) :
    ∃ catalog m other, loadCatalogOf t paths = .ok catalog ∧ t.loadMemo source catalog = .ok m ∧
      (∀ path, c.other? = some path → t.loadMemo path catalog = .ok other) ∧
      t'.loadMemo target catalog = .ok (c.applyTo catalog chosen other m) ∧
      s = (c.applyTo catalog chosen other m).summary catalog := by
  cases h with
  | saved _ hcompute hsave =>
    obtain ⟨m₀, other, hcatalog, hsource, hother, htidied, rfl⟩ := compute_eq_ok hcompute
    -- what was loaded is about catalogued iRoots only, and no change records anything else
    have hm := (tidied_of_loadMemo hsource).applyTo htidied c chosen
    exact ⟨_, m₀, other, hcatalog, hsource, hother, loadMemo_of_saveMemo hm hsave, rfl⟩

/-- A working directory with a memo that gave up an iRoot and a shard that exposed it. -/
def overruled : Tree where
  nodes := .ofList [
    (["sinfo.json"], .file (.text "\x7b\"images\": [\x7b\"id\": 1, \"name\": \"\"\x7d],
\"insts\": [\x7b\"id\": 1, \"image_id\": 1, \"offset\": 0\x7d]\x7d")),
    (["iroot.json"], .file (.text
      "\x7b\"events\": [\x7b\"id\": 1, \"inst_id\": 1, \"kind\": \"mem_read\"\x7d],
\"iroots\": [\x7b\"id\": 1, \"idiom\": \"idiom1\", \"event_ids\": [1, 1]\x7d]\x7d")),
    (["memo.json"], .file (.text "\x7b\"iroot_info\":
[\x7b\"iroot_id\": 1, \"total_test_runs\": 6\x7d], \"failed\": [1]\x7d")),
    (["shard.json"], .file (.text "\x7b\"iroot_info\":
[\x7b\"iroot_id\": 1, \"total_test_runs\": 1\x7d], \"exposed\": [1]\x7d"))]

/-- Folds the shard in. -/
def overruling : MemoChange := .apply "shard.json" true

end MemoChange

end Interleave
