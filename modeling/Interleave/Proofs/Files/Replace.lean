import Interleave.Files.Tree
import Interleave.Proofs.Files.Frame

/-!
# Replacing a file, or nothing

A file is replaced in three steps, each of which may be refused. If nothing stands at the place of
the temporary file beforehand, every place is kept after a refusal (`Snapshot.kept_of_refused`): the
temporary file is written last but one, and taken away again if it cannot take the place of the
file. After a success every other place is kept, and the file reads as the new text
(`Snapshot.kept_of_replaced`, `Snapshot.read_of_replaced`).

The temporary file stands at a place that is not a directory's, and the file that it replaces is
none either. So neither step closes the way to the file.
-/

namespace Interleave.Snapshot

open Interleave.Tree

variable {t t' : Tree} {path tag temp text : String} {p : Place}

/-- Nothing stands at the place of the temporary file. -/
def Fresh (t : Tree) (path tag : String) : Prop := t.node? (placeOf (tempName path tag)) = none

/-! ## Publishing -/

/-- What the temporary file is like when it is about to take the place of a file. -/
structure Written (t t' : Tree) (temp text : String) (p : Place) : Prop where
  absent : t.node? p ≠ some .dir
  eq_put : t' = t.put p (.file (.text text))
  read : t'.read temp = .ok (.text text)
  resolve : t'.resolve temp = .ok p

theorem written_of_write (h : t.write temp (.text text) = .ok t') :
    Written t t' temp text (placeOf temp) := by
  obtain ⟨p, hlocate, hending, hdir, rfl⟩ := write_eq_ok h
  obtain rfl := eq_placeOf_of_locate hlocate
  have hdirs : ∀ q, t.node? q = some .dir →
      (t.put (placeOf temp) (.file (.text text))).node? q = some .dir := fun q hq ↦ by
    have hne : q ≠ placeOf temp := fun heq ↦ hdir (heq ▸ hq)
    rw [node?_put_of_ne t _ hne, hq]
  have hlocate := locate_of_dirs_kept hdirs hlocate
  exact ⟨hdir, rfl, read_of_locate hlocate hending (node?_put_self hdir _),
    resolve_of_locate hlocate hending⟩

namespace Written

/-- A temporary file that is not published is removed. -/
theorem publish_refused {e : OsError} {u : Tree} (h : Written t t' temp text p)
    (hpublish : publish t' path temp = (u, some e)) : u = t'.drop p := by
  rw [publish] at hpublish
  split at hpublish
  · exact absurd (Prod.mk.inj hpublish).2 nofun
  · rw [remove_eq h.read h.resolve] at hpublish
    exact (Prod.mk.inj hpublish).1.symm

/-- A temporary file that is published stands at the place of the file. -/
theorem publish_done {u : Tree} (h : Written t t' temp text p)
    (hpublish : publish t' path temp = (u, none)) :
    t'.locate path = .ok (placeOf path) ∧ Path.ending path = .plain ∧
      t'.node? (placeOf path) ≠ some .dir ∧
      u = (t'.drop p).put (placeOf path) (.file (.text text)) := by
  rw [publish] at hpublish
  split at hpublish
  · next u' hrename =>
    obtain ⟨p', c, q, hread, hresolve, hlocate, hending, hdir, hu⟩ := rename_eq_ok hrename
    obtain rfl := Except.ok.inj (hread.symm.trans h.read)
    obtain rfl := Except.ok.inj (hresolve.symm.trans h.resolve)
    obtain rfl := eq_placeOf_of_locate hlocate
    exact ⟨hlocate, hending, hdir, (Prod.mk.inj hpublish).1 ▸ hu⟩
  · exact absurd (Prod.mk.inj hpublish).2 nofun

/-- Taking the temporary file away gives back what stood there, if that was nothing. -/
theorem node?_drop (h : Written t t' temp text p) (hnone : t.node? p = none) (q : Place) :
    (t'.drop p).node? q = t.node? q := by
  have hfile : t'.node? p = some (.file (.text text)) := h.eq_put ▸ node?_put_self h.absent _
  by_cases hq : q = p
  · rw [hq, node?_drop_self (by rw [hfile]; exact nofun), hnone]
  · rw [node?_drop_of_ne t' hq, h.eq_put, node?_put_of_ne t _ hq]

end Written

/-! ## Replacing -/

/-- How a file is replaced: its directories are created, the temporary file is written, and either
refusal ends it; or the temporary file is published. -/
inductive Replaced (t : Tree) (path tag text : String) : Tree → Option Failure → Prop where
  | noParents {t' : Tree} {e : OsError} : t.makeParents path = .error (e, t') →
    Replaced t path tag text t' (some (refusal path e))
  | notWritten {t' : Tree} {e : OsError} : t.makeParents path = .ok t' →
    t'.write (tempName path tag) (.text text) = .error e →
    Replaced t path tag text t' (some (refusal (tempName path tag) e))
  | refused {t' u v : Tree} {e : OsError} : t.makeParents path = .ok t' →
    Written t' u (tempName path tag) text (placeOf (tempName path tag)) →
    publish u path (tempName path tag) = (v, some e) →
    Replaced t path tag text v (some (refusal path e))
  | done {t' u v : Tree} : t.makeParents path = .ok t' →
    Written t' u (tempName path tag) text (placeOf (tempName path tag)) →
    publish u path (tempName path tag) = (v, none) → Replaced t path tag text v none

theorem replaced_replace (t : Tree) (path tag text : String) :
    Replaced t path tag text (replace t path tag text).1 (replace t path tag text).2 := by
  rw [replace]
  split
  · next hparents => exact .noParents hparents
  · next t' hparents =>
    dsimp only
    split
    · next hwrite => exact .notWritten hparents hwrite
    · next u hwrite =>
      have hwritten := written_of_write hwrite
      cases hpublish : publish u path (tempName path tag) with
      | mk v refused =>
        cases refused with
        | some e => exact .refused hparents hwritten hpublish
        | none => exact .done hparents hwritten hpublish

/-- A place with nothing or a file at it is empty if it was empty before the directories above a
name were created. -/
theorem node?_eq_none_of_makeParents (h : t.makeParents path = .ok t') (hnone : t.node? p = none)
    (hdir : t'.node? p ≠ some .dir) : t'.node? p = none := by
  rcases kept_makeParents (.inl h) p with heq | ⟨_, hdir', _⟩
  · rw [heq, hnone]
  · exact absurd hdir' hdir

/-- A refusal keeps every place. -/
theorem kept_of_refused (hfresh : Fresh t path tag) {f : Failure}
    (h : Replaced t path tag text t' (some f)) (p : Place) : Kept t t' (placesAbove path) p := by
  cases h with
  | noParents hparents => exact kept_makeParents (.inr ⟨_, hparents⟩) p
  | notWritten hparents => exact kept_makeParents (.inl hparents) p
  | refused hparents hwritten hpublish =>
    -- a directory created at the place of the temporary file would have kept it from being written
    have hnone := node?_eq_none_of_makeParents hparents hfresh hwritten.absent
    refine (kept_makeParents (.inl hparents) p).trans (.of_eq ?_)
    rw [hwritten.publish_refused hpublish, hwritten.node?_drop hnone]

/-- A success keeps every place but that of the file. -/
theorem kept_of_replaced (hfresh : Fresh t path tag) (h : Replaced t path tag text t' none)
    (hp : p ≠ placeOf path) : Kept t t' (placesAbove path) p := by
  cases h with
  | done hparents hwritten hpublish =>
    have hnone := node?_eq_none_of_makeParents hparents hfresh hwritten.absent
    obtain ⟨-, -, -, rfl⟩ := hwritten.publish_done hpublish
    refine (kept_makeParents (.inl hparents) p).trans (.of_eq ?_)
    rw [node?_put_of_ne _ _ hp, hwritten.node?_drop hnone]

theorem read_of_replaced (h : Replaced t path tag text t' none) :
    t'.read path = .ok (.text text) := by
  cases h with
  | @done t₁ u v hparents hwritten hpublish =>
    obtain ⟨hlocate, hending, hdir, rfl⟩ := hwritten.publish_done hpublish
    -- nothing rules out here that the two places are one
    have hfile : u.node? (placeOf (tempName path tag)) = some (.file (.text text)) :=
      hwritten.eq_put ▸ node?_put_self hwritten.absent _
    have hdir' : (u.drop (placeOf (tempName path tag))).node? (placeOf path) ≠ some .dir := by
      by_cases heq : placeOf path = placeOf (tempName path tag)
      · rw [heq, node?_drop_self (by rw [hfile]; exact nofun)]
        exact nofun
      · rwa [node?_drop_of_ne u heq]
    -- neither place had a directory, so the way to the file is still open
    have hdirs : ∀ q, u.node? q = some .dir →
        ((u.drop (placeOf (tempName path tag))).put (placeOf path)
          (.file (.text text))).node? q = some .dir := fun q hq ↦ by
      have hpath : q ≠ placeOf path := fun heq ↦ hdir (heq ▸ hq)
      have htemp : q ≠ placeOf (tempName path tag) := fun heq ↦ by
        rw [heq, hfile] at hq
        exact absurd hq nofun
      rw [node?_put_of_ne _ _ hpath, node?_drop_of_ne u htemp, hq]
    exact read_of_locate (locate_of_dirs_kept hdirs hlocate) hending (node?_put_self hdir' _)

end Interleave.Snapshot
