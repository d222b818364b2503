import Interleave.Proofs.Memo.Loading

/-!
# What every memo keeps

Three things hold of every memo that can come about (`Memo.WellFormed`): each iRoot in a class has
evidence, each piece of evidence is found under the iRoot that it is about, and no iRoot is both
exposed and given up.

A memo comes about from a new or a loaded one by *edits*, the operations on a single memo, and by
merging memos that came about in this way (`Memo.Grown`). In a single dossier an edit is one of six
changes, or none at all (`Memo.edited_dossier`). So that a memo stays well-formed is a matter of
these changes, of the join of two dossiers, and of loading, where alone the classes come from
outside and have to be checked.
-/

namespace Interleave

/-! ## Edits -/

/-- An operation on one memo. A sample may use any source of randomness, and any way to shuffle. -/
inductive Edit : Type 1 where
  | record (id : IRootId) (r : Report)
  | refine (respectFailed : Bool)
  | close
  | clearPredicted
  | clearCandidates
  | sample {ρ : Type} (shuffle : Shuffle ρ) (catalog : Catalog) (idiom : Idiom) (num : Nat) (r : ρ)

/-- The memo after an edit. -/
def Memo.edit (m : Memo) : Edit → Memo
  | .record id r => m.record id r
  | .refine respectFailed => (m.refine respectFailed).memo
  | .close => m.closeUnexposed
  | .clearPredicted => m.clearPredicted
  | .clearCandidates => m.clearCandidates
  | .sample shuffle catalog idiom num r => (m.sample shuffle catalog idiom num r).1.memo

/-- What an edit may do to one dossier. -/
inductive Dossier.Edited : Edit → Dossier → Dossier → Prop where
  | other {id : IRootId} {r : Report} (d : Dossier) : Edited (.record id r) d d
  | record {r : Report} (d : Dossier) : Edited (.record d.iroot r) d (d.record r)
  | refine {respectFailed : Bool} (d : Dossier) :
    Edited (.refine respectFailed) d (d.refine respectFailed)
  | close (d : Dossier) : Edited .close d d.close
  | unpredict (d : Dossier) : Edited .clearPredicted d d.unpredict
  | unqueue (d : Dossier) : Edited .clearCandidates d d.unqueue
  | kept {ρ : Type} {shuffle : Shuffle ρ} {catalog : Catalog} {idiom : Idiom} {num : Nat} {r : ρ}
    (d : Dossier) : Edited (.sample shuffle catalog idiom num r) d d
  | dropped {ρ : Type} {shuffle : Shuffle ρ} {catalog : Catalog} {idiom : Idiom} {num : Nat} {r : ρ}
    (d : Dossier) : Edited (.sample shuffle catalog idiom num r) d d.unqueue

theorem Memo.edited_dossier (m : Memo) (e : Edit) (id : IRootId) :
    Dossier.Edited e (m.dossier id) ((m.edit e).dossier id) := by
  cases e with
  | record id' r =>
    rw [edit]
    by_cases h : id = id'
    · rw [h, dossier_record_self]
      exact .record (m.dossier id')
    · rw [dossier_record_of_ne _ h]
      exact .other _
  | refine respectFailed =>
    rw [edit, dossier_refine]
    exact .refine _
  | close =>
    rw [edit, dossier_closeUnexposed]
    exact .close _
  | clearPredicted =>
    rw [edit, dossier_clearPredicted]
    exact .unpredict _
  | clearCandidates =>
    rw [edit, dossier_clearCandidates]
    exact .unqueue _
  | sample shuffle catalog idiom num r =>
    rw [edit]
    rcases dossier_sample shuffle m catalog idiom num r id with h | h
    · rw [h]
      exact .kept _
    · rw [h]
      exact .dropped _

/-- The memos that come from first ones by edits and by merging two such memos. What is permitted
may depend on the memo that is edited. -/
inductive Memo.Grown (first : Memo → Prop) (permitted : Memo → Edit → Prop) : Memo → Prop where
  | first {m : Memo} : first m → Grown first permitted m
  | edit {m : Memo} {e : Edit} : Grown first permitted m → permitted m e →
    Grown first permitted (m.edit e)
  | merge {a b : Memo} : Grown first permitted a → Grown first permitted b →
    Grown first permitted (a.merge b)

namespace Memo.Grown

variable {first : Memo → Prop} {permitted : Memo → Edit → Prop}

theorem edits {m : Memo} (h : Grown first permitted m) {es : List Edit}
    (hes : ∀ k e, es[k]? = some e → permitted ((es.take k).foldl Memo.edit m) e) :
    Grown first permitted (es.foldl Memo.edit m) := by
  induction es generalizing m with
  | nil => exact h
  | cons e es ih =>
    rw [List.foldl_cons]
    exact ih (h.edit (hes 0 e rfl)) fun k e' he' ↦ hes (k + 1) e' he'

theorem mono {first' : Memo → Prop} {permitted' : Memo → Edit → Prop} {m : Memo}
    (h : Grown first permitted m) (hfirst : ∀ m, first m → first' m)
    (hpermitted : ∀ m e, permitted m e → permitted' m e) : Grown first' permitted' m := by
  induction h with
  | first h => exact .first (hfirst _ h)
  | edit _ he ih => exact ih.edit (hpermitted _ _ he)
  | merge _ _ iha ihb => exact iha.merge ihb

end Memo.Grown

/-- A memo that starts the work of a program: a new one, or one loaded over a catalog. -/
def Memo.Initial (m : Memo) : Prop := m = {} ∨ ∃ s catalog, ofSnapshot s catalog = .ok m

/-- The memos that can come about. -/
def Memo.Reachable : Memo → Prop := Grown Initial fun _ _ ↦ True

/-! ## Well-formed dossiers -/

namespace Dossier

/-- Whether the iRoot is in a class. -/
def isIn (d : Dossier) : MemoClass → Bool
  | .exposed => d.exposed
  | .failed => d.failed
  | .predicted => d.predicted
  | .shadowExposed => d.shadowExposed
  | .candidates => d.queued.isSome

/-- An iRoot in a class of a join is in that class on one of the two sides. -/
theorem isIn_of_isIn_join {a b : Dossier} {c : MemoClass} (h : (a.join b).isIn c = true) :
    a.isIn c = true ∨ b.isIn c = true := by
  cases c with
  | exposed | predicted | shadowExposed => exact Bool.or_eq_true_iff.mp h
  | failed => exact Bool.or_eq_true_iff.mp (Bool.and_eq_true_iff.mp h).1
  | candidates =>
    rw [isIn, join, SortedMap.isSome_joinValues] at h
    exact Bool.or_eq_true_iff.mp h

/-- Each class needs evidence, which is about the iRoot, and an exposed iRoot is not given up. -/
structure WellFormed (d : Dossier) : Prop where
  hasInfo : ∀ c, d.isIn c = true → d.info.isSome = true
  filed : ∀ e, d.info = some e → e.iroot = d.iroot
  disjoint : d.exposed = true → d.failed = false

namespace WellFormed

/-- What only takes an iRoot out of classes keeps its dossier well-formed. -/
theorem of_isIn_imp {d d' : Dossier} (h : d.WellFormed) (hiroot : d'.iroot = d.iroot)
    (hinfo : d'.info = d.info) (hmem : ∀ c, d'.isIn c = true → d.isIn c = true)
    (hexposed : d'.exposed = d.exposed) : d'.WellFormed where
  hasInfo c hc := hinfo ▸ h.hasInfo c (hmem c hc)
  filed e he := hiroot ▸ h.filed e (hinfo ▸ he)
  disjoint he := by
    have hfailed := h.disjoint (hexposed ▸ he)
    rw [Bool.eq_false_iff] at hfailed ⊢
    exact fun hf ↦ hfailed (hmem .failed hf)

/-- What an observation finds or makes is about the iRoot. -/
theorem iroot_evidence {d : Dossier} (h : d.WellFormed) : d.evidence.iroot = d.iroot := by
  rw [evidence]
  cases hinfo : d.info with
  | none => rfl
  | some e => exact h.filed e hinfo

theorem record {d : Dossier} (h : d.WellFormed) (r : Report) : (d.record r).WellFormed := by
  have hdisjoint := h.disjoint
  constructor
  · intro c _
    cases r <;> rfl
  · intro e he
    -- no report renames the evidence
    cases r <;> exact Option.some.inj he ▸ h.iroot_evidence
  · cases r with
    | observed | async | predicted | shadowExposed | queued => exact hdisjoint
    | success => exact fun _ ↦ rfl
    | failure =>
      intro he
      have he : d.exposed = true := he
      simp [Dossier.record, he, hdisjoint he]

theorem refine {d : Dossier} (h : d.WellFormed) (respectFailed : Bool) :
    (d.refine respectFailed).WellFormed := by
  refine h.of_isIn_imp rfl rfl (fun c hc ↦ ?_) rfl
  cases c with
  | candidates =>
    rw [isIn, Dossier.refine] at hc
    exact Option.isSome_of_isSome_filter _ _ hc
  | exposed | failed | predicted | shadowExposed => exact hc

theorem close {d : Dossier} (h : d.WellFormed) : d.close.WellFormed := by
  constructor
  · intro c hc
    cases c with
    | failed =>
      -- given up before, or by closing, which looks at those with evidence only
      have hfailed := h.hasInfo .failed
      simp only [isIn, Dossier.close] at hc hfailed ⊢
      grind
    | exposed => exact h.hasInfo .exposed hc
    | predicted => exact h.hasInfo .predicted hc
    | shadowExposed => exact h.hasInfo .shadowExposed hc
    | candidates => exact h.hasInfo .candidates hc
  · exact h.filed
  · intro he
    have he : d.exposed = true := he
    simp [Dossier.close, he, h.disjoint he]

theorem unpredict {d : Dossier} (h : d.WellFormed) : d.unpredict.WellFormed := by
  refine h.of_isIn_imp rfl rfl (fun c hc ↦ ?_) rfl
  cases c with
  | predicted => exact absurd hc Bool.false_ne_true
  | exposed | failed | shadowExposed | candidates => exact hc

theorem unqueue {d : Dossier} (h : d.WellFormed) : d.unqueue.WellFormed := by
  refine h.of_isIn_imp rfl rfl (fun c hc ↦ ?_) rfl
  cases c with
  | candidates => exact absurd hc Bool.false_ne_true
  | exposed | failed | predicted | shadowExposed => exact hc

theorem edited {e : Edit} {d d' : Dossier} (h : d.WellFormed) (he : Edited e d d') :
    d'.WellFormed := by
  cases he with
  | other | kept => exact h
  | record => exact h.record _
  | refine => exact h.refine _
  | close => exact h.close
  | unpredict => exact h.unpredict
  | unqueue | dropped => exact h.unqueue

/-- What is known of one iRoot on two sides is about it on both. -/
theorem join {a b : Dossier} (ha : a.WellFormed) (hb : b.WellFormed) (hiroot : b.iroot = a.iroot) :
    (a.join b).WellFormed := by
  constructor
  · intro c hc
    rw [Dossier.join, SortedMap.isSome_joinValues, Bool.or_eq_true]
    exact (isIn_of_isIn_join hc).imp (ha.hasInfo c) (hb.hasInfo c)
  · intro e he
    have he : SortedMap.joinValues Evidence.join a.info b.info = some e := he
    cases hinfo : a.info with
    | none =>
      rw [hinfo, SortedMap.joinValues_none_left] at he
      exact (hb.filed e he).trans hiroot
    | some x =>
      rw [hinfo] at he
      cases hother : b.info with
      | none =>
        rw [hother] at he
        exact ha.filed e (hinfo.trans he)
      | some y =>
        rw [hother] at he
        exact Option.some.inj he ▸ ha.filed x hinfo
  · intro he
    have he : (a.exposed || b.exposed) = true := he
    simp [Dossier.join, he]

end WellFormed

end Dossier

/-! ## Well-formed memos -/

namespace Memo

structure WellFormed (m : Memo) : Prop where
  hasInfo : ∀ c id, (m.members c).contains id = true → (m.info? id).isSome = true
  filed : ∀ id e, m.info? id = some e → e.iroot = id
  disjoint : ∀ id, m.exposed.contains id = true → m.failed.contains id = false

theorem contains_members (m : Memo) (c : MemoClass) (id : IRootId) :
    (m.members c).contains id = (m.dossier id).isIn c := by
  cases c with
  | exposed | failed | predicted | shadowExposed => rfl
  | candidates => exact SortedSet.contains_ofKeys _ id

theorem wellFormed_iff {m : Memo} : m.WellFormed ↔ ∀ id, (m.dossier id).WellFormed := by
  constructor
  · intro h id
    exact ⟨fun c hc ↦ h.hasInfo c id (contains_members m c id ▸ hc), h.filed id, h.disjoint id⟩
  · intro h
    exact ⟨fun c id hc ↦ (h id).hasInfo c (contains_members m c id ▸ hc),
      fun id ↦ (h id).filed, fun id ↦ (h id).disjoint⟩

theorem wellFormed_new : ({} : Memo).WellFormed := by
  refine wellFormed_iff.mpr fun id ↦ ?_
  rw [dossier_new]
  refine ⟨fun c hc ↦ ?_, fun e he ↦ absurd he.symm (Option.some_ne_none e), fun _ ↦ rfl⟩
  cases c <;> exact absurd hc Bool.false_ne_true

/-- Loading checks that the classes have evidence, reads each piece of it under the iRoot that it
names, and reads what is listed as both exposed and given up as exposed. -/
theorem wellFormed_ofSnapshot {s : Snapshot} {catalog : Catalog} {m : Memo}
    (h : ofSnapshot s catalog = .ok m) : m.WellFormed := by
  obtain ⟨-, hdangling, rfl⟩ := ofSnapshot_eq_ok_iff.mp h
  rw [dangling?_eq_none_iff] at hdangling
  refine ⟨fun c id hc ↦ hdangling c id (mem_listed_of_contains_unchecked hc),
    fun id e he ↦ Snapshot.iroot_of_get?_evidence he, fun id he ↦ ?_⟩
  rw [Snapshot.unchecked] at he ⊢
  rw [SortedSet.contains_diff, he]
  exact Bool.and_false _

theorem WellFormed.edit {m : Memo} (h : m.WellFormed) (e : Edit) : (m.edit e).WellFormed :=
  wellFormed_iff.mpr fun id ↦ (wellFormed_iff.mp h id).edited (m.edited_dossier e id)

theorem WellFormed.merge {a b : Memo} (ha : a.WellFormed) (hb : b.WellFormed) :
    (a.merge b).WellFormed := by
  rw [wellFormed_iff] at ha hb ⊢
  intro id
  rw [dossier_merge]
  exact (ha id).join (hb id) rfl

theorem Reachable.wellFormed {m : Memo} (h : m.Reachable) : m.WellFormed := by
  induction h with
  | first h =>
    rcases h with rfl | ⟨s, catalog, h⟩
    · exact wellFormed_new
    · exact wellFormed_ofSnapshot h
  | edit _ _ ih => exact ih.edit _
  | merge _ _ iha ihb => exact iha.merge ihb

/-- **What every memo keeps.** Whatever has been recorded, tidied, loaded and merged, each iRoot in
a class has evidence, the evidence that stands under an iRoot names it, and no iRoot is both exposed
and given up. -/
theorem reachable_invariant {m : Memo} (h : m.Reachable) :
    (∀ c id, (m.members c).contains id = true → (m.info? id).isSome = true) ∧
      (∀ id e, m.info? id = some e → e.iroot = id) ∧
      ∀ id, ¬(m.exposed.contains id = true ∧ m.failed.contains id = true) := by
  have hm := h.wellFormed
  refine ⟨hm.hasInfo, hm.filed, fun id ⟨he, hf⟩ ↦ ?_⟩
  rw [hm.disjoint id he] at hf
  exact Bool.false_ne_true hf

/-- An iRoot listed as exposed and given up is loaded, and a shard that gave it up is merged in. -/
theorem reachable_invariant_overlapping :
    ∃ m : Memo, m.Reachable ∧ m.exposed.contains ⟨1⟩ = true ∧ m.failed.contains ⟨2⟩ = true ∧
      (∃ e, m.info? ⟨1⟩ = some e ∧ e.iroot = ⟨1⟩) ∧
      ¬(m.exposed.contains ⟨1⟩ = true ∧ m.failed.contains ⟨1⟩ = true) := by
  let s : Snapshot :=
    { info := [⟨⟨1⟩, 6, none⟩, ⟨⟨2⟩, 6, none⟩], exposed := [⟨1⟩], failed := [⟨2⟩, ⟨1⟩] }
  let catalog : Catalog :=
    { iroots := .ofList [(⟨1⟩, ⟨⟨1⟩, .idiom1, []⟩), (⟨2⟩, ⟨⟨2⟩, .idiom1, []⟩)] }
  have hloaded : Reachable s.unchecked := by
    refine .first (.inr ⟨s, catalog, ofSnapshot_eq_ok_iff.mpr ⟨?_, ?_, rfl⟩⟩) <;> decide
  have hshard : Reachable ((List.replicate 6 (.record ⟨1⟩ .failure)).foldl Memo.edit {}) :=
    Grown.edits (.first (.inl rfl)) fun _ _ _ ↦ trivial
  have h := Grown.merge hloaded hshard
  have hexposed : (Memo.merge s.unchecked ((List.replicate 6 (.record ⟨1⟩ .failure)).foldl
      Memo.edit {})).exposed.contains ⟨1⟩ = true := by decide
  obtain ⟨hinfo, hfiled, hdisjoint⟩ := reachable_invariant h
  obtain ⟨e, he⟩ := Option.isSome_iff_exists.mp (hinfo .exposed ⟨1⟩ hexposed)
  exact ⟨_, h, hexposed, by decide, ⟨e, he, hfiled ⟨1⟩ e he⟩, hdisjoint ⟨1⟩⟩

end Memo

end Interleave
