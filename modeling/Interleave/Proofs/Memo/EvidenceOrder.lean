import Interleave.Proofs.Memo.WellFormed
import Mathlib

/-!
# Merging joins what two memos know

Memos are ordered by what they know: `a.Below b` says that `b` has all the evidence of `a`, with
counters and flags at least as far on. The merge of two memos is their least upper bound in this
order, so shards can be folded into a memo in any order and grouping, and any number of times.

The rules by which a merge treats its six parts differ, and the given-up set is corrected by the
exposed one. Seen through the right eyes they are one rule. The *rank* of a dossier is its image in
a lattice built from numbers and truth values: absent things rank below present ones, exposed and
given up are the upper two of three degrees, all else is compared as it stands. There the join of
two dossiers is the supremum (`Dossier.rank_join`), and the order of memos is the order of the ranks
(`Memo.below_iff_rank_le`). So what is to be shown about merges is known of suprema. The one thing
to add is that a well-formed memo has the rank of no other: of a dossier that is exposed and given
up at once the rank would not tell the second.
-/

namespace Interleave

/-! ## The order -/

/-- Whether asynchronous events are involved: first unknown, then not, then for sure. -/
def asyncLevel : Option Bool → ℕ
  | none => 0
  | some false => 1
  | some true => 2

/-- How far targeted runs have got with an iRoot. -/
inductive Standing where
  | unclassified
  | failed
  | exposed
  deriving DecidableEq

def Standing.level : Standing → ℕ
  | unclassified => 0
  | failed => 1
  | exposed => 2

instance : LE Standing := ⟨fun s t ↦ s.level ≤ t.level⟩

def Dossier.standing (d : Dossier) : Standing :=
  if d.exposed then .exposed else if d.failed then .failed else .unclassified

namespace Memo

def standing (m : Memo) (id : IRootId) : Standing := (m.dossier id).standing

/-- All that `a` knows is known to `b`. -/
structure Below (a b : Memo) : Prop where
  info : ∀ id e, a.info? id = some e → ∃ e', b.info? id = some e' ∧
    e.runs ≤ e'.runs ∧ asyncLevel e.isAsync ≤ asyncLevel e'.isAsync
  standing : ∀ id, a.standing id ≤ b.standing id
  predicted : ∀ id, a.predicted.contains id = true → b.predicted.contains id = true
  shadowExposed : ∀ id, a.shadowExposed.contains id = true → b.shadowExposed.contains id = true
  candidates : ∀ id n, a.candidateRuns? id = some n → ∃ k, b.candidateRuns? id = some k ∧ n ≤ k

end Memo

/-! ## Ranks -/

section Level

variable {α β : Type} (f : α → β)

/-- The image of what may be absent, in an order with a least element for absence. -/
def level : Option α → WithBot β
  | none => ⊥
  | some a => (f a : WithBot β)

theorem level_le_iff [LE β] {x y : Option α} :
    level f x ≤ level f y ↔ ∀ a, x = some a → ∃ b, y = some b ∧ f a ≤ f b := by
  cases x with
  | none => simp [level]
  | some a => cases y <;> simp [level]

theorem level_joinValues [SemilatticeSup β] {g : α → α → α} (hg : ∀ a b, f (g a b) = f a ⊔ f b)
    (x y : Option α) : level f (SortedMap.joinValues g x y) = level f x ⊔ level f y := by
  cases x with
  | none =>
    rw [SortedMap.joinValues_none_left]
    exact (bot_sup_eq _).symm
  | some a =>
    cases y with
    | none => exact (sup_bot_eq _).symm
    | some b =>
      rw [SortedMap.joinValues_some_some, level, hg, WithBot.coe_sup]
      rfl

/-- What may be absent is known from its image if what is present is. -/
theorem eq_of_level_eq {x y : Option α} (hf : ∀ a b, x = some a → y = some b → f a = f b → a = b)
    (h : level f x = level f y) : x = y := by
  cases x <;> cases y <;> simp_all [level]

end Level

/-- The rank of a piece of evidence: its two degrees of knowledge. -/
def Evidence.rank (e : Evidence) : ℕ × ℕ := (e.runs.toNat, asyncLevel e.isAsync)

theorem asyncLevel_injective : Function.Injective asyncLevel := by
  intro x y h
  rcases x with _ | _ | _ <;> rcases y with _ | _ | _ <;> first | rfl | cases h

namespace Evidence

/-- Evidence about one iRoot is known from its rank. -/
theorem eq_of_rank_eq {a b : Evidence} (hiroot : a.iroot = b.iroot) (h : a.rank = b.rank) :
    a = b := by
  obtain ⟨hruns, hasync⟩ := Prod.ext_iff.mp h
  cases a
  cases b
  obtain rfl := hiroot
  congr 1
  · exact UInt32.toNat_inj.mp hruns
  · exact asyncLevel_injective hasync

theorem rank_join (a b : Evidence) : (a.join b).rank = a.rank ⊔ b.rank := by
  refine Prod.ext ?_ ?_
  · exact UInt32.toNat_max a.runs b.runs
  · obtain ⟨_, _, x⟩ := a
    obtain ⟨_, _, y⟩ := b
    rcases x with _ | _ | _ <;> rcases y with _ | _ | _ <;> rfl

theorem join_self (a : Evidence) : a.join a = a := by
  refine eq_of_rank_eq rfl ?_
  rw [rank_join, sup_idem]

theorem join_join_right (a b : Evidence) : (a.join b).join b = a.join b := by
  refine eq_of_rank_eq rfl ?_
  rw [rank_join, rank_join, sup_assoc, sup_idem]

end Evidence

namespace Dossier

/-- Where ranks live. -/
abbrev Rank : Type := WithBot (ℕ × ℕ) × ℕ × Prop × Prop × WithBot ℕ

def rank (d : Dossier) : Rank :=
  (level Evidence.rank d.info, d.standing.level, d.predicted = true, d.shadowExposed = true,
    level UInt32.toNat d.queued)

/-- The correction of the given-up set by the exposed one is what makes the standing of a join the
higher of the two. -/
theorem level_standing_join (a b : Dossier) :
    (a.join b).standing.level = a.standing.level ⊔ b.standing.level := by
  obtain ⟨_, _, ea, fa, _⟩ := a
  obtain ⟨_, _, eb, fb, _⟩ := b
  cases ea <;> cases eb <;> cases fa <;> cases fb <;> rfl

theorem rank_join (a b : Dossier) : (a.join b).rank = a.rank ⊔ b.rank := by
  refine Prod.ext ?_ (Prod.ext ?_ (Prod.ext ?_ (Prod.ext ?_ ?_)))
  · exact level_joinValues Evidence.rank Evidence.rank_join a.info b.info
  · exact level_standing_join a b
  · exact Bool.or_eq_true a.predicted b.predicted
  · exact Bool.or_eq_true a.shadowExposed b.shadowExposed
  · exact level_joinValues UInt32.toNat UInt32.toNat_max a.queued b.queued

theorem standing_inj {a b : Dossier} (ha : a.WellFormed) (hb : b.WellFormed)
    (h : a.standing.level = b.standing.level) : a.exposed = b.exposed ∧ a.failed = b.failed := by
  -- without disjointness, exposed alone and exposed with given up would have one standing
  have hda := ha.disjoint
  have hdb := hb.disjoint
  rw [standing, standing] at h
  cases hea : a.exposed <;> cases heb : b.exposed <;> cases hfa : a.failed <;>
    cases hfb : b.failed <;> simp_all [Standing.level]

/-- Well-formed dossiers of one iRoot and rank are the same. -/
theorem eq_of_rank_eq {a b : Dossier} (ha : a.WellFormed) (hb : b.WellFormed)
    (hiroot : a.iroot = b.iroot) (h : a.rank = b.rank) : a = b := by
  simp only [rank, Prod.mk.injEq] at h
  obtain ⟨hinfo, hstanding, hpredicted, hshadow, hqueued⟩ := h
  obtain ⟨hexposed, hfailed⟩ := standing_inj ha hb hstanding
  have hinfo := eq_of_level_eq _ (fun e e' he he' ↦ Evidence.eq_of_rank_eq
    ((ha.filed e he).trans (hiroot.trans (hb.filed e' he').symm))) hinfo
  have hqueued := eq_of_level_eq _ (fun _ _ _ _ ↦ UInt32.toNat_inj.mp) hqueued
  cases a
  cases b
  simp_all

end Dossier

namespace Memo

def rank (m : Memo) : IRootId → Dossier.Rank := fun id ↦ (m.dossier id).rank

theorem rank_merge (a b : Memo) : (a.merge b).rank = a.rank ⊔ b.rank := by
  funext id
  rw [rank, dossier_merge, Dossier.rank_join]
  rfl

theorem eq_of_rank_eq {a b : Memo} (ha : a.WellFormed) (hb : b.WellFormed) (h : a.rank = b.rank) :
    a = b :=
  ext_dossier fun id ↦ Dossier.eq_of_rank_eq (wellFormed_iff.mp ha id) (wellFormed_iff.mp hb id)
    rfl (congrFun h id)

/-- The order of memos is that of their ranks. -/
theorem below_iff_rank_le {a b : Memo} : a.Below b ↔ a.rank ≤ b.rank := by
  constructor
  · intro h id
    refine ⟨(level_le_iff _).mpr fun e he ↦ ?_, h.standing id, h.predicted id, h.shadowExposed id,
      (level_le_iff _).mpr fun n hn ↦ ?_⟩
    · obtain ⟨e', he', hruns, hasync⟩ := h.info id e he
      exact ⟨e', he', UInt32.le_iff_toNat_le.mp hruns, hasync⟩
    · obtain ⟨k, hk, hle⟩ := h.candidates id n hn
      exact ⟨k, hk, UInt32.le_iff_toNat_le.mp hle⟩
  · intro h
    refine ⟨fun id e he ↦ ?_, fun id ↦ (h id).2.1, fun id ↦ (h id).2.2.1, fun id ↦ (h id).2.2.2.1,
      fun id n hn ↦ ?_⟩
    · obtain ⟨e', he', hruns, hasync⟩ := (level_le_iff _).mp (h id).1 e he
      exact ⟨e', he', UInt32.le_iff_toNat_le.mpr hruns, hasync⟩
    · obtain ⟨k, hk, hle⟩ := (level_le_iff _).mp (h id).2.2.2.2 n hn
      exact ⟨k, hk, UInt32.le_iff_toNat_le.mpr hle⟩

namespace Below

variable {a b c : Memo}

theorem refl (a : Memo) : a.Below a := below_iff_rank_le.mpr le_rfl

theorem trans (hab : a.Below b) (hbc : b.Below c) : a.Below c :=
  below_iff_rank_le.mpr ((below_iff_rank_le.mp hab).trans (below_iff_rank_le.mp hbc))

theorem antisymm (ha : a.WellFormed) (hb : b.WellFormed) (hab : a.Below b) (hba : b.Below a) :
    a = b :=
  eq_of_rank_eq ha hb ((below_iff_rank_le.mp hab).antisymm (below_iff_rank_le.mp hba))

end Below

end Memo

/-! ## Plans of merges

A plan fixes what is merged with what. The rank of its result is the least upper bound of the ranks
of the memos in it, which is a matter of what these memos are and not of the plan. -/

inductive MergePlan where
  | memo (m : Memo)
  | merge (p q : MergePlan)

namespace MergePlan

def result : MergePlan → Memo
  | memo m => m
  | merge p q => p.result.merge q.result

def memos : MergePlan → List Memo
  | memo m => [m]
  | merge p q => p.memos ++ q.memos

/-- The plan that merges one shard after another into a memo. -/
def ofShards (m : Memo) (shards : List Memo) : MergePlan :=
  shards.foldl (fun p s ↦ merge p (memo s)) (memo m)

theorem result_foldl (p : MergePlan) (shards : List Memo) :
    (shards.foldl (fun p s ↦ merge p (memo s)) p).result = shards.foldl Memo.merge p.result := by
  induction shards generalizing p with
  | nil => rfl
  | cons s shards ih => exact ih (merge p (memo s))

theorem memos_foldl (p : MergePlan) (shards : List Memo) :
    (shards.foldl (fun p s ↦ merge p (memo s)) p).memos = p.memos ++ shards := by
  induction shards generalizing p with
  | nil => exact (List.append_nil _).symm
  | cons s shards ih =>
    rw [List.foldl_cons, ih, memos, memos, List.append_assoc]
    rfl

theorem result_ofShards (m : Memo) (shards : List Memo) :
    (ofShards m shards).result = shards.foldl Memo.merge m := result_foldl (memo m) shards

theorem mem_memos_ofShards {m : Memo} {shards : List Memo} {x : Memo} :
    x ∈ (ofShards m shards).memos ↔ x = m ∨ x ∈ shards := by
  rw [ofShards, memos_foldl, memos, List.mem_append, List.mem_singleton]

theorem isLUB_rank_result (p : MergePlan) :
    IsLUB (Memo.rank '' {m | m ∈ p.memos}) p.result.rank := by
  induction p with
  | memo m =>
    have hmemos : Memo.rank '' {x | x ∈ (memo m).memos} = {m.rank} := by simp [memos]
    rw [hmemos]
    exact isLUB_singleton
  | merge p q ihp ihq =>
    -- two least upper bounds join to that of the union, shared memos or not
    have hmemos : {x | x ∈ (merge p q).memos} = {x | x ∈ p.memos} ∪ {x | x ∈ q.memos} :=
      Set.ext fun _ ↦ List.mem_append
    rw [hmemos, Set.image_union, result, Memo.rank_merge]
    exact ihp.union ihq

theorem wellFormed_result {p : MergePlan} (h : ∀ m ∈ p.memos, m.WellFormed) :
    p.result.WellFormed := by
  induction p with
  | memo m => exact h m List.mem_cons_self
  | merge p q ihp ihq =>
    exact (ihp fun m hm ↦ h m (List.mem_append_left _ hm)).merge
      (ihq fun m hm ↦ h m (List.mem_append_right _ hm))

/-- Two plans over the same memos have the same result. -/
theorem result_eq {p q : MergePlan} (h : ∀ m ∈ p.memos, m.WellFormed)
    (hpq : ∀ m, m ∈ p.memos ↔ m ∈ q.memos) : p.result = q.result := by
  have hmemos : {m | m ∈ p.memos} = {m | m ∈ q.memos} := Set.ext hpq
  have hp := isLUB_rank_result p
  rw [hmemos] at hp
  exact Memo.eq_of_rank_eq (wellFormed_result h)
    (wellFormed_result fun m hm ↦ h m ((hpq m).mpr hm)) (hp.unique (isLUB_rank_result q))

end MergePlan

namespace Memo

theorem below_merge_left (a b : Memo) : a.Below (a.merge b) := by
  rw [below_iff_rank_le, rank_merge]
  exact le_sup_left

theorem below_merge_right (a b : Memo) : b.Below (a.merge b) := by
  rw [below_iff_rank_le, rank_merge]
  exact le_sup_right

theorem merge_below {a b c : Memo} (ha : a.Below c) (hb : b.Below c) : (a.merge b).Below c := by
  rw [below_iff_rank_le, rank_merge]
  exact sup_le (below_iff_rank_le.mp ha) (below_iff_rank_le.mp hb)

/-- **Merging is joining.** A merge is the least upper bound of its two sides. So sides can be
swapped, merges regrouped, and repeated merges left out; and shards merged into a memo one by one
give what every plan over the same memos gives, however it orders, groups or repeats them. -/
theorem merge_isJoin {a b c : Memo} (ha : a.WellFormed) (hb : b.WellFormed) (hc : c.WellFormed)
    {shards : List Memo} (hshards : ∀ s ∈ shards, s.WellFormed) :
    ((a.merge b).WellFormed ∧ a.Below (a.merge b) ∧ b.Below (a.merge b) ∧
        (a.Below c → b.Below c → (a.merge b).Below c)) ∧
      a.merge b = b.merge a ∧ (a.merge b).merge c = a.merge (b.merge c) ∧ a.merge a = a ∧
      (∀ shards' : List Memo, (∀ s, s ∈ shards ↔ s ∈ shards') →
        shards.foldl merge a = shards'.foldl merge a) ∧
      ∀ p : MergePlan, (∀ m, m ∈ p.memos ↔ m = a ∨ m ∈ shards) →
        shards.foldl merge a = p.result := by
  have hplan : ∀ p : MergePlan, (∀ m, m ∈ p.memos ↔ m = a ∨ m ∈ shards) →
      shards.foldl merge a = p.result := by
    intro p hp
    rw [← MergePlan.result_ofShards]
    refine MergePlan.result_eq (fun m hm ↦ ?_)
      fun m ↦ MergePlan.mem_memos_ofShards.trans (hp m).symm
    rcases MergePlan.mem_memos_ofShards.mp hm with rfl | hm
    · exact ha
    · exact hshards m hm
  refine ⟨⟨ha.merge hb, below_merge_left a b, below_merge_right a b, merge_below⟩, ?_, ?_, ?_, ?_,
    hplan⟩
  · refine eq_of_rank_eq (ha.merge hb) (hb.merge ha) ?_
    rw [rank_merge, rank_merge, sup_comm]
  · refine eq_of_rank_eq ((ha.merge hb).merge hc) (ha.merge (hb.merge hc)) ?_
    rw [rank_merge, rank_merge, rank_merge, rank_merge, sup_assoc]
  · refine eq_of_rank_eq (ha.merge ha) ha ?_
    rw [rank_merge, sup_idem]
  · intro shards' h
    rw [hplan (MergePlan.ofShards a shards')
      fun m ↦ MergePlan.mem_memos_ofShards.trans (or_congr_right (h m).symm)]
    exact MergePlan.result_ofShards a shards'

/-- One shard gave up an iRoot, another exposed it. -/
theorem merge_isJoin_failed_exposed :
    let a : Memo := (List.replicate 6 (.record ⟨1⟩ .failure)).foldl Memo.edit {}
    let b : Memo := [.record ⟨1⟩ .success, .record ⟨2⟩ .queued].foldl Memo.edit {}
    a.standing ⟨1⟩ = .failed ∧ b.standing ⟨1⟩ = .exposed ∧ (a.merge b).standing ⟨1⟩ = .exposed ∧
      a.Below (a.merge b) ∧ b.Below (a.merge b) ∧ a.merge b = b.merge a ∧
      [b, b, a].foldl merge a = [a, b].foldl merge a := by
  intro a b
  have ha : a.WellFormed :=
    Reachable.wellFormed (Grown.edits (.first (.inl rfl)) fun _ _ _ ↦ trivial)
  have hb : b.WellFormed :=
    Reachable.wellFormed (Grown.edits (.first (.inl rfl)) fun _ _ _ ↦ trivial)
  have hshards : ∀ s ∈ [b, b, a], s.WellFormed := by simp [ha, hb]
  obtain ⟨⟨-, hle, hle', -⟩, hcomm, -, -, hfold, -⟩ := merge_isJoin ha hb ha hshards
  refine ⟨by decide, by decide, by decide, hle, hle', hcomm, hfold [a, b] fun s ↦ ?_⟩
  simp only [List.mem_cons, List.not_mem_nil, or_false]
  tauto

end Memo

end Interleave
