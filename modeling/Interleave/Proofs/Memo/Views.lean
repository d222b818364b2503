import Interleave.Proofs.Campaign.Reloading
import Interleave.Proofs.Databases.References

/-!
# The views of a memo add up

Through a catalog each class of a memo is seen as five views, one for each idiom, and reports count
the members of each view by themselves. An iRoot that the catalog does not know is in none of them.
So the views make up the class, and their counts its size, only because there is no such iRoot in
the memo: whatever is in a class has evidence, evidence is about catalogued iRoots, and tidying and
merging memos over one catalog keep it so (`Memo.Tidied`).

Counts of several classes are compared as sizes of sets: of a union (`SortedSet.size_union`), and of
sets that have no member in common.
-/

namespace Interleave

/-! ## Sizes of sets -/

namespace SortedSet

variable {κ α : Type} [Ord κ] [Std.TransOrd κ] [Std.LawfulEqOrd κ] {s t : SortedSet κ}

/-- The members that are in `t` too. -/
def inter (s t : SortedSet κ) : SortedSet κ := filter s t.contains

omit [Std.TransOrd κ] in
theorem contains_inter (s t : SortedSet κ) (k : κ) :
    (inter s t).contains k = (s.contains k && t.contains k) :=
  contains_filter s t.contains k

omit [Std.TransOrd κ] [Std.LawfulEqOrd κ] in
theorem size_filter (s : SortedSet κ) (p : κ → Bool) :
    (filter s p).size = (s.keys.filter p).length := by
  rw [← SortedMap.length_keys, filter, SortedMap.keys_filter]

omit [Std.TransOrd κ] [Std.LawfulEqOrd κ] in
theorem size_filter_add_size_filter_not (s : SortedSet κ) (p : κ → Bool) :
    (filter s p).size + (filter s fun k ↦ !p k).size = s.size :=
  (List.length_eq_length_filter_add fun e : κ × Unit ↦ p e.1).symm

/-- The members of a union that are not in the one set are in the other. -/
theorem size_union (s t : SortedSet κ) : (union s t).size = s.size + (diff t s).size := by
  have hleft : filter (union s t) s.contains = s := by
    refine ext_contains fun k ↦ ?_
    rw [contains_filter, contains_union]
    cases s.contains k <;> simp
  have hright : filter (union s t) (fun k ↦ !s.contains k) = diff t s := by
    refine ext_contains fun k ↦ ?_
    rw [contains_filter, contains_union, contains_diff]
    cases s.contains k <;> simp
  rw [← size_filter_add_size_filter_not (union s t) s.contains, hleft, hright]

theorem size_union_add_size_inter (s t : SortedSet κ) :
    (union s t).size + (inter s t).size = s.size + t.size := by
  have hcomm : filter t s.contains = inter s t := by
    refine ext_contains fun k ↦ ?_
    rw [contains_filter, contains_inter, Bool.and_comm]
  have hsplit : (inter s t).size + (diff t s).size = t.size := by
    rw [← hcomm]
    exact size_filter_add_size_filter_not t s.contains
  rw [size_union]
  omega

omit [Std.TransOrd κ] in
/-- There are no more members than keys that they are among. -/
theorem size_le_size {m : SortedMap κ α} (h : ∀ k, s.contains k = true → m.contains k = true) :
    s.size ≤ m.size := by
  have hkeys : s.keys ⊆ m.keys := by
    intro k hk
    exact SortedMap.mem_keys_iff.mpr (h k (SortedMap.mem_keys_iff.mp hk))
  rw [← SortedMap.length_keys, ← SortedMap.length_keys]
  exact (SortedMap.nodup_keys s.ascending).length_le_of_subset hkeys

theorem size_add_size_le {m : SortedMap κ α} (hs : ∀ k, s.contains k = true → m.contains k = true)
    (ht : ∀ k, t.contains k = true → m.contains k = true)
    (hdisjoint : ∀ k, s.contains k = true → t.contains k = false) : s.size + t.size ≤ m.size := by
  have hdiff : diff t s = t := by
    refine ext_contains fun k ↦ ?_
    rw [contains_diff]
    cases hk : s.contains k with
    | false => exact Bool.and_true _
    | true => rw [hdisjoint k hk, Bool.false_and]
  have hunion : (union s t).size ≤ m.size := by
    refine size_le_size fun k hk ↦ ?_
    rw [contains_union, Bool.or_eq_true] at hk
    exact hk.elim (hs k) (ht k)
  rwa [size_union, hdiff] at hunion

end SortedSet

/-! ## Counts for each idiom -/

/-- All counts together. -/
def PerIdiom.sum (f : PerIdiom ℕ) : ℕ := f.toList.foldr (· + ·) 0

/-- If one of the counts is greater by one, so is their sum. -/
theorem PerIdiom.sum_of_one_more {f g : PerIdiom ℕ} {i : Idiom} (hi : g i = f i + 1)
    (hother : ∀ j, j ≠ i → g j = f j) : g.sum = f.sum + 1 := by
  have hg : g = fun j ↦ if j = i then f j + 1 else f j := by
    funext j
    by_cases hj : j = i
    · rw [if_pos hj, hj, hi]
    · rw [if_neg hj, hother j hj]
  rw [hg]
  cases i <;> simp [sum, toList, Idiom.all] <;> omega

namespace Catalog

variable {catalog : Catalog}

/-- Each of the identifiers counts for one idiom, if the catalog knows them all. -/
theorem length_eq_sum_of_known {ids : List IRootId}
    (h : ∀ id ∈ ids, ∃ i, catalog.idiomOf? id = some i) :
    ids.length =
      PerIdiom.sum fun i ↦ (ids.filter fun id ↦ catalog.idiomOf? id == some i).length := by
  induction ids with
  | nil => rfl
  | cons id ids ih =>
    obtain ⟨i, hi⟩ := h id List.mem_cons_self
    have hrest := ih fun id' hid' ↦ h id' (List.mem_cons_of_mem id hid')
    rw [List.length_cons, hrest]
    refine (PerIdiom.sum_of_one_more (i := i) ?_ fun j hj ↦ ?_).symm
    · rw [List.filter_cons, if_pos (beq_iff_eq.mpr hi), List.length_cons]
    · have hne : ¬(catalog.idiomOf? id == some j) = true := fun hj' ↦
        hj (Option.some.inj ((beq_iff_eq.mp hj').symm.trans hi))
      rw [List.filter_cons, if_neg hne]

end Catalog

/-! ## Counting -/

/-- The index tells the idioms apart. -/
theorem Idiom.index_inj {i j : Idiom} : i.index = j.index ↔ i = j := by
  cases i <;> cases j <;> decide

namespace ClassTally

theorem total_foldl_count (catalog : Catalog) (ids : List IRootId) (t : ClassTally) :
    (ids.foldl (count catalog) t).total = t.total + ids.length := by
  induction ids generalizing t with
  | nil => rfl
  | cons id ids ih =>
    rw [List.foldl_cons, ih, List.length_cons, Nat.add_comm ids.length, ← Nat.add_assoc]
    rfl

theorem ofList_count (catalog : Catalog) (t : ClassTally) (id : IRootId) (i : Idiom) :
    PerIdiom.ofList (t.count catalog id).atIndex i =
      PerIdiom.ofList t.atIndex i + if catalog.idiomOf? id == some i then 1 else 0 := by
  cases hidiom : catalog.idiomOf? id with
  | none =>
    simp only [count, hidiom]
    rfl
  | some j =>
    simp only [count, hidiom, PerIdiom.ofList, List.get_eq_getElem, List.getElem_modify,
      Idiom.index_inj, beq_iff_eq, Option.some.injEq]
    split <;> rfl

theorem ofList_foldl_count (catalog : Catalog) (ids : List IRootId) (t : ClassTally) (i : Idiom) :
    PerIdiom.ofList (ids.foldl (count catalog) t).atIndex i =
      PerIdiom.ofList t.atIndex i +
        (ids.filter fun id ↦ catalog.idiomOf? id == some i).length := by
  induction ids generalizing t with
  | nil => rfl
  | cons id ids ih =>
    rw [List.foldl_cons, ih, ofList_count, List.filter_cons]
    split
    · rw [List.length_cons, Nat.add_assoc, Nat.add_comm 1]
    · rfl

end ClassTally

namespace ClassCounts

variable (catalog : Catalog)

/-- What is counted one by one is the size of the class. -/
theorem total_ofIds (ids : SortedSet IRootId) : (ofIds catalog ids).total = ids.size := by
  rw [ofIds, ClassTally.total_foldl_count, SortedMap.length_keys]
  exact Nat.zero_add _

/-- And for each idiom the size of its view. -/
theorem perIdiom_ofIds (ids : SortedSet IRootId) (i : Idiom) :
    (ofIds catalog ids).perIdiom i = (Memo.ofIdiom catalog i ids).size := by
  have hzero : PerIdiom.ofList ({} : ClassTally).atIndex i = 0 := by cases i <;> rfl
  rw [ofIds, Memo.ofIdiom, SortedSet.size_filter]
  dsimp only
  rw [ClassTally.ofList_foldl_count, hzero, Nat.zero_add]

theorem total_eq_sum {ids : SortedSet IRootId}
    (h : ∀ id, ids.contains id = true → ∃ i, catalog.idiomOf? id = some i) :
    (ofIds catalog ids).total = (ofIds catalog ids).perIdiom.sum := by
  have hcounts : (ofIds catalog ids).perIdiom =
      fun i ↦ (ids.keys.filter fun id ↦ catalog.idiomOf? id == some i).length := by
    funext i
    rw [perIdiom_ofIds]
    exact SortedSet.size_filter ids _
  rw [hcounts, ← Catalog.length_eq_sum_of_known fun id hid ↦ h id (SortedMap.mem_keys_iff.mp hid),
    total_ofIds, SortedMap.length_keys]

end ClassCounts

namespace Memo

variable {m : Memo} {catalog : Catalog} {i : Idiom} {c : MemoClass} {id : IRootId}

/-! ## Views -/

theorem contains_membersFor_iff :
    (m.membersFor catalog i c).contains id = true ↔
      (m.members c).contains id = true ∧ catalog.idiomOf? id = some i := by
  rw [membersFor, ofIdiom, SortedSet.contains_filter, Bool.and_eq_true, beq_iff_eq]

theorem get?_candidatesFor (m : Memo) (catalog : Catalog) (i : Idiom) (id : IRootId) :
    (m.candidatesFor catalog i).get? id =
      (m.candidateRuns? id).filter fun _ ↦ catalog.idiomOf? id == some i :=
  SortedMap.get?_filter _ _ _

theorem ofKeys_candidatesFor (m : Memo) (catalog : Catalog) (i : Idiom) :
    SortedSet.ofKeys (m.candidatesFor catalog i) = m.membersFor catalog i .candidates := by
  refine SortedSet.ext_contains fun id ↦ ?_
  rw [membersFor, ofIdiom, SortedSet.contains_filter, members, SortedSet.contains_ofKeys,
    SortedSet.contains_ofKeys]
  exact SortedMap.contains_filter m.candidates (fun id ↦ catalog.idiomOf? id == some i) id

/-- What was seen to happen of an idiom is in one of two of its views. -/
theorem observedFor_eq_union (m : Memo) (catalog : Catalog) (i : Idiom) :
    m.observedFor catalog i =
      SortedSet.union (m.membersFor catalog i .exposed)
        (m.membersFor catalog i .shadowExposed) := by
  refine SortedSet.ext_contains fun id ↦ ?_
  rw [observedFor, membersFor, membersFor, ofIdiom, ofIdiom, ofIdiom, SortedSet.contains_union,
    SortedSet.contains_filter, SortedSet.contains_filter, SortedSet.contains_filter,
    SortedSet.contains_union, Bool.and_or_distrib_right]
  rfl

theorem Tidied.exists_idiomOf? (h : Tidied catalog m) (hid : (m.members c).contains id = true) :
    ∃ i, catalog.idiomOf? id = some i :=
  h.wellFormed.exists_idiomOf? h.over (.inr ⟨c, hid⟩)

theorem contains_membersFor_of_ne {j : Idiom} (h : i ≠ j)
    (hi : (m.membersFor catalog i c).contains id = true) :
    (m.membersFor catalog j c).contains id = false := by
  rw [Bool.eq_false_iff]
  intro hj
  have hidiom := (contains_membersFor_iff.mp hi).2
  exact h (Option.some.inj (hidiom.symm.trans (contains_membersFor_iff.mp hj).2))

theorem Tidied.contains_members_iff (h : Tidied catalog m) :
    (m.members c).contains id = true ↔ ∃ i, (m.membersFor catalog i c).contains id = true := by
  constructor
  · intro hid
    obtain ⟨i, hi⟩ := h.exists_idiomOf? hid
    exact ⟨i, contains_membersFor_iff.mpr ⟨hid, hi⟩⟩
  · rintro ⟨i, hi⟩
    exact (contains_membersFor_iff.mp hi).1

theorem Tidied.exists_idiomOf?_of_queued (h : Tidied catalog m)
    (hid : m.candidates.contains id = true) : ∃ i, catalog.idiomOf? id = some i :=
  h.exists_idiomOf? (c := .candidates) (by rwa [members, SortedSet.contains_ofKeys])

theorem Tidied.candidateRuns?_eq_some_iff {n : UInt32} (h : Tidied catalog m) :
    m.candidateRuns? id = some n ↔ ∃ i, (m.candidatesFor catalog i).get? id = some n := by
  constructor
  · intro hn
    obtain ⟨i, hi⟩ := h.exists_idiomOf?_of_queued (Option.isSome_of_eq_some hn)
    refine ⟨i, ?_⟩
    rw [get?_candidatesFor, hn, Option.filter_some, if_pos (beq_iff_eq.mpr hi)]
  · rintro ⟨i, hi⟩
    rw [get?_candidatesFor] at hi
    exact (Option.filter_eq_some_iff.mp hi).1

/-- Something is left to do when something is left to do of an idiom. -/
theorem Tidied.hasCandidate_none_iff (h : Tidied catalog m) :
    m.hasCandidate catalog none = true ↔ ∃ i, m.hasCandidate catalog (some i) = true := by
  constructor
  · intro hany
    obtain ⟨id, hid, -⟩ := hasCandidate_iff.mp hany
    obtain ⟨i, hi⟩ := h.exists_idiomOf?_of_queued hid
    refine ⟨i, hasCandidate_iff.mpr ⟨id, hid, fun i' hi' ↦ ?_⟩⟩
    rw [hi, hi']
  · rintro ⟨i, hi⟩
    obtain ⟨id, hid, -⟩ := hasCandidate_iff.mp hi
    refine hasCandidate_iff.mpr ⟨id, hid, fun i' hi' ↦ ?_⟩
    contradiction

/-- **The views of a memo add up.** In a memo that was loaded over a catalog, and in all that
tidying and merging such memos make of it, the five views of a class have no iRoot in common and are
together the class; so its total is the sum of the counts for each idiom. The views of the queue
have the counters of the queue. As many iRoots of an idiom were seen to happen as are exposed and
shadow-exposed, less those that are both. There are no more exposed and given up iRoots than there
is evidence, and something is queued just when something is queued of one of the idioms. -/
theorem views_partition (h : Tidied catalog m) :
    let view := m.membersFor catalog
    let counts := (m.summary catalog).counts
    (∀ c i j id, i ≠ j → (view i c).contains id = true → (view j c).contains id = false) ∧
      (∀ c id, (m.members c).contains id = true ↔ ∃ i, (view i c).contains id = true) ∧
      (∀ i, SortedSet.ofKeys (m.candidatesFor catalog i) = view i .candidates) ∧
      (∀ id n, m.candidateRuns? id = some n ↔
        ∃ i, (m.candidatesFor catalog i).get? id = some n) ∧
      (∀ c, (counts c).total = (m.members c).size ∧ (counts c).total = (counts c).perIdiom.sum ∧
        ∀ i, (counts c).perIdiom i = (view i c).size) ∧
      (∀ i, m.observedCounts catalog i +
          (SortedSet.inter (view i .exposed) (view i .shadowExposed)).size =
        (counts .exposed).perIdiom i + (counts .shadowExposed).perIdiom i) ∧
      (counts .exposed).total + (counts .failed).total ≤ (m.summary catalog).withInfo ∧
      (m.hasCandidate catalog none = true ↔ ∃ i, m.hasCandidate catalog (some i) = true) := by
  intro view counts
  refine ⟨fun c i j id ↦ contains_membersFor_of_ne, fun c id ↦ h.contains_members_iff,
    m.ofKeys_candidatesFor catalog, fun id n ↦ h.candidateRuns?_eq_some_iff, fun c ↦ ?_,
    fun i ↦ ?_, ?_, h.hasCandidate_none_iff⟩
  · exact ⟨ClassCounts.total_ofIds catalog _,
      ClassCounts.total_eq_sum catalog fun id hid ↦ h.exists_idiomOf? hid,
      ClassCounts.perIdiom_ofIds catalog _⟩
  · have hexposed := ClassCounts.perIdiom_ofIds catalog (m.members .exposed) i
    have hshadow := ClassCounts.perIdiom_ofIds catalog (m.members .shadowExposed) i
    rw [observedCounts, observedFor_eq_union]
    exact (SortedSet.size_union_add_size_inter _ _).trans
      (congrArg₂ (· + ·) hexposed.symm hshadow.symm)
  · have hexposed := ClassCounts.total_ofIds catalog (m.members .exposed)
    have hfailed := ClassCounts.total_ofIds catalog (m.members .failed)
    exact (congrArg₂ (· + ·) hexposed hfailed).trans_le
      (SortedSet.size_add_size_le (h.wellFormed.hasInfo .exposed)
        (h.wellFormed.hasInfo .failed) h.wellFormed.disjoint)

/-- A memo and a shard are merged and closed: one of two iRoots that were seen was seen twice, and
every iRoot is exposed or given up. -/
theorem views_partition_closed :
    let catalog : Catalog :=
      { iroots := .ofList [(⟨1⟩, ⟨⟨1⟩, .idiom1, []⟩), (⟨2⟩, ⟨⟨2⟩, .idiom1, []⟩),
          (⟨3⟩, ⟨⟨3⟩, .idiom4, []⟩)] }
    let s : Snapshot :=
      { info := [⟨⟨1⟩, 1, none⟩, ⟨⟨2⟩, 0, none⟩], exposed := [⟨1⟩], shadowExposed := [⟨1⟩, ⟨2⟩] }
    let shard : Snapshot := { info := [⟨⟨3⟩, 0, none⟩], candidates := [⟨⟨3⟩, 0⟩] }
    let merged := (MemoChange.merge "shard.json").applyTo catalog 0 shard.unchecked s.unchecked
    let m := MemoChange.close.applyTo catalog 0 {} merged
    let counts := (m.summary catalog).counts
    ofSnapshot s catalog = .ok s.unchecked ∧ ofSnapshot shard catalog = .ok shard.unchecked ∧
      Tidied catalog m ∧ m.observedCounts catalog .idiom1 + 1 = 1 + 2 ∧
      (counts .failed).perIdiom .idiom1 = 1 ∧ (counts .failed).total = 2 ∧
      (counts .failed).total = (counts .failed).perIdiom.sum ∧
      (counts .exposed).total + (counts .failed).total ≤ 3 ∧
      ∃ i, m.hasCandidate catalog (some i) = true := by
  intro catalog s shard merged m counts
  have hs : ofSnapshot s catalog = .ok s.unchecked := by decide
  have hshard : ofSnapshot shard catalog = .ok shard.unchecked := by decide
  have hm : Tidied catalog m :=
    Tidied.applyTo (Tidied.applyTo (.first (.inr ⟨s, hs⟩)) (.first (.inr ⟨shard, hshard⟩)) _ 0)
      (.first (.inl rfl)) .close 0
  obtain ⟨-, -, -, -, hcounts, hobserved, hbound, hany⟩ := views_partition hm
  exact ⟨hs, hshard, hm, hobserved .idiom1, by decide, by decide, (hcounts .failed).2.1, hbound,
    hany.mp (by decide)⟩

end Memo

end Interleave
