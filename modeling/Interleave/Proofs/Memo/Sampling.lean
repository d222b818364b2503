import Interleave.Memo.Offline
import Interleave.Proofs.Memo.Dossier

/-!
# Sampling

A sample shuffles the queue of an idiom and takes out what comes to stand in front. All that it
needs of the shuffle is that it permutes its list (`Shuffle.Permutes`): how many candidates go and
stay is known beforehand then, whatever is drawn (`Memo.sample_exact`). The exchanges that are in
use do so with every source of randomness (`permutes_shuffle`).

What is taken out is a function of the queue, the number that may stay, and the state of the source.
The queue is in ascending order, hence known from the identifiers in it; retry counters and whatever
else the memo holds have no say. And as the shuffle does not ask for the number, samples of
different sizes from one state cut the same order at different places. For samples that are drawn
from a seed these are statements about two or more runs (`Memo.seeded_determined_by_queue`).
-/

namespace Interleave

/-! ## Shuffling -/

/-- Whatever is drawn, nothing is lost or doubled. -/
def Shuffle.Permutes {ρ : Type} (shuffle : Shuffle ρ) : Prop := ∀ l r, (shuffle l r).1.Perm l

theorem toList_swapIfInBounds_perm {α : Type} (a : Array α) (i j : ℕ) :
    (a.swapIfInBounds i j).toList.Perm a.toList := by
  rw [Array.swapIfInBounds]
  split
  · split
    · exact (Array.swap_perm _ _).toList
    · exact .refl _
  · exact .refl _

theorem shuffleFrom_perm {ρ α : Type} [RandomSource ρ] (i : ℕ) (a : Array α) (r : ρ) :
    (shuffleFrom i a r).1.toList.Perm a.toList := by
  induction i generalizing a r with
  | zero => exact .refl _
  | succ i ih =>
    rw [shuffleFrom]
    -- which position is drawn does not matter
    rcases drawBelow (i + 2) drawTries r with ⟨j, r'⟩
    exact (ih _ r').trans (toList_swapIfInBounds_perm a (i + 1) j)

theorem permutes_shuffle {ρ : Type} [RandomSource ρ] :
    Shuffle.Permutes (shuffle : Shuffle ρ) :=
  fun l r ↦ shuffleFrom_perm (l.length - 1) l.toArray r

namespace Memo

variable {ρ : Type} {shuffle : Shuffle ρ} {l : List IRootId} {num num' : ℕ} {r : ρ}

/-! ## What is dropped -/

/-- The front of a list in random order, without which `num` of it are left. -/
def dropped (shuffle : Shuffle ρ) (l : List IRootId) (num : ℕ) (r : ρ) : List IRootId :=
  (shuffle l r).1.take (l.length - num)

theorem mem_of_mem_dropped (h : shuffle.Permutes) {id : IRootId}
    (hid : id ∈ dropped shuffle l num r) : id ∈ l :=
  (h l r).mem_iff.mp (List.take_subset _ _ hid)

theorem nodup_dropped (h : shuffle.Permutes) (hl : l.Nodup) : (dropped shuffle l num r).Nodup :=
  ((h l r).nodup_iff.mpr hl).sublist (List.take_sublist _ _)

theorem length_dropped (h : shuffle.Permutes) (l : List IRootId) (num : ℕ) (r : ρ) :
    (dropped shuffle l num r).length = l.length - num := by
  rw [dropped, List.length_take, (h l r).length_eq]
  exact Nat.min_eq_left (Nat.sub_le _ _)

theorem dropped_eq_nil (h : l.length ≤ num) : dropped shuffle l num r = [] := by
  rw [dropped, Nat.sub_eq_zero_of_le h, List.take_zero]

/-- The more may stay, the fewer are dropped. -/
theorem dropped_subset_dropped (h : num ≤ num') :
    dropped shuffle l num' r ⊆ dropped shuffle l num r :=
  List.take_subset_take_left _ (Nat.sub_le_sub_left h _)

/-- In a longer list without repetitions, what is dropped from `l` stands in some other order. -/
theorem filter_contains_dropped_perm (h : shuffle.Permutes) {ids : List IRootId} (hl : l.Nodup)
    (hids : ids.Nodup) (hsub : l ⊆ ids) (num : ℕ) (r : ρ) :
    (ids.filter (dropped shuffle l num r).contains).Perm (dropped shuffle l num r) := by
  refine (List.perm_ext_iff_of_nodup (hids.filter _) (nodup_dropped h hl)).mpr fun a ↦ ?_
  rw [List.mem_filter, List.contains_iff_mem]
  exact and_iff_right_of_imp fun hid ↦ hsub (mem_of_mem_dropped h hid)

/-! ## The queue of an idiom -/

/-- The candidates of an idiom, in order. -/
def queue (m : Memo) (catalog : Catalog) (idiom : Idiom) : List IRootId :=
  m.candidates.keys.filter fun id ↦ catalog.idiomOf? id == some idiom

theorem keys_candidatesFor (m : Memo) (catalog : Catalog) (idiom : Idiom) :
    (m.candidatesFor catalog idiom).keys = m.queue catalog idiom :=
  SortedMap.keys_filter _ fun id ↦ catalog.idiomOf? id == some idiom

variable {m m' : Memo} {catalog catalog' : Catalog} {idiom idiom' : Idiom} {id : IRootId}
  {ids ids' : List IRootId}

theorem mem_queue_iff :
    id ∈ m.queue catalog idiom ↔
      m.candidates.contains id = true ∧ catalog.idiomOf? id = some idiom := by
  rw [queue, List.mem_filter, SortedMap.mem_keys_iff, beq_iff_eq]

theorem nodup_queue (m : Memo) (catalog : Catalog) (idiom : Idiom) :
    (m.queue catalog idiom).Nodup :=
  (SortedMap.nodup_keys m.candidates.ascending).filter _

/-- A queue is known from what is in it. -/
theorem queue_congr (h : ∀ id, id ∈ m.queue catalog idiom ↔ id ∈ m'.queue catalog' idiom') :
    m.queue catalog idiom = m'.queue catalog' idiom' := by
  have hset : SortedSet.ofKeys (m.candidatesFor catalog idiom) =
      SortedSet.ofKeys (m'.candidatesFor catalog' idiom') := by
    refine SortedSet.ext_contains fun id ↦ ?_
    rw [Bool.eq_iff_iff, SortedSet.contains_ofKeys, SortedSet.contains_ofKeys,
      ← SortedMap.mem_keys_iff, ← SortedMap.mem_keys_iff, keys_candidatesFor, keys_candidatesFor]
    exact h id
  rw [← keys_candidatesFor, ← keys_candidatesFor, ← SortedSet.keys_ofKeys, hset,
    SortedSet.keys_ofKeys]

/-! ## Taking candidates out -/

/-- The memo without some of the candidates. -/
def unqueue (m : Memo) (ids : List IRootId) : Memo :=
  { m with candidates := m.candidates.filter fun id _ ↦ !ids.contains id }

@[simp] theorem unqueue_nil (m : Memo) : m.unqueue [] = m := by
  have hcandidates : (m.candidates.filter fun id _ ↦ !([] : List IRootId).contains id) =
      m.candidates := SortedMap.ext_entries (List.filter_eq_self.mpr fun _ _ ↦ rfl)
  rw [unqueue, hcandidates]

theorem unqueue_comm (m : Memo) (ids ids' : List IRootId) :
    (m.unqueue ids).unqueue ids' = (m.unqueue ids').unqueue ids := by
  simp only [unqueue]
  congr 1
  exact SortedMap.ext_entries (List.filter_comm _ _ _)

theorem candidateRuns?_unqueue_of_mem (h : id ∈ ids) :
    (m.unqueue ids).candidateRuns? id = none := by
  rw [candidateRuns?, unqueue, SortedMap.get?_filter]
  cases m.candidates.get? id <;> simp [h]

theorem candidateRuns?_unqueue_of_not_mem (h : id ∉ ids) :
    (m.unqueue ids).candidateRuns? id = m.candidateRuns? id := by
  rw [candidateRuns?, unqueue, SortedMap.get?_filter, candidateRuns?]
  cases m.candidates.get? id <;> simp [h]

theorem keys_unqueue (m : Memo) (ids : List IRootId) :
    (m.unqueue ids).candidates.keys = m.candidates.keys.filter fun id ↦ !ids.contains id :=
  SortedMap.keys_filter _ fun id ↦ !ids.contains id

theorem queue_unqueue (m : Memo) (ids : List IRootId) (catalog : Catalog) (idiom : Idiom) :
    (m.unqueue ids).queue catalog idiom =
      (m.queue catalog idiom).filter fun id ↦ !ids.contains id := by
  rw [queue, queue, keys_unqueue, List.filter_comm]

theorem contains_unqueue (m : Memo) (ids : List IRootId) (id : IRootId) :
    (m.unqueue ids).candidates.contains id = (m.candidates.contains id && !ids.contains id) :=
  SortedMap.contains_filter m.candidates (fun id ↦ !ids.contains id) id

/-! ## A sample -/

/-- A sample takes out what is dropped from the queue of its idiom, also when that is nothing. -/
theorem sample_fst (shuffle : Shuffle ρ) (m : Memo) (catalog : Catalog) (idiom : Idiom) (num : ℕ)
    (r : ρ) :
    (m.sample shuffle catalog idiom num r).1 =
      ⟨m.unqueue (dropped shuffle (m.queue catalog idiom) num r),
        (m.queue catalog idiom).length - num⟩ := by
  rw [sample, keys_candidatesFor]
  dsimp only
  split
  · next hfew => rw [dropped_eq_nil hfew, unqueue_nil, Nat.sub_eq_zero_of_le hfew]
  · rfl

theorem sample_of_length_le (shuffle : Shuffle ρ) (h : (m.queue catalog idiom).length ≤ num)
    (r : ρ) :
    m.sample shuffle catalog idiom num r = (⟨m, 0⟩, r) := by
  rw [sample, keys_candidatesFor]
  exact if_pos h

theorem mem_queue_of_mem_dropped (h : shuffle.Permutes)
    (hid : id ∈ dropped shuffle (m.queue catalog idiom) num r) :
    m.candidates.contains id = true ∧ catalog.idiomOf? id = some idiom :=
  mem_queue_iff.mp (mem_of_mem_dropped h hid)

/-- Those that are gone are those that were dropped. -/
theorem gone_perm (h : shuffle.Permutes) (m : Memo) (catalog : Catalog) (idiom : Idiom) (num : ℕ)
    (r : ρ) :
    let ids := dropped shuffle (m.queue catalog idiom) num r
    (m.candidates.keys.filter fun id ↦ !(m.unqueue ids).candidates.contains id).Perm ids := by
  intro ids
  have hgone : ∀ id ∈ m.candidates.keys,
      (!(m.unqueue ids).candidates.contains id) = ids.contains id := by
    intro id hid
    rw [contains_unqueue, SortedMap.mem_keys_iff.mp hid, Bool.true_and, Bool.not_not]
  rw [List.filter_congr hgone]
  exact filter_contains_dropped_perm h (m.nodup_queue catalog idiom)
    (SortedMap.nodup_keys m.candidates.ascending) List.filter_sublist.subset num r

theorem length_queue_unqueue_dropped (h : shuffle.Permutes) (m : Memo) (catalog : Catalog)
    (idiom : Idiom) (num : ℕ) (r : ρ) :
    ((m.unqueue (dropped shuffle (m.queue catalog idiom) num r)).queue catalog idiom).length =
      min (m.queue catalog idiom).length num := by
  have hnodup := m.nodup_queue catalog idiom
  have hdropped :=
    (filter_contains_dropped_perm h hnodup hnodup (List.Subset.refl _) num r).length_eq
  have hsplit := List.length_eq_length_filter_add (l := m.queue catalog idiom)
    (dropped shuffle (m.queue catalog idiom) num r).contains
  rw [queue_unqueue]
  rw [length_dropped h] at hdropped
  omega

/-- **A sample is exact.** Let `q` candidates of an idiom be queued, and let the shuffle permute
what it is given. Whatever the source of randomness and its state, a sample of `num` takes out
`q - num` of them and says so, and as many as it was to keep, or all if there are no more, are left.
Those that are left have the counters that they had, candidates of other idioms or of none stay as
they are, and nothing but the queue is changed. If there are no more than `num`, the memo is the
same and nothing is drawn. -/
theorem sample_exact (h : shuffle.Permutes) (m : Memo) (catalog : Catalog) (idiom : Idiom) (num : ℕ)
    (r : ρ) :
    let queued := m.queue catalog idiom
    let sampled := (m.sample shuffle catalog idiom num r).1
    let gone := m.candidates.keys.filter fun id ↦ !sampled.memo.candidates.contains id
    sampled.removed = queued.length - num ∧ gone.length = queued.length - num ∧
      gone ⊆ queued ∧ (sampled.memo.queue catalog idiom).length = min queued.length num ∧
      (∀ id n, sampled.memo.candidateRuns? id = some n → m.candidateRuns? id = some n) ∧
      (∀ id, catalog.idiomOf? id ≠ some idiom →
        sampled.memo.candidateRuns? id = m.candidateRuns? id) ∧
      sampled.memo = { m with candidates := sampled.memo.candidates } ∧
      (queued.length ≤ num →
        sampled.memo = m ∧ (m.sample shuffle catalog idiom num r).2 = r) := by
  intro queued sampled gone
  have hsampled :
      sampled = ⟨m.unqueue (dropped shuffle queued num r), queued.length - num⟩ :=
    m.sample_fst shuffle catalog idiom num r
  have hgone : gone.Perm (dropped shuffle queued num r) := by
    have hperm := m.gone_perm h catalog idiom num r
    simpa only [gone, hsampled] using hperm
  refine ⟨by rw [hsampled], ?_, ?_, ?_, ?_, ?_, ?_, ?_⟩
  · rw [hgone.length_eq, length_dropped h]
  · intro id hid
    exact mem_of_mem_dropped h (hgone.mem_iff.mp hid)
  · rw [hsampled]
    exact m.length_queue_unqueue_dropped h catalog idiom num r
  · intro id n hn
    rw [hsampled] at hn
    by_cases hid : id ∈ dropped shuffle queued num r
    · rw [candidateRuns?_unqueue_of_mem hid] at hn
      exact absurd hn (Option.some_ne_none n).symm
    · rwa [candidateRuns?_unqueue_of_not_mem hid] at hn
  · intro id hother
    rw [hsampled]
    exact candidateRuns?_unqueue_of_not_mem fun hid ↦ hother (mem_queue_of_mem_dropped h hid).2
  · rw [hsampled]
    rfl
  · intro hfew
    have hsame := sample_of_length_le shuffle hfew r
    exact ⟨congrArg (fun s ↦ s.1.memo) hsame, congrArg Prod.snd hsame⟩

/-- Two of three candidates are kept, drawn from a seed by the shuffle in use. -/
theorem sample_exact_two_of_three :
    let catalog : Catalog :=
      { iroots := .ofList [(⟨1⟩, ⟨⟨1⟩, .idiom1, []⟩), (⟨2⟩, ⟨⟨2⟩, .idiom1, []⟩),
          (⟨3⟩, ⟨⟨3⟩, .idiom1, []⟩), (⟨4⟩, ⟨⟨4⟩, .idiom2, []⟩)] }
    let m : Memo := { candidates := .ofList [(⟨1⟩, 0), (⟨2⟩, 1), (⟨3⟩, 0), (⟨4⟩, 1)] }
    let sampled := (m.sample Interleave.shuffle catalog .idiom1 2 (WordStream.ofSeed 7)).1
    Shuffle.Permutes (Interleave.shuffle : Shuffle WordStream) ∧ sampled.removed = 1 ∧
      (sampled.memo.queue catalog .idiom1).length = 2 ∧
      sampled.memo.candidateRuns? ⟨4⟩ = some 1 := by
  intro catalog m sampled
  have hthree : (m.queue catalog .idiom1).length = 3 := by decide
  obtain ⟨hremoved, -, -, hleft, -, hothers, -⟩ :=
    sample_exact permutes_shuffle m catalog .idiom1 2 (WordStream.ofSeed 7)
  rw [hthree] at hremoved hleft
  exact ⟨permutes_shuffle, hremoved, hleft, hothers ⟨4⟩ (by decide)⟩

/-! ## Several samples -/

theorem queue_sample (shuffle : Shuffle ρ) (m : Memo) (catalog : Catalog) (idiom : Idiom) (num : ℕ)
    (r : ρ) :
    (m.sample shuffle catalog idiom num r).1.memo.queue catalog idiom =
      (m.queue catalog idiom).filter fun id ↦
        !(dropped shuffle (m.queue catalog idiom) num r).contains id := by
  rw [sample_fst, queue_unqueue]

/-- A sample leaves the queues of the other idioms alone. -/
theorem queue_sample_of_ne (h : shuffle.Permutes) (hne : idiom' ≠ idiom) (m : Memo)
    (catalog : Catalog) (num : ℕ) (r : ρ) :
    (m.sample shuffle catalog idiom num r).1.memo.queue catalog idiom' =
      m.queue catalog idiom' := by
  rw [sample_fst, queue_unqueue, List.filter_eq_self]
  intro id hid
  have hidiom := (mem_queue_iff.mp hid).2
  rw [Bool.not_eq_true', Bool.eq_false_iff, Ne, List.contains_iff_mem]
  intro hdropped
  -- what was dropped has the other idiom
  exact hne (Option.some.inj (hidiom.symm.trans (mem_queue_of_mem_dropped h hdropped).2))

theorem sample_comm (h : shuffle.Permutes) (hne : idiom' ≠ idiom) (m : Memo) (catalog : Catalog)
    (num num' : ℕ) (r r' : ρ) :
    ((m.sample shuffle catalog idiom num r).1.memo.sample shuffle catalog idiom' num' r').1.memo =
      ((m.sample shuffle catalog idiom' num' r').1.memo.sample shuffle catalog idiom num
        r).1.memo := by
  rw [sample_fst shuffle (m.sample shuffle catalog idiom num r).1.memo, queue_sample_of_ne h hne,
    sample_fst shuffle (m.sample shuffle catalog idiom' num' r').1.memo,
    queue_sample_of_ne h hne.symm, sample_fst shuffle m, sample_fst shuffle m]
  exact m.unqueue_comm _ _

theorem queue_sample_subset (hle : num ≤ num') (shuffle : Shuffle ρ) (m : Memo) (catalog : Catalog)
    (idiom : Idiom) (r : ρ) :
    (m.sample shuffle catalog idiom num r).1.memo.queue catalog idiom ⊆
      (m.sample shuffle catalog idiom num' r).1.memo.queue catalog idiom := by
  intro id hid
  rw [queue_sample, List.mem_filter, Bool.not_eq_true', Bool.eq_false_iff, Ne,
    List.contains_iff_mem] at hid ⊢
  exact ⟨hid.1, fun hdropped ↦ hid.2 (dropped_subset_dropped hle hdropped)⟩

/-- The memo after a sample that is drawn from a seed. -/
def seeded (shuffle : Shuffle ρ) (ofSeed : UInt64 → ρ) (m : Memo) (catalog : Catalog)
    (idiom : Idiom) (num : ℕ) (seed : UInt64) : Memo :=
  (m.sample shuffle catalog idiom num (ofSeed seed)).1.memo

/-- **A seeded sample is made of the queued identifiers alone.** Let the shuffle permute what it is
given. If the same identifiers are queued for an idiom in two memos, each seen through a catalog of
its own, then the same of them are left by samples of one size and seed, whatever else the memos
hold. So samples of two idioms may be taken in either order. From one seed a smaller sample is part
of a greater one. And a change of a memo file that names a seed takes this sample, with the shuffle
and the stream of words in use, whatever seed it might have chosen itself. -/
theorem seeded_determined_by_queue (h : shuffle.Permutes) (ofSeed : UInt64 → ρ) (m : Memo)
    (catalog : Catalog) (idiom : Idiom) (num : ℕ) (seed : UInt64) :
    let sampled := m.seeded shuffle ofSeed catalog idiom num seed
    (∀ (m' : Memo) (catalog' : Catalog) (idiom' : Idiom),
        (∀ id, id ∈ m.queue catalog idiom ↔ id ∈ m'.queue catalog' idiom') →
          sampled.queue catalog idiom =
            (m'.seeded shuffle ofSeed catalog' idiom' num seed).queue catalog' idiom') ∧
      (∀ idiom' num' seed', idiom' ≠ idiom →
        sampled.seeded shuffle ofSeed catalog idiom' num' seed' =
          (m.seeded shuffle ofSeed catalog idiom' num' seed').seeded shuffle ofSeed catalog idiom
            num seed) ∧
      (∀ num', num ≤ num' →
        sampled.queue catalog idiom ⊆
          (m.seeded shuffle ofSeed catalog idiom num' seed).queue catalog idiom) ∧
      ∀ chosen other, (MemoChange.sample idiom num (some seed)).applyTo catalog chosen other m =
        m.seeded Interleave.shuffle WordStream.ofSeed catalog idiom num seed := by
  intro sampled
  refine ⟨fun m' catalog' idiom' hsame ↦ ?_, fun idiom' num' seed' hne ↦ ?_, fun num' hle ↦ ?_,
    fun chosen other ↦ rfl⟩
  · have hqueue : m.queue catalog idiom = m'.queue catalog' idiom' := queue_congr hsame
    calc sampled.queue catalog idiom
      _ = (m.queue catalog idiom).filter fun id ↦
          !(dropped shuffle (m.queue catalog idiom) num (ofSeed seed)).contains id :=
        m.queue_sample shuffle catalog idiom num _
      _ = (m'.queue catalog' idiom').filter fun id ↦
          !(dropped shuffle (m'.queue catalog' idiom') num (ofSeed seed)).contains id := by
        rw [hqueue]
      _ = (m'.seeded shuffle ofSeed catalog' idiom' num seed).queue catalog' idiom' :=
        (m'.queue_sample shuffle catalog' idiom' num _).symm
  · exact sample_comm h hne m catalog num num' _ _
  · exact queue_sample_subset hle shuffle m catalog idiom _

/-- Two memos with the same candidates, tried more or less often, are thinned out alike by the
shuffle in use. -/
theorem seeded_determined_by_queue_retried :
    let catalog : Catalog :=
      { iroots := .ofList [(⟨1⟩, ⟨⟨1⟩, .idiom1, []⟩), (⟨2⟩, ⟨⟨2⟩, .idiom1, []⟩)] }
    let m : Memo := { candidates := .ofList [(⟨1⟩, 0), (⟨2⟩, 0)] }
    let m' : Memo := { candidates := .ofList [(⟨1⟩, 1), (⟨2⟩, 0)], exposed := .ofList [⟨1⟩] }
    let thin := fun (m : Memo) ↦
      m.seeded Interleave.shuffle WordStream.ofSeed catalog .idiom1 1 7
    Shuffle.Permutes (Interleave.shuffle : Shuffle WordStream) ∧ m ≠ m' ∧
      (thin m).queue catalog .idiom1 = (thin m').queue catalog .idiom1 := by
  intro catalog m m' thin
  have hsame : m.queue catalog .idiom1 = m'.queue catalog .idiom1 := by decide
  obtain ⟨hthin, -⟩ :=
    seeded_determined_by_queue permutes_shuffle WordStream.ofSeed m catalog .idiom1 1 7
  exact ⟨permutes_shuffle, by decide, hthin m' catalog .idiom1 fun id ↦ by rw [hsame]⟩

end Memo

end Interleave
