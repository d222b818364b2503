import Interleave.Data.SortedMap
import Mathlib.Data.List.Dedup

/-!
# Look-ups in finite maps

A finite map is known by its look-ups: two maps that answer all of them alike are the same
(`ext_get?`). So each operation is described by what a look-up finds after it.
-/

namespace Interleave.SortedMap

universe u v w

variable {κ : Type u} {α : Type v} {β : Type w} [Ord κ] [Std.TransOrd κ] [Std.LawfulEqOrd κ]

/-! ## Look-ups in ascending entries -/

omit [Std.TransOrd κ] [Std.LawfulEqOrd κ] in
theorem lookup_eq_none {k : κ} {l : List (κ × α)} (h : ∀ e ∈ l, compare k e.1 ≠ .eq) :
    lookup k l = none := by
  induction l with
  | nil => rfl
  | cons e rest ih =>
    rw [lookup, if_neg (h e List.mem_cons_self), ih fun e he ↦ h e (List.mem_cons_of_mem _ he)]

omit [Std.TransOrd κ] [Std.LawfulEqOrd κ] in
/-- The first key does not stand again behind it. -/
theorem lookup_of_below {k : κ} {v : α} {rest : List (κ × α)} (hl : Ascending ((k, v) :: rest)) :
    lookup k rest = none :=
  lookup_eq_none fun e he ↦ by simp [(List.pairwise_cons.mp hl).1 e he]

omit [Std.LawfulEqOrd κ] in
/-- Nothing stands below the first entry. -/
theorem lookup_of_lt {k k' : κ} {v : α} {rest : List (κ × α)} (h : compare k k' = .lt)
    (hl : Ascending ((k', v) :: rest)) : lookup k ((k', v) :: rest) = none := by
  refine lookup_eq_none fun e he ↦ ?_
  rcases List.mem_cons.mp he with rfl | he
  · simp [h]
  · simp [Std.TransCmp.lt_trans h ((List.pairwise_cons.mp hl).1 e he)]

theorem lookup_alterEntries (k k' : κ) (f : Option α → Option α) {l : List (κ × α)}
    (h : Ascending l) :
    lookup k' (alterEntries k f l) =
      if compare k' k = .eq then f (lookup k l) else lookup k' l := by
  induction l with
  | nil =>
    simp only [alterEntries, lookup]
    split <;> simp [lookup, *]
  | cons e rest ih =>
    obtain ⟨k₁, v₁⟩ := e
    have hrest := (List.pairwise_cons.mp h).2
    simp only [alterEntries]
    split
    · next hlt =>
      rw [lookup_of_lt hlt h]
      split
      · next hf =>
        split
        · next heq =>
          obtain rfl := Std.LawfulEqCmp.eq_of_compare heq
          rw [lookup_of_lt hlt h, hf]
        · rfl
      · next hf => rw [lookup, hf]
    · next heq =>
      obtain rfl := Std.LawfulEqCmp.eq_of_compare heq
      have hk : lookup k ((k, v₁) :: rest) = some v₁ := by simp [lookup]
      rw [hk]
      split
      · next hf =>
        split
        · next heq' =>
          obtain rfl := Std.LawfulEqCmp.eq_of_compare heq'
          rw [hf, lookup_of_below h]
        · next hne => rw [lookup, if_neg hne]
      · next hf =>
        rw [lookup, hf]
        split
        · rfl
        · next hne => rw [lookup, if_neg hne]
    · next hgt =>
      have hne : compare k k₁ ≠ .eq := by simp [hgt]
      rw [lookup, lookup.eq_2 (k := k), if_neg hne, ih hrest, lookup.eq_2 (k := k')]
      split
      · next hk =>
        obtain rfl := Std.LawfulEqCmp.eq_of_compare hk
        rw [if_neg fun heq ↦ hne (Std.OrientedCmp.eq_comm.mp heq)]
      · rfl

/-! ## Changing one key -/

theorem get?_alter (m : SortedMap κ α) (k k' : κ) (f : Option α → Option α) :
    (m.alter k f).get? k' = if compare k' k = .eq then f (m.get? k) else m.get? k' :=
  lookup_alterEntries k k' f m.ascending

@[simp] theorem get?_alter_self (m : SortedMap κ α) (k : κ) (f : Option α → Option α) :
    (m.alter k f).get? k = f (m.get? k) := by
  simp [get?_alter]

theorem get?_alter_of_ne (m : SortedMap κ α) {k k' : κ} (h : k' ≠ k) (f : Option α → Option α) :
    (m.alter k f).get? k' = m.get? k' := by
  rw [get?_alter, if_neg fun heq ↦ h (Std.LawfulEqCmp.eq_of_compare heq)]

theorem get?_insert (m : SortedMap κ α) (k k' : κ) (v : α) :
    (m.insert k v).get? k' = if compare k' k = .eq then some v else m.get? k' :=
  get?_alter m k k' _

/-! ## Equality -/

/-- Ascending entries are determined by what is found in them. -/
theorem eq_of_lookup_eq {l l' : List (κ × α)} (hl : Ascending l) (hl' : Ascending l')
    (h : ∀ k, lookup k l = lookup k l') : l = l' := by
  induction l generalizing l' with
  | nil =>
    cases l' with
    | nil => rfl
    | cons e rest => simpa [lookup] using h e.1
  | cons e rest ih =>
    obtain ⟨k, v⟩ := e
    cases l' with
    | nil => simpa [lookup] using h k
    | cons e' rest' =>
      obtain ⟨k', v'⟩ := e'
      have hfound : lookup k ((k, v) :: rest) = some v := by simp [lookup]
      have hfound' : lookup k' ((k', v') :: rest') = some v' := by simp [lookup]
      obtain rfl : k = k' := by
        match hc : compare k k' with
        | .lt => simp [h, lookup_of_lt hc hl'] at hfound
        | .eq => exact Std.LawfulEqCmp.eq_of_compare hc
        | .gt => simp [← h, lookup_of_lt (Std.OrientedCmp.gt_iff_lt.mp hc) hl] at hfound'
      obtain rfl : v = v' := by simpa [lookup] using h k
      congr 1
      refine ih (List.pairwise_cons.mp hl).2 (List.pairwise_cons.mp hl').2 fun k₁ ↦ ?_
      by_cases hc : compare k₁ k = .eq
      · obtain rfl := Std.LawfulEqCmp.eq_of_compare hc
        rw [lookup_of_below hl, lookup_of_below hl']
      · simpa [lookup, hc] using h k₁

/-- Two maps that answer every look-up alike are the same. -/
theorem ext_get? {a b : SortedMap κ α} (h : ∀ k, a.get? k = b.get? k) : a = b :=
  ext_entries (eq_of_lookup_eq a.ascending b.ascending h)

/-! ## Changing all entries -/

omit [Std.TransOrd κ] in
theorem lookup_filter (p : κ → α → Bool) {l : List (κ × α)} (hl : Ascending l) (k : κ) :
    lookup k (l.filter fun e ↦ p e.1 e.2) = (lookup k l).filter (p k) := by
  induction l with
  | nil => rfl
  | cons e rest ih =>
    obtain ⟨k₁, v₁⟩ := e
    have ih := ih (List.pairwise_cons.mp hl).2
    by_cases hc : compare k k₁ = .eq
    · obtain rfl := Std.LawfulEqCmp.eq_of_compare hc
      rw [lookup_of_below hl] at ih
      by_cases hp : p k v₁ <;> simp [lookup, hp, ih, Option.filter]
    · by_cases hp : p k₁ v₁ <;> simp [lookup, hp, hc, ih]

omit [Std.TransOrd κ] in
theorem get?_filter (m : SortedMap κ α) (p : κ → α → Bool) (k : κ) :
    (m.filter p).get? k = (m.get? k).filter (p k) :=
  lookup_filter p m.ascending k

omit [Std.TransOrd κ] in
/-- What stays if only the key decides. -/
theorem contains_filter (m : SortedMap κ α) (p : κ → Bool) (k : κ) :
    (m.filter fun k _ ↦ p k).contains k = (m.contains k && p k) := by
  rw [contains, get?_filter, contains]
  cases m.get? k <;> cases p k <;> rfl

omit [Std.TransOrd κ] in
theorem get?_mapValues (m : SortedMap κ α) (f : κ → α → β) (k : κ) :
    (m.mapValues f).get? k = (m.get? k).map (f k) := by
  change lookup k (m.entries.map _) = (lookup k m.entries).map _
  induction m.entries with
  | nil => rfl
  | cons e rest ih =>
    obtain ⟨k₁, v₁⟩ := e
    by_cases hc : compare k k₁ = .eq
    · obtain rfl := Std.LawfulEqCmp.eq_of_compare hc
      simp [lookup]
    · simpa [lookup, hc] using ih

/-! ## Joining maps -/

/-- What a key holds in two maps together, `f` joining two values. -/
def joinValues (f : α → α → α) : Option α → Option α → Option α
  | some a, some b => some (f a b)
  | a, none => a
  | none, b => b

omit [Ord κ] [Std.TransOrd κ] [Std.LawfulEqOrd κ] in
@[simp] theorem joinValues_none_left (f : α → α → α) (b : Option α) : joinValues f none b = b := by
  cases b <;> rfl

omit [Ord κ] [Std.TransOrd κ] [Std.LawfulEqOrd κ] in
@[simp] theorem joinValues_none_right (f : α → α → α) (a : Option α) : joinValues f a none = a := by
  cases a <;> rfl

omit [Ord κ] [Std.TransOrd κ] [Std.LawfulEqOrd κ] in
@[simp] theorem joinValues_some_some (f : α → α → α) (a b : α) :
    joinValues f (some a) (some b) = some (f a b) := rfl

omit [Ord κ] [Std.TransOrd κ] [Std.LawfulEqOrd κ] in
theorem isSome_joinValues (f : α → α → α) (a b : Option α) :
    (joinValues f a b).isSome = (a.isSome || b.isSome) := by
  cases a <;> cases b <;> rfl

omit [Ord κ] [Std.TransOrd κ] [Std.LawfulEqOrd κ] in
theorem joinValues_comm {f : α → α → α} (hcomm : ∀ a b, f a b = f b a) (x y : Option α) :
    joinValues f x y = joinValues f y x := by
  cases x with
  | none => rw [joinValues_none_left, joinValues_none_right]
  | some a =>
    cases y with
    | none => rfl
    | some b => exact congrArg some (hcomm a b)

omit [Ord κ] [Std.TransOrd κ] [Std.LawfulEqOrd κ] in
/-- Joining a second time changes nothing. -/
theorem joinValues_joinValues_right {f : α → α → α} (hidem : ∀ a, f a a = a)
    (habsorb : ∀ a b, f (f a b) b = f a b) (x y : Option α) :
    joinValues f (joinValues f x y) y = joinValues f x y := by
  cases y with
  | none => rw [joinValues_none_right]
  | some b =>
    cases x with
    | none => exact congrArg some (hidem b)
    | some a => exact congrArg some (habsorb a b)

theorem get?_foldl_alter (f : α → α → α) {l : List (κ × α)} (hl : Ascending l)
    (m : SortedMap κ α) (k : κ) :
    (l.foldl (fun m e ↦ m.alter e.1 fun old ↦ some (old.elim e.2 (f · e.2))) m).get? k =
      joinValues f (m.get? k) (lookup k l) := by
  induction l generalizing m with
  | nil => cases h : m.get? k <;> simp [lookup, joinValues, h]
  | cons e rest ih =>
    obtain ⟨k₁, v₁⟩ := e
    rw [List.foldl_cons, ih (List.pairwise_cons.mp hl).2, get?_alter]
    by_cases hc : compare k k₁ = .eq
    · obtain rfl := Std.LawfulEqCmp.eq_of_compare hc
      rw [lookup_of_below hl]
      cases h : m.get? k <;> simp [lookup, joinValues]
    · simp [lookup, hc]

theorem get?_mergeWith (f : α → α → α) (m n : SortedMap κ α) (k : κ) :
    (m.mergeWith f n).get? k = joinValues f (m.get? k) (n.get? k) :=
  get?_foldl_alter f n.ascending m k

theorem contains_mergeWith (f : α → α → α) (m n : SortedMap κ α) (k : κ) :
    (m.mergeWith f n).contains k = (m.contains k || n.contains k) := by
  rw [contains, get?_mergeWith, isSome_joinValues, contains, contains]

/-! ## Maps from lists -/

omit [Std.TransOrd κ] [Std.LawfulEqOrd κ] in
theorem lookup_append (k : κ) (l l' : List (κ × α)) :
    lookup k (l ++ l') = (lookup k l).or (lookup k l') := by
  induction l with
  | nil => rfl
  | cons e rest ih =>
    rw [List.cons_append, lookup, lookup, ih]
    split <;> rfl

theorem get?_foldl_insert (l : List (κ × α)) (m : SortedMap κ α) (k : κ) :
    (l.foldl (fun m e ↦ m.insert e.1 e.2) m).get? k = (lookup k l.reverse).or (m.get? k) := by
  induction l generalizing m with
  | nil => rfl
  | cons e rest ih =>
    rw [List.foldl_cons, ih, List.reverse_cons, lookup_append, get?_insert, Option.or_assoc]
    congr 1
    rw [lookup]
    split <;> rfl

/-- Of several entries with one key the last counts. -/
theorem get?_ofList (l : List (κ × α)) (k : κ) : (ofList l).get? k = lookup k l.reverse := by
  rw [ofList, get?_foldl_insert]
  exact Option.or_none

omit [Std.TransOrd κ] in
theorem isSome_lookup_iff {k : κ} {l : List (κ × α)} :
    (lookup k l).isSome = true ↔ ∃ v, (k, v) ∈ l := by
  induction l with
  | nil => simp [lookup]
  | cons e rest ih =>
    obtain ⟨k', v'⟩ := e
    by_cases hc : compare k k' = .eq
    · obtain rfl := Std.LawfulEqCmp.eq_of_compare hc
      simp only [lookup, Std.ReflCmp.compare_self, if_true, Option.isSome_some, true_iff]
      exact ⟨v', List.mem_cons_self⟩
    · have hne : k ≠ k' := fun h ↦ hc (h ▸ Std.ReflCmp.compare_self)
      simp [lookup, hc, hne, ih]

omit [Std.TransOrd κ] in
theorem mem_of_lookup {k : κ} {v : α} {l : List (κ × α)} (h : lookup k l = some v) :
    (k, v) ∈ l := by
  induction l with
  | nil => exact nomatch h
  | cons e rest ih =>
    rw [lookup] at h
    split at h
    · next hk =>
      obtain rfl := Std.LawfulEqCmp.eq_of_compare hk
      obtain rfl := Option.some.inj h
      exact List.mem_cons_self
    · exact List.mem_cons_of_mem _ (ih h)

/-- What the map of a list holds stands in the list, and under its own key. -/
theorem mem_of_get?_ofList {k : κ} {v : α} {l : List α} {key : α → κ}
    (h : (ofList (l.map fun v ↦ (key v, v))).get? k = some v) : v ∈ l ∧ key v = k := by
  rw [get?_ofList] at h
  obtain ⟨v', hmem, heq⟩ := List.mem_map.mp (List.mem_reverse.mp (mem_of_lookup h))
  obtain ⟨rfl, rfl⟩ := Prod.mk.inj heq
  exact ⟨hmem, rfl⟩

theorem contains_ofList_iff {l : List (κ × α)} {k : κ} :
    (ofList l).contains k = true ↔ ∃ v, (k, v) ∈ l := by
  rw [contains, get?_ofList, isSome_lookup_iff]
  simp only [List.mem_reverse]

/-! ## Entries -/

omit [Std.TransOrd κ] in
/-- Ascending keys are pairwise distinct. -/
theorem nodup_keys {l : List (κ × α)} (hl : Ascending l) : (l.map (·.1)).Nodup := by
  refine List.pairwise_map.mpr (hl.imp fun {a b} hlt heq ↦ ?_)
  have hrefl : compare b.1 b.1 = .eq := Std.ReflCmp.compare_self
  rw [heq, hrefl] at hlt
  exact Ordering.noConfusion hlt

omit [Std.TransOrd κ] in
theorem lookup_eq_some_iff {k : κ} {v : α} {l : List (κ × α)} (hl : (l.map (·.1)).Nodup) :
    lookup k l = some v ↔ (k, v) ∈ l := by
  induction l with
  | nil => simp [lookup]
  | cons e rest ih =>
    obtain ⟨k', v'⟩ := e
    obtain ⟨hnew, hrest⟩ := List.nodup_cons.mp hl
    by_cases hc : compare k k' = .eq
    · obtain rfl := Std.LawfulEqCmp.eq_of_compare hc
      have hrest : (k, v) ∉ rest := fun h ↦ hnew (List.mem_map.mpr ⟨_, h, rfl⟩)
      simp [lookup, hrest, eq_comm]
    · have hne : k ≠ k' := fun h ↦ hc (h ▸ Std.ReflCmp.compare_self)
      simp [lookup, hc, hne, ih hrest]

omit [Std.TransOrd κ] in
/-- Entries with distinct keys have one value for each key, so their order does not matter. -/
theorem lookup_perm {l l' : List (κ × α)} (hl : (l.map (·.1)).Nodup) (h : l.Perm l') (k : κ) :
    lookup k l = lookup k l' := by
  have hl' : (l'.map (·.1)).Nodup := (h.map _).nodup_iff.mp hl
  refine Option.ext fun v ↦ ?_
  rw [lookup_eq_some_iff hl, lookup_eq_some_iff hl', h.mem_iff]

omit [Std.TransOrd κ] in
/-- The entries of a map are what can be looked up in it. -/
theorem mem_entries_iff {m : SortedMap κ α} {k : κ} {v : α} :
    (k, v) ∈ m.entries ↔ m.get? k = some v :=
  (lookup_eq_some_iff (nodup_keys m.ascending)).symm

omit [Std.TransOrd κ] in
theorem mem_keys_iff {m : SortedMap κ α} {k : κ} : k ∈ m.keys ↔ m.contains k = true := by
  rw [contains, get?, isSome_lookup_iff, keys, List.mem_map]
  constructor
  · rintro ⟨⟨_, v⟩, he, rfl⟩
    exact ⟨v, he⟩
  · rintro ⟨v, he⟩
    exact ⟨_, he, rfl⟩

omit [Std.TransOrd κ] [Std.LawfulEqOrd κ] in
theorem length_keys (m : SortedMap κ α) : m.keys.length = m.size := List.length_map _

omit [Std.TransOrd κ] [Std.LawfulEqOrd κ] in
/-- What stays if only the key decides, in order. -/
theorem keys_filter (m : SortedMap κ α) (p : κ → Bool) :
    (m.filter fun k _ ↦ p k).keys = m.keys.filter p :=
  (List.filter_map).symm

omit [Std.TransOrd κ] in
theorem mem_values_iff {m : SortedMap κ α} {v : α} : v ∈ m.values ↔ ∃ k, m.get? k = some v := by
  simp only [values, List.mem_map, Prod.exists, exists_eq_right, mem_entries_iff]

omit [Std.TransOrd κ] in
theorem size_eq_length_dedup [DecidableEq κ] {m : SortedMap κ α} {ks : List κ}
    (h : ∀ k, m.contains k = true ↔ k ∈ ks) : m.size = ks.dedup.length := by
  have hkeys : m.keys.Perm ks.dedup := by
    refine (List.perm_ext_iff_of_nodup (nodup_keys m.ascending) ks.nodup_dedup).mpr fun k ↦ ?_
    rw [List.mem_dedup, ← h]
    exact mem_keys_iff
  rw [← hkeys.length_eq, length_keys]

/-- A map has an entry for each of the keys that it is made from. -/
theorem size_ofList [DecidableEq κ] (l : List (κ × α)) :
    (ofList l).size = (l.map (·.1)).dedup.length := by
  refine size_eq_length_dedup fun k ↦ ?_
  rw [contains_ofList_iff]
  simp only [List.mem_map, Prod.exists, exists_and_right, exists_eq_right]

/-- A map does not depend on the order of the entries that it is made from. -/
theorem ofList_perm {l l' : List (κ × α)} (hl : (l.map (·.1)).Nodup) (h : l.Perm l') :
    ofList l = ofList l' := by
  have hreverse : l.reverse.Perm l'.reverse :=
    l.reverse_perm.trans (h.trans l'.reverse_perm.symm)
  refine ext_get? fun k ↦ ?_
  rw [get?_ofList, get?_ofList, lookup_perm _ hreverse]
  exact ((l.reverse_perm.map _).nodup_iff).mpr hl

theorem ofList_entries (m : SortedMap κ α) : ofList m.entries = m :=
  ext_get? fun k ↦ by
    rw [get?_ofList, ← lookup_perm (nodup_keys m.ascending) m.entries.reverse_perm.symm, get?]

end Interleave.SortedMap

/-! ## Membership in sets -/

namespace Interleave.SortedSet

universe u v

variable {κ : Type u} {α : Type v} [Ord κ] [Std.TransOrd κ] [Std.LawfulEqOrd κ]

/-- Two sets with the same members are the same. -/
theorem ext_contains {s t : SortedSet κ} (h : ∀ k, s.contains k = t.contains k) : s = t := by
  refine SortedMap.ext_get? fun k ↦ ?_
  have hk : (s.get? k).isSome = (t.get? k).isSome := h k
  cases hs : s.get? k <;> cases ht : t.get? k <;> simp [hs, ht] at hk ⊢

@[simp] theorem contains_add_self (s : SortedSet κ) (k : κ) : (s.add k).contains k = true := by
  rw [SortedMap.contains, add, SortedMap.insert, SortedMap.get?_alter_self]
  rfl

theorem contains_add_of_ne (s : SortedSet κ) {k k' : κ} (h : k' ≠ k) :
    (s.add k).contains k' = s.contains k' := by
  rw [SortedMap.contains, add, SortedMap.insert, SortedMap.get?_alter_of_ne _ h]
  rfl

@[simp] theorem contains_erase_self (s : SortedSet κ) (k : κ) :
    (SortedMap.erase s k).contains k = false := by
  rw [SortedMap.contains, SortedMap.erase, SortedMap.get?_alter_self]
  rfl

theorem contains_erase_of_ne (s : SortedSet κ) {k k' : κ} (h : k' ≠ k) :
    (SortedMap.erase s k).contains k' = s.contains k' := by
  rw [SortedMap.contains, SortedMap.erase, SortedMap.get?_alter_of_ne _ h]
  rfl

theorem contains_union (s t : SortedSet κ) (k : κ) :
    (union s t).contains k = (s.contains k || t.contains k) :=
  SortedMap.contains_mergeWith _ s t k

omit [Std.TransOrd κ] in
theorem contains_filter (s : SortedSet κ) (p : κ → Bool) (k : κ) :
    (filter s p).contains k = (s.contains k && p k) :=
  SortedMap.contains_filter s p k

omit [Std.TransOrd κ] in
theorem contains_diff (s t : SortedSet κ) (k : κ) :
    (diff s t).contains k = (s.contains k && !t.contains k) :=
  contains_filter s _ k

omit [Std.TransOrd κ] in
theorem contains_ofKeys (m : SortedMap κ α) (k : κ) : (ofKeys m).contains k = m.contains k := by
  rw [SortedMap.contains, ofKeys, SortedMap.get?_mapValues, Option.isSome_map, SortedMap.contains]

omit [Std.TransOrd κ] [Std.LawfulEqOrd κ] in
theorem keys_ofKeys (m : SortedMap κ α) : (ofKeys m).keys = m.keys := by
  rw [ofKeys, SortedMap.keys, SortedMap.mapValues, List.map_map]
  rfl

theorem contains_foldl_add_iff {l : List κ} {s : SortedSet κ} {k : κ} :
    (l.foldl add s).contains k = true ↔ k ∈ l ∨ s.contains k = true := by
  induction l generalizing s with
  | nil => simp
  | cons e rest ih =>
    rw [List.foldl_cons, ih, List.mem_cons]
    rcases Classical.em (k = e) with rfl | h
    · simp
    · rw [contains_add_of_ne _ h]
      simp [h]

theorem contains_ofList_iff {l : List κ} {k : κ} : (ofList l).contains k = true ↔ k ∈ l := by
  rw [ofList, contains_foldl_add_iff]
  exact or_iff_left Bool.false_ne_true

theorem size_ofList [DecidableEq κ] (l : List κ) : (ofList l).size = l.dedup.length :=
  SortedMap.size_eq_length_dedup fun _ ↦ contains_ofList_iff

theorem ofList_perm {l l' : List κ} (h : l.Perm l') : ofList l = ofList l' :=
  ext_contains fun k ↦ by
    rw [Bool.eq_iff_iff, contains_ofList_iff, contains_ofList_iff, h.mem_iff]

theorem ofList_keys (s : SortedSet κ) : ofList s.keys = s :=
  ext_contains fun k ↦ by
    rw [Bool.eq_iff_iff, contains_ofList_iff]
    exact SortedMap.mem_keys_iff

end Interleave.SortedSet
