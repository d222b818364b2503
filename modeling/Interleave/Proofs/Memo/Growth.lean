import Interleave.Proofs.Memo.WellFormed

/-!
# Evidence only grows

Between two points of a memo's life lie *steps*: edits, and other memos that are folded in. What
targeted runs have shown is never taken back by any of them: evidence stays, with what is known of
asynchronous events, exposed iRoots stay exposed, and one that was given up is given up for as long
as it is not exposed (`Dossier.Grows`). Only predictions and the queue are working material. Of
these too each step takes out only what it is meant to (`Dossier.Spares`).

Counters do not go back either, with one exception. They are words, so a run that is counted on a
full counter sets it to zero (`Memo.evidence_grows_full`). This belongs to the second relation, as
it is a matter of single steps.

The first of the two relations is transitive, so that it holds over any number of steps. The second
is not, as an iRoot that was dropped from the queue may come back with a new counter. Over several
steps it says at which of them an iRoot can have been dropped or a counter gone back, and what holds
of one that never was.
-/

namespace Interleave

/-! ## Steps -/

/-- A step in the life of a memo: an edit, or another memo that is folded in. -/
inductive Memo.Step : Type 1 where
  | edit (e : Edit)
  | merge (other : Memo)

namespace Memo

/-- The memo after a step. -/
def step (m : Memo) : Step → Memo
  | .edit e => m.edit e
  | .merge other => m.merge other

/-- The memo after some steps, the first of them first. -/
def after (m : Memo) (steps : List Step) : Memo := steps.foldl step m

/-- The steps that may take iRoots out of the queue. -/
inductive Step.Trims : Step → Prop where
  | refine (respectFailed : Bool) : Trims (.edit (.refine respectFailed))
  | clear : Trims (.edit .clearCandidates)
  | sample {ρ : Type} (shuffle : Shuffle ρ) (catalog : Catalog) (idiom : Idiom) (num : ℕ) (r : ρ) :
    Trims (.edit (.sample shuffle catalog idiom num r))

/-- The steps that count a targeted run of an iRoot. -/
inductive Step.Runs (id : IRootId) : Step → Prop where
  | record {r : Report} (h : r.isRun = true) : Runs id (.edit (.record id r))

/-- A counter of an iRoot does not go back, unless a run is counted when it is full. -/
def Step.Counts (s : Step) (id : IRootId) (n n' : UInt32) : Prop :=
  n ≤ n' ∨ s.Runs id ∧ n.toNat + 1 = UInt32.size

theorem after_concat (m : Memo) (steps : List Step) (s : Step) :
    m.after (steps ++ [s]) = (m.after steps).step s := by
  rw [after, List.foldl_append]
  rfl

/-- Between two neighbouring points of a list of steps there is one step, or none beyond its end. -/
theorem after_take_succ (m : Memo) (steps : List Step) (k : ℕ) :
    (∃ s, steps[k]? = some s ∧ m.after (steps.take (k + 1)) = (m.after (steps.take k)).step s) ∨
      m.after (steps.take (k + 1)) = m.after (steps.take k) := by
  rw [List.take_add_one]
  rcases hs : steps[k]? with _ | s
  · exact .inr (congrArg m.after (List.append_nil _))
  · exact .inl ⟨s, rfl, after_concat m _ s⟩

end Memo

/-! ## What no step takes back -/

/-- What a report makes of a counter. -/
def Report.count (r : Report) (n : UInt32) : UInt32 := if r.isRun then nextCount n else n

/-- What is known of asynchronous events stays known. -/
def Evidence.Keeps (e e' : Evidence) : Prop := e.isAsync ≠ none → e'.isAsync ≠ none

theorem Evidence.keeps_join (a b : Evidence) : a.Keeps (a.join b) := by
  intro ha
  rw [Evidence.join]
  split
  · next hnone _ => exact absurd hnone ha
  · exact Option.some_ne_none _

namespace Dossier

/-- What targeted runs have shown is still known. -/
structure Grows (d d' : Dossier) : Prop where
  info : ∀ e, d.info = some e → ∃ e', d'.info = some e' ∧ e.Keeps e'
  exposed : d.exposed = true → d'.exposed = true
  shadowExposed : d.shadowExposed = true → d'.shadowExposed = true
  failed : d.failed = true → d'.failed = true ∨ d'.exposed = true

namespace Grows

theorem refl (d : Dossier) : d.Grows d :=
  ⟨fun e he ↦ ⟨e, he, id⟩, id, id, .inl⟩

theorem trans {a b c : Dossier} (hab : a.Grows b) (hbc : b.Grows c) : a.Grows c := by
  refine ⟨fun e he ↦ ?_, hbc.exposed ∘ hab.exposed, hbc.shadowExposed ∘ hab.shadowExposed,
    fun hf ↦ ?_⟩
  · obtain ⟨e', he', hkeeps⟩ := hab.info e he
    obtain ⟨e'', he'', hkeeps'⟩ := hbc.info e' he'
    exact ⟨e'', he'', hkeeps' ∘ hkeeps⟩
  · exact (hab.failed hf).elim hbc.failed fun he ↦ .inr (hbc.exposed he)

/-- Predictions and the queue do not count. -/
theorem of_tidied {d d' : Dossier} (hinfo : d'.info = d.info) (hexposed : d'.exposed = d.exposed)
    (hshadow : d'.shadowExposed = d.shadowExposed) (hfailed : d.failed = true → d'.failed = true) :
    d.Grows d' :=
  ⟨fun e he ↦ ⟨e, hinfo.trans he, id⟩, fun he ↦ hexposed.trans he, fun hs ↦ hshadow.trans hs,
    fun hf ↦ .inl (hfailed hf)⟩

theorem info_updateInfo {d : Dossier} {e : Evidence} (he : d.info = some e)
    (f : Evidence → Evidence) : (d.updateInfo f).info = some (f e) := by
  rw [updateInfo, evidence, he]
  rfl

theorem info_record (d : Dossier) (r : Report) {e : Evidence} (he : d.info = some e) :
    ∃ e', (d.record r).info = some e' ∧ e.Keeps e' ∧ e'.runs = r.count e.runs := by
  cases r with
  | observed | predicted | shadowExposed | queued =>
    exact ⟨e, info_updateInfo he fun e ↦ e, id, rfl⟩
  | async isAsync =>
    exact ⟨{ e with isAsync := some isAsync }, info_updateInfo he _,
      fun _ ↦ Option.some_ne_none _, rfl⟩
  | success | failure =>
    exact ⟨{ e with runs := nextCount e.runs },
      info_updateInfo he fun e ↦ { e with runs := nextCount e.runs }, id, rfl⟩

theorem record (d : Dossier) (r : Report) : d.Grows (d.record r) := by
  refine ⟨fun e he ↦ ?_, ?_, ?_, ?_⟩
  · obtain ⟨e', he', hkeeps, -⟩ := info_record d r he
    exact ⟨e', he', hkeeps⟩
  · rintro he
    cases r <;> first | exact he | rfl
  · rintro hs
    cases r <;> first | exact hs | rfl
  · intro hf
    cases r with
    | observed | async | predicted | shadowExposed | queued => exact .inl hf
    | success => exact .inr rfl
    | failure =>
      rw [Dossier.record, hf]
      exact .inl rfl

theorem join (a b : Dossier) : a.Grows (a.join b) := by
  refine ⟨fun e he ↦ ?_, fun he ↦ ?_, fun hs ↦ ?_, fun hf ↦ ?_⟩
  · rw [Dossier.join, he]
    rcases b.info with _ | e'
    · exact ⟨e, rfl, id⟩
    · exact ⟨e.join e', rfl, e.keeps_join e'⟩
  · simp [Dossier.join, he]
  · simp [Dossier.join, hs]
  · -- a join forgets that an iRoot was given up just when one of the sides has exposed it
    rw [Dossier.join, hf]
    rcases a.exposed || b.exposed with _ | _
    · exact .inl rfl
    · exact .inr rfl

theorem edited {e : Edit} {d d' : Dossier} (h : Edited e d d') : d.Grows d' := by
  cases h with
  | other | kept => exact .refl _
  | record => exact .record _ _
  | refine | unpredict | unqueue | dropped => exact .of_tidied rfl rfl rfl id
  | close => exact .of_tidied rfl rfl rfl fun hf ↦ Bool.or_eq_true_iff.mpr (.inl hf)

end Grows

/-! ## What only some steps take out -/

/-- A step leaves predictions and queue entries alone, unless it is there to take them out, and
counters go on. -/
structure Spares (s : Memo.Step) (d d' : Dossier) : Prop where
  predicted : d.predicted = true → d'.predicted = true ∨ s = .edit .clearPredicted
  queued : d.queued ≠ none → d'.queued ≠ none ∨ s.Trims
  runs : ∀ e e', d.info = some e → d'.info = some e' → s.Counts d.iroot e.runs e'.runs
  count : ∀ n n', d.queued = some n → d'.queued = some n' → s.Counts d.iroot n n'

namespace Spares

variable {s : Memo.Step} {d d' : Dossier}

theorem counts_of_eq {α : Type} {f : α → UInt32} {x y : Option α} (h : y = x) (a b : α)
    (ha : x = some a) (hb : y = some b) : s.Counts d.iroot (f a) (f b) := by
  obtain rfl := Option.some.inj (ha.symm.trans (h ▸ hb))
  exact .inl (UInt32.le_refl _)

theorem of_queued_eq (hpredicted : d.predicted = true → d'.predicted = true ∨
      s = .edit .clearPredicted) (hinfo : d'.info = d.info) (hqueued : d'.queued = d.queued) :
    Spares s d d' :=
  ⟨hpredicted, fun hq ↦ .inl (hqueued ▸ hq), counts_of_eq hinfo, counts_of_eq hqueued⟩

/-- A step that trims the queue keeps or drops each entry as it is. -/
theorem of_trims (hs : s.Trims) (hpredicted : d'.predicted = d.predicted) (hinfo : d'.info = d.info)
    (hqueued : d'.queued = d.queued ∨ d'.queued = none) : Spares s d d' := by
  refine ⟨fun hp ↦ .inl (hpredicted ▸ hp), fun _ ↦ .inr hs, counts_of_eq hinfo,
    fun n n' hn hn' ↦ ?_⟩
  rcases hqueued with hq | hq
  · exact counts_of_eq (f := id) hq n n' hn hn'
  · rw [hq] at hn'
    exact absurd hn'.symm (Option.some_ne_none _)

theorem counts_count (r : Report) (id : IRootId) (n : UInt32) :
    (Memo.Step.edit (.record id r)).Counts id n (r.count n) := by
  rw [Report.count]
  split
  · next hrun =>
    by_cases hfits : n.toNat + 1 < UInt32.size
    · exact .inl (le_nextCount hfits)
    · have hn := n.toNat_lt_size
      exact .inr ⟨.record hrun, by omega⟩
  · exact .inl (UInt32.le_refl n)

/-- A report leaves the queue entry alone, or makes sure that there is one and counts on it. -/
theorem queued_record (d : Dossier) (r : Report) :
    (d.record r).queued = d.queued ∨ (d.record r).queued = some (r.count (d.queued.getD 0)) := by
  cases r with
  | observed | async | predicted | shadowExposed => exact .inl rfl
  | queued | success | failure => exact .inr rfl

theorem record (d : Dossier) (r : Report) : Spares (.edit (.record d.iroot r)) d (d.record r) := by
  have hqueued := queued_record d r
  refine ⟨fun hp ↦ .inl ?_, fun hq ↦ .inl ?_, fun e e' he he' ↦ ?_, fun n n' hn hn' ↦ ?_⟩
  · cases r <;> first | exact hp | rfl
  · rcases hqueued with h | h
    · exact h ▸ hq
    · exact h ▸ Option.some_ne_none _
  · obtain ⟨x, hx, -, hruns⟩ := Grows.info_record d r he
    obtain rfl := Option.some.inj (hx.symm.trans he')
    exact hruns ▸ counts_count r d.iroot e.runs
  · rcases hqueued with h | h
    · exact counts_of_eq (f := id) h n n' hn hn'
    · rw [h, hn] at hn'
      exact Option.some.inj hn' ▸ counts_count r d.iroot n

theorem join (a b : Dossier) : Spares s a (a.join b) := by
  refine ⟨fun hp ↦ .inl ?_, fun hq ↦ .inl ?_, fun e e' he he' ↦ .inl ?_, fun n n' hn hn' ↦ .inl ?_⟩
  · simp [Dossier.join, hp]
  · rw [← Option.isSome_iff_ne_none] at hq ⊢
    rw [Dossier.join, SortedMap.isSome_joinValues, hq, Bool.true_or]
  · rw [Dossier.join, he] at he'
    rcases hb : b.info with _ | x
    · rw [hb, SortedMap.joinValues_none_right] at he'
      exact Option.some.inj he' ▸ UInt32.le_refl _
    · rw [hb, SortedMap.joinValues_some_some] at he'
      exact Option.some.inj he' ▸ le_max_count_iff.mpr (.inl (UInt32.le_refl _))
  · rw [Dossier.join, hn] at hn'
    rcases hb : b.queued with _ | k
    · rw [hb, SortedMap.joinValues_none_right] at hn'
      exact Option.some.inj hn' ▸ UInt32.le_refl _
    · rw [hb, SortedMap.joinValues_some_some] at hn'
      exact Option.some.inj hn' ▸ le_max_count_iff.mpr (.inl (UInt32.le_refl _))

theorem edited {e : Edit} (h : Edited e d d') : Spares (.edit e) d d' := by
  cases h with
  | other | close | kept => exact of_queued_eq .inl rfl rfl
  | record => exact record _ _
  | refine =>
    refine of_trims (.refine _) rfl rfl ?_
    rw [Dossier.refine]
    rcases d.queued with _ | n
    · exact .inl rfl
    · rw [Option.filter_some]
      split
      · exact .inl rfl
      · exact .inr rfl
  | unpredict => exact of_queued_eq (fun _ ↦ .inr rfl) rfl rfl
  | unqueue => exact of_trims .clear rfl rfl (.inr rfl)
  | dropped => exact of_trims (.sample ..) rfl rfl (.inr rfl)

end Spares

end Dossier

namespace Memo

theorem grows_step (m : Memo) (s : Step) (id : IRootId) :
    (m.dossier id).Grows ((m.step s).dossier id) ∧
      Dossier.Spares s (m.dossier id) ((m.step s).dossier id) := by
  rcases s with e | other
  · have hedited := m.edited_dossier e id
    exact ⟨.edited hedited, .edited hedited⟩
  · rw [step, dossier_merge]
    exact ⟨.join _ _, .join _ _⟩

/-! ## Runs -/

variable {m : Memo} {steps : List Step} {i j : ℕ}

/-- The dossier of an iRoot after so many of the steps. -/
def dossierAt (m : Memo) (steps : List Step) (id : IRootId) (k : ℕ) : Dossier :=
  (m.after (steps.take k)).dossier id

/-- From each point to the next one there is a step, or nothing has changed. -/
theorem grows_succ (m : Memo) (steps : List Step) (id : IRootId) (k : ℕ) :
    (m.dossierAt steps id k).Grows (m.dossierAt steps id (k + 1)) ∧
      ((∃ s, steps[k]? = some s ∧
          Dossier.Spares s (m.dossierAt steps id k) (m.dossierAt steps id (k + 1))) ∨
        m.dossierAt steps id (k + 1) = m.dossierAt steps id k) := by
  rw [dossierAt, dossierAt]
  rcases m.after_take_succ steps k with ⟨s, hs, hstep⟩ | hsame
  · rw [hstep]
    obtain ⟨hgrows, hspares⟩ := (m.after (steps.take k)).grows_step s id
    exact ⟨hgrows, .inl ⟨s, hs, hspares⟩⟩
  · rw [hsame]
    exact ⟨.refl _, .inr rfl⟩

theorem grows_of_le (hij : i ≤ j) (id : IRootId) :
    (m.dossierAt steps id i).Grows (m.dossierAt steps id j) := by
  induction j, hij using Nat.le_induction with
  | base => exact .refl _
  | succ j _ ih => exact ih.trans (m.grows_succ steps id j).1

/-- What holds at one point and not at a later one was lost on the way there at some step. -/
theorem exists_lost {P : ℕ → Prop} (hij : i ≤ j) (hi : P i) (hj : ¬ P j) :
    ∃ k, i ≤ k ∧ k < j ∧ P k ∧ ¬ P (k + 1) := by
  induction j, hij using Nat.le_induction with
  | base => exact absurd hi hj
  | succ j hle ih =>
    by_cases h : P j
    · exact ⟨j, hle, j.lt_succ_self, h, hj⟩
    · obtain ⟨k, hik, hkj, hk⟩ := ih h
      exact ⟨k, hik, hkj.trans j.lt_succ_self, hk⟩

theorem exists_unpredicted {id : IRootId} (hij : i ≤ j)
    (hi : (m.dossierAt steps id i).predicted = true)
    (hj : (m.dossierAt steps id j).predicted ≠ true) :
    ∃ k, i ≤ k ∧ k < j ∧ steps[k]? = some (.edit .clearPredicted) := by
  obtain ⟨k, hik, hkj, hk, hnext⟩ :=
    exists_lost (P := fun k ↦ (m.dossierAt steps id k).predicted = true) hij hi hj
  refine ⟨k, hik, hkj, ?_⟩
  obtain ⟨-, ⟨s, hs, hspares⟩ | hsame⟩ := m.grows_succ steps id k
  · exact hs.trans (congrArg some ((hspares.predicted hk).resolve_left hnext))
  · exact absurd (hsame ▸ hk) hnext

theorem exists_trimmed {id : IRootId} (hij : i ≤ j) (hi : (m.dossierAt steps id i).queued ≠ none)
    (hj : (m.dossierAt steps id j).queued = none) :
    ∃ k s, i ≤ k ∧ k < j ∧ steps[k]? = some s ∧ s.Trims := by
  obtain ⟨k, hik, hkj, hk, hnext⟩ :=
    exists_lost (P := fun k ↦ (m.dossierAt steps id k).queued ≠ none) hij hi (not_not.mpr hj)
  obtain ⟨-, ⟨s, hs, hspares⟩ | hsame⟩ := m.grows_succ steps id k
  · exact ⟨k, s, hik, hkj, hs, (hspares.queued hk).resolve_left hnext⟩
  · exact absurd (hsame ▸ hk) hnext

/-- A counter that is there all the way has not gone back, or was full on the way when a run was
counted. -/
theorem count_le_or_full {id : IRootId} {c : ℕ → Option UInt32} {n n' : UInt32} (hij : i ≤ j)
    (hstep : ∀ k n n', c k = some n → c (k + 1) = some n' →
      (∃ s, steps[k]? = some s ∧ s.Counts id n n') ∨ n' = n)
    (hthere : ∀ k, i ≤ k → k ≤ j → c k ≠ none) (hi : c i = some n) (hj : c j = some n') :
    n ≤ n' ∨ ∃ k s x, i ≤ k ∧ k < j ∧ steps[k]? = some s ∧ s.Runs id ∧ c k = some x ∧
      x.toNat + 1 = UInt32.size := by
  induction j, hij using Nat.le_induction generalizing n' with
  | base => exact .inl (Option.some.inj (hi.symm.trans hj) ▸ UInt32.le_refl _)
  | succ j hle ih =>
    obtain ⟨x, hx⟩ := Option.ne_none_iff_exists'.mp (hthere j hle (Nat.le_succ j))
    rcases ih (fun k hlo hhi ↦ hthere k hlo (Nat.le_succ_of_le hhi)) hx with hnx | hfull
    · rcases hstep j x n' hx hj with ⟨s, hs, hxn | ⟨hruns, hfull⟩⟩ | rfl
      · exact .inl (UInt32.le_trans hnx hxn)
      · exact .inr ⟨j, s, x, hle, j.lt_succ_self, hs, hruns, hx, hfull⟩
      · exact .inl hnx
    · obtain ⟨k, s, y, hik, hkj, hrest⟩ := hfull
      exact .inr ⟨k, s, y, hik, hkj.trans j.lt_succ_self, hrest⟩

theorem runs_le_or_full {id : IRootId} {e e' : Evidence} (hij : i ≤ j)
    (hi : (m.dossierAt steps id i).info = some e) (hj : (m.dossierAt steps id j).info = some e') :
    e.runs ≤ e'.runs ∨ ∃ k s x, i ≤ k ∧ k < j ∧ steps[k]? = some s ∧ s.Runs id ∧
      (m.dossierAt steps id k).info.map Evidence.runs = some x ∧ x.toNat + 1 = UInt32.size := by
  refine count_le_or_full (c := fun k ↦ (m.dossierAt steps id k).info.map Evidence.runs) hij
    (fun k n n' hn hn' ↦ ?_) (fun k hik _ ↦ ?_) (Option.map_eq_some_iff.mpr ⟨e, hi, rfl⟩)
    (Option.map_eq_some_iff.mpr ⟨e', hj, rfl⟩)
  · obtain ⟨x, hx, rfl⟩ := Option.map_eq_some_iff.mp hn
    obtain ⟨x', hx', rfl⟩ := Option.map_eq_some_iff.mp hn'
    obtain ⟨-, ⟨s, hs, hspares⟩ | hsame⟩ := m.grows_succ steps id k
    · exact .inl ⟨s, hs, hspares.runs x x' hx hx'⟩
    · rw [hsame, hx] at hx'
      exact .inr (congrArg Evidence.runs (Option.some.inj hx').symm)
  · -- evidence that is there once is there ever after
    obtain ⟨x, hx, -⟩ := (grows_of_le hik id).info e hi
    rw [hx]
    exact Option.some_ne_none _

theorem retries_le_or_full {id : IRootId} {n n' : UInt32} (hij : i ≤ j)
    (hstays : ∀ k, i ≤ k → k ≤ j → (m.dossierAt steps id k).queued ≠ none)
    (hi : (m.dossierAt steps id i).queued = some n)
    (hj : (m.dossierAt steps id j).queued = some n') :
    n ≤ n' ∨ ∃ k s x, i ≤ k ∧ k < j ∧ steps[k]? = some s ∧ s.Runs id ∧
      (m.dossierAt steps id k).queued = some x ∧ x.toNat + 1 = UInt32.size := by
  refine count_le_or_full (c := fun k ↦ (m.dossierAt steps id k).queued) hij
    (fun k n n' hn hn' ↦ ?_) hstays hi hj
  obtain ⟨-, ⟨s, hs, hspares⟩ | hsame⟩ := m.grows_succ steps id k
  · exact .inl ⟨s, hs, hspares.count n n' hn hn'⟩
  · rw [hsame, hn] at hn'
    exact .inr (Option.some.inj hn').symm

end Memo

end Interleave
