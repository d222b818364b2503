import Interleave.Proofs.Campaign.Reloading
import Mathlib.Data.List.Induction

/-!
# Bookkeeping that fails

The bookkeeping of a run loads files and appends a line, and may fail at any of these steps. A
campaign that follows its databases sets what it knows from them in the last step. So it knows after
a failure what it knew before.

`chess` has two things to do. It sets its progress when it has loaded the state of the search, and
logs its coverage after that. If only the second fails, the progress stays as it has been set
(`CampaignKind.retained`), although the run is not booked. Over many runs this means that `chess`
goes by the last state of the search that could be loaded, whether or not the run was booked
(`CampaignKind.settleAll_chess`).
-/

namespace Interleave

variable {κ ω : Type}

/-- A run that is to be booked: its number, its record, and the world that it has left. -/
structure Landed (ω : Type) where
  iteration : ℕ
  record : RunRecord
  world : ω

namespace Policy

/-- What is known when a run has been booked, or its bookkeeping has failed. -/
def settle (p : Policy κ ω) (q : κ) (l : Landed ω) : κ :=
  match p.afterRun l.iteration l.record (q, l.world) with
  | .ok _ x => x.1
  | .error _ x => x.1

/-- What is known at last, when this has been done for several runs. -/
def settleAll (p : Policy κ ω) (q : κ) (landed : List (Landed ω)) : κ := landed.foldl p.settle q

theorem settleAll_concat (p : Policy κ ω) (q : κ) (landed : List (Landed ω)) (l : Landed ω) :
    p.settleAll q (landed ++ [l]) = p.settle (p.settleAll q landed) l :=
  List.foldl_concat ..

end Policy

namespace CampaignKind

variable {k : CampaignKind} {r : Reporting ω} {files : SnapshotPaths} {withRaces : Bool}
  {record : RunRecord} {e : Failure}

/-! ## One run -/

/-- What `chess` knows when it has tried to load the state of the search. -/
def searched (files : SnapshotPaths) (t : Tree) (q : Progress) : Progress :=
  match t.loadSearch files.search with
  | .ok search => { exhausted := search.done }
  | .error _ => q

/-- What a campaign that knew `q` knows when its bookkeeping over a tree has failed. -/
def retained (k : CampaignKind) (files : SnapshotPaths) (t : Tree) (q : Progress) : Progress :=
  match k with
  | native | profile | active _ | race | random _ => q
  | chess _ => searched files t q

theorem searched_of_ok {t : Tree} {search : SearchInfo} (q : Progress)
    (h : t.loadSearch files.search = .ok search) :
    searched files t q = { exhausted := search.done } := by
  rw [searched, h]

theorem searched_of_error {t : Tree} (q : Progress) (h : t.loadSearch files.search = .error e) :
    searched files t q = q := by
  rw [searched, h]

/-- What a failed bookkeeping leaves. -/
theorem retained_of_afterRun {x y : Progress × ω} (h : k.afterRun r files record x = .error e y) :
    y.1 = k.retained files (r.tree x.2) x.1 := by
  cases k with
  | native => exact (onWorld_eq_error_iff.mp h).2
  | profile | active | random =>
    rcases Act.bind_eq_error.mp h with hcoverage | ⟨_, _, _, ⟨⟩⟩
    exact (logCoverage_eq_error hcoverage).1
  | race =>
    rcases Act.bind_eq_error.mp h with hload | ⟨_, _, _, ⟨⟩⟩
    obtain ⟨-, rfl⟩ := fromTree_eq_error_iff.mp hload
    rfl
  | chess =>
    rcases Act.bind_eq_error.mp h with hload | ⟨search, _, hload, h⟩
    · obtain ⟨hsearch, rfl⟩ := fromTree_eq_error_iff.mp hload
      exact (searched_of_error x.1 hsearch).symm
    · obtain ⟨hsearch, rfl⟩ := fromTree_eq_ok_iff.mp hload
      rcases Act.bind_eq_error.mp h with ⟨⟨⟩⟩ | ⟨_, _, ⟨⟩, h⟩
      rcases Act.bind_eq_error.mp h with hcoverage | ⟨_, _, _, ⟨⟩⟩
      exact (logCoverage_eq_error hcoverage).1.trans (searched_of_ok x.1 hsearch).symm

/-- `chess` goes by the search whether the bookkeeping fails or not. -/
theorem settle_chess (q : Progress) (l : Landed ω) :
    ((chess withRaces).policy r files).settle q l = searched files (r.tree l.world) q := by
  have hpolicy : ((chess withRaces).policy r files).afterRun l.iteration l.record =
      (chess withRaces).afterRun r files l.record := rfl
  rw [Policy.settle, hpolicy]
  cases h : (chess withRaces).afterRun r files l.record (q, l.world) with
  | ok _ y =>
    obtain ⟨search, hsearch, hy⟩ := learns_of_afterRun h
    exact hy.trans (searched_of_ok q hsearch).symm
  | error e y => exact retained_of_afterRun h

/-! ## Any number of runs -/

/-- The last state of the search that can be loaded after any of the runs, or that of a search that
has not begun. -/
def lastSearch (r : Reporting ω) (files : SnapshotPaths) (landed : List (Landed ω)) : SearchInfo :=
  (landed.filterMap fun l ↦ ((r.tree l.world).loadSearch files.search).toOption).getLast?.getD {}

theorem searched_lastSearch (landed : List (Landed ω)) (l : Landed ω) :
    searched files (r.tree l.world) { exhausted := (lastSearch r files landed).done } =
      { exhausted := (lastSearch r files (landed ++ [l])).done } := by
  rw [lastSearch, lastSearch, List.filterMap_append, List.getLast?_append]
  cases h : (r.tree l.world).loadSearch files.search with
  | ok search => simp [searched_of_ok _ h, h, Except.toOption]
  | error e => simp [searched_of_error _ h, h, Except.toOption]

theorem settleAll_chess (landed : List (Landed ω)) :
    ((chess withRaces).policy r files).settleAll {} landed =
      { exhausted := (lastSearch r files landed).done } := by
  induction landed using List.reverseRecOn with
  | nil => rfl
  | append_singleton landed l ih =>
    rw [Policy.settleAll_concat, ih, settle_chess, searched_lastSearch]

theorem metric?_retained (k : CampaignKind) (files : SnapshotPaths) (t : Tree) (q : Progress) :
    k.metric? (k.retained files t q) = k.metric? q := by
  cases k <;> rfl

theorem exhausted_searched_ne_iff {t : Tree} {q : Progress} :
    (searched files t q).exhausted ≠ q.exhausted ↔
      ∃ search, t.loadSearch files.search = .ok search ∧ search.done ≠ q.exhausted := by
  cases h : t.loadSearch files.search with
  | ok search => simp [searched_of_ok q h]
  | error e => simp [searched_of_error q h]

/-- **What failed bookkeeping changes.** Whatever was booked before, or has failed to be, a campaign
whose bookkeeping fails has the metric that it had. It is exhausted exactly if it was, unless it is
`chess`, has loaded the state of the search, and finds it done where the last state that it could
load was not, or the other way round. -/
theorem failed_bookkeeping_changes {landed : List (Landed ω)} {l : Landed ω} {x : Progress × ω}
    (h : (k.policy r files).afterRun l.iteration l.record
      ((k.policy r files).settleAll {} landed, l.world) = .error e x) :
    let p := k.policy r files
    let before := p.settleAll {} landed
    p.metric x.1 = p.metric before ∧
      (p.exhausted x.1 ≠ p.exhausted before ↔ ∃ withRaces search, k = chess withRaces ∧
        (r.tree l.world).loadSearch files.search = .ok search ∧
          search.done ≠ (lastSearch r files landed).done) := by
  intro p before
  have hretained : x.1 = k.retained files (r.tree l.world) before := retained_of_afterRun h
  rw [hretained]
  refine ⟨metric?_retained k files (r.tree l.world) before, ?_⟩
  cases k with
  | native | profile | active | race | random =>
    exact iff_of_false (fun hne ↦ hne rfl) (by rintro ⟨_, _, ⟨⟩, _⟩)
  | chess withRaces =>
    have hbefore : before.exhausted = (lastSearch r files landed).done :=
      congrArg Progress.exhausted (settleAll_chess landed)
    constructor
    · intro hne
      obtain ⟨search, hsearch, hdone⟩ := exhausted_searched_ne_iff.mp hne
      exact ⟨withRaces, search, rfl, hsearch, hbefore ▸ hdone⟩
    · rintro ⟨_, search, ⟨⟩, hsearch, hdone⟩
      exact exhausted_searched_ne_iff.mpr ⟨search, hsearch, hbefore ▸ hdone⟩

/-- The search was done, and a run that begins it anew cannot be logged. -/
theorem failed_bookkeeping_changes_anew :
    let done : Tree :=
      { nodes := .ofList [(["search.json"], .file (.text "\x7b\"done\": true\x7d"))] }
    let r : Reporting ℕ :=
      { tree := fun w ↦ if w = 0 then done else {}
        recordCoverage := fun _ _ _ w ↦
          if w = 0 then .ok () w else .error (.report "disk full") w
        recordTiming := fun _ w ↦ .ok () w }
    let p := (chess false).policy r {}
    let record : RunRecord := ⟨.epoch, .epoch, .normal⟩
    let before := p.settleAll {} [⟨1, record, 0⟩]
    ∃ x, p.afterRun 2 record (before, 1) = .error (.report "disk full") x ∧
      p.metric x.1 = p.metric before ∧ p.exhausted x.1 ≠ p.exhausted before := by
  intro done r p record before
  have hfails : p.afterRun 2 record (before, 1) = .error (.report "disk full") ({}, 1) := rfl
  have hlast : (lastSearch r {} [⟨1, record, 0⟩]).done = true := by decide +kernel
  obtain ⟨hmetric, hexhausted⟩ := failed_bookkeeping_changes (l := ⟨2, record, 1⟩) hfails
  refine ⟨({}, 1), hfails, hmetric, hexhausted.mpr ⟨false, {}, rfl, rfl, ?_⟩⟩
  rw [hlast]
  decide

/-- The first run of `chess` leaves a search that is done, and its coverage cannot be logged. -/
theorem failed_bookkeeping_exhausts :
    let done : Tree :=
      { nodes := .ofList [(["search.json"], .file (.text "\x7b\"done\": true\x7d"))] }
    let r : Reporting Unit :=
      { tree := fun _ ↦ done
        recordCoverage := fun _ _ _ w ↦ .error (.report "disk full") w
        recordTiming := fun _ w ↦ .ok () w }
    let p := (chess false).policy r {}
    let before := p.settleAll {} []
    ∃ x, p.afterRun 1 ⟨.epoch, .epoch, .normal⟩ (before, ()) = .error (.report "disk full") x ∧
      p.exhausted x.1 ≠ p.exhausted before := by
  intro done r p before
  have hsearch : done.loadSearch "search.json" = .ok { done := true } := by decide +kernel
  have hload : fromTree r (fun t ↦ t.loadSearch "search.json") (before, ()) =
      .ok { done := true } (before, ()) := fromTree_eq_ok_iff.mpr ⟨hsearch, rfl⟩
  have hcoverage : p.afterRun 1 ⟨.epoch, .epoch, .normal⟩ (before, ()) =
      .error (.report "disk full") ({ exhausted := true }, ()) :=
    Act.bind_eq_error.mpr (.inr ⟨_, _, hload, rfl⟩)
  exact ⟨_, hcoverage, by decide⟩

end CampaignKind

end Interleave
