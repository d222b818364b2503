import Interleave.Campaign.Kinds
import Interleave.Memo.Offline
import Interleave.Proofs.Memo.Loading

/-!
# What a campaign learns from its files

After a run a campaign reloads its snapshots from the tree that the run has left, and what it knows
from then on is what they say (`CampaignKind.learns_of_afterRun`). Nothing that it knew before
matters, unless it is of a kind that reloads nothing it would go by.

The stop rule asks for two things, the metric and whether there is anything left to do. Both are
read off the lists of the snapshots here, in which a name may stand more than once: the metric
counts different names, and there is work as long as one of the queued names is of the target idiom.
-/

namespace Interleave

variable {κ ω α β : Type}

/-! ## Steps of an action -/

theorem Act.bind_eq_ok {x : Act ω α} {f : α → Act ω β} {w w' : ω} {b : β} :
    (x >>= f) w = .ok b w' ↔ ∃ a w₁, x w = .ok a w₁ ∧ f a w₁ = .ok b w' := by
  rw [show (x >>= f) w = EStateM.bind x f w from rfl, EStateM.bind]
  cases x w with
  | error e w₁ => exact iff_of_false nofun fun ⟨_, _, h, _⟩ ↦ absurd h nofun
  | ok a w₁ =>
    constructor
    · exact fun h ↦ ⟨a, w₁, rfl, h⟩
    · rintro ⟨_, _, ⟨⟩, h⟩
      exact h

theorem Act.bind_eq_error {x : Act ω α} {f : α → Act ω β} {w w' : ω} {e : Failure} :
    (x >>= f) w = .error e w' ↔
      x w = .error e w' ∨ ∃ a w₁, x w = .ok a w₁ ∧ f a w₁ = .error e w' := by
  rw [show (x >>= f) w = EStateM.bind x f w from rfl, EStateM.bind]
  cases x w with
  | error e w₁ =>
    constructor
    · rintro ⟨⟩
      exact .inl rfl
    · rintro (⟨⟨⟩⟩ | ⟨_, _, ⟨⟩, -⟩)
      rfl
  | ok a w₁ =>
    constructor
    · exact fun h ↦ .inr ⟨a, w₁, rfl, h⟩
    · rintro (⟨⟨⟩⟩ | ⟨_, _, ⟨⟩, h⟩)
      exact h

namespace CampaignKind

variable {r : Reporting ω} {files : SnapshotPaths} {record : RunRecord}

theorem onWorld_eq_ok_iff {act : Act ω α} {a : α} {x y : κ × ω} :
    onWorld act x = .ok a y ↔ act x.2 = .ok a y.2 ∧ y.1 = x.1 := by
  obtain ⟨q, w⟩ := y
  rw [onWorld]
  cases act x.2 <;> simp [and_assoc, and_comm, eq_comm]

theorem onWorld_eq_error_iff {act : Act ω α} {e : Failure} {x y : κ × ω} :
    onWorld act x = .error e y ↔ act x.2 = .error e y.2 ∧ y.1 = x.1 := by
  obtain ⟨q, w⟩ := y
  rw [onWorld]
  cases act x.2 <;> simp [and_assoc, and_comm, eq_comm]

theorem fromTree_eq_ok_iff {load : Tree → Except Failure α} {a : α} {x y : κ × ω} :
    fromTree r load x = .ok a y ↔ load (r.tree x.2) = .ok a ∧ x = y := by
  rw [fromTree]
  cases load (r.tree x.2) with
  | error e => exact iff_of_false nofun fun ⟨h, _⟩ ↦ absurd h nofun
  | ok b =>
    constructor
    · rintro ⟨⟩
      exact ⟨rfl, rfl⟩
    · rintro ⟨⟨⟩, rfl⟩
      rfl

theorem fromTree_eq_error_iff {load : Tree → Except Failure α} {e : Failure} {x y : κ × ω} :
    fromTree r load x = .error e y ↔ load (r.tree x.2) = .error e ∧ x = y := by
  rw [fromTree]
  cases load (r.tree x.2) with
  | ok a => exact iff_of_false nofun fun ⟨h, _⟩ ↦ absurd h nofun
  | error e' =>
    constructor
    · rintro ⟨⟩
      exact ⟨rfl, rfl⟩
    · rintro ⟨⟨⟩, rfl⟩
      rfl

theorem logCoverage_eq_ok {name : String} {d : Databases} {x y : κ × ω}
    (h : logCoverage r files name record x = .ok d y) :
    y.1 = x.1 ∧ (r.tree x.2).loadDatabases files = .ok d ∧
      r.recordCoverage name record.used (d.memo.observedCounts d.catalog) x.2 = .ok () y.2 := by
  obtain ⟨d', x', hload, h⟩ := Act.bind_eq_ok.mp h
  obtain ⟨hdatabases, rfl⟩ := fromTree_eq_ok_iff.mp hload
  obtain ⟨_, y', hrecord, ⟨⟩⟩ := Act.bind_eq_ok.mp h
  obtain ⟨hrecord, hfst⟩ := onWorld_eq_ok_iff.mp hrecord
  exact ⟨hfst, hdatabases, hrecord⟩

/-- Coverage is not logged if the databases cannot be loaded, or the line cannot be appended. -/
theorem logCoverage_eq_error {name : String} {e : Failure} {x y : κ × ω}
    (h : logCoverage r files name record x = .error e y) :
    y.1 = x.1 ∧ ((r.tree x.2).loadDatabases files = .error e ∧ y.2 = x.2 ∨
      ∃ d, (r.tree x.2).loadDatabases files = .ok d ∧
        r.recordCoverage name record.used (d.memo.observedCounts d.catalog) x.2 =
          .error e y.2) := by
  rcases Act.bind_eq_error.mp h with hload | ⟨d, x', hload, h⟩
  · obtain ⟨hdatabases, rfl⟩ := fromTree_eq_error_iff.mp hload
    exact ⟨rfl, .inl ⟨hdatabases, rfl⟩⟩
  · obtain ⟨hdatabases, rfl⟩ := fromTree_eq_ok_iff.mp hload
    rcases Act.bind_eq_error.mp h with hrecord | ⟨_, _, _, hreturn⟩
    · obtain ⟨hrecord, hfst⟩ := onWorld_eq_error_iff.mp hrecord
      exact ⟨hfst, .inr ⟨d, hdatabases, hrecord⟩⟩
    · exact nomatch hreturn

/-! ## After a run -/

/-- What a campaign that knew `q` knows when it has reloaded its files from a tree. -/
def Learns (k : CampaignKind) (files : SnapshotPaths) (t : Tree) (q q' : Progress) : Prop :=
  match k with
  | native | random _ => q' = q
  | profile =>
    ∃ d, t.loadDatabases files = .ok d ∧ q' = { metric := .single d.memo.predicted.size }
  | active target =>
    ∃ d, t.loadDatabases files = .ok d ∧ q' = { exhausted := !d.memo.hasCandidate d.catalog target }
  | race =>
    ∃ registry races, t.loadRegistry files.registry = .ok registry ∧
      t.loadRaceDb files.race registry = .ok races ∧ q' = { metric := races.metric }
  | chess _ => ∃ search, t.loadSearch files.search = .ok search ∧ q' = { exhausted := search.done }

/-- `chess` logs its coverage when the progress of the search is known. -/
theorem logCoverage_of_chess {withRaces : Bool} {x y : Progress × ω}
    (h : (chess withRaces).afterRun r files record x = .ok () y) :
    ∃ search d, (r.tree x.2).loadSearch files.search = .ok search ∧
      logCoverage r files (chess withRaces).label record ({ exhausted := search.done }, x.2) =
        .ok d y := by
  obtain ⟨search, _, hload, h⟩ := Act.bind_eq_ok.mp h
  obtain ⟨hsearch, rfl⟩ := fromTree_eq_ok_iff.mp hload
  obtain ⟨_, _, ⟨⟩, h⟩ := Act.bind_eq_ok.mp h
  obtain ⟨d, _, hcoverage, ⟨⟩⟩ := Act.bind_eq_ok.mp h
  exact ⟨search, d, hsearch, hcoverage⟩

theorem learns_of_afterRun {k : CampaignKind} {q q' : Progress} {w w' : ω}
    (h : k.afterRun r files record (q, w) = .ok () (q', w')) :
    k.Learns files (r.tree w) q q' := by
  cases k with
  | native =>
    rw [afterRun] at h
    exact (onWorld_eq_ok_iff.mp h).2
  | random scheduler =>
    obtain ⟨d, x, hcoverage, ⟨⟩⟩ := Act.bind_eq_ok.mp h
    exact (logCoverage_eq_ok hcoverage).1
  | profile | active =>
    obtain ⟨d, x, hcoverage, ⟨⟩⟩ := Act.bind_eq_ok.mp h
    exact ⟨d, (logCoverage_eq_ok hcoverage).2.1, rfl⟩
  | race =>
    obtain ⟨races, x, hload, ⟨⟩⟩ := Act.bind_eq_ok.mp h
    obtain ⟨registry, hregistry, hraces⟩ := bind_eq_ok.mp (fromTree_eq_ok_iff.mp hload).1
    exact ⟨registry, races, hregistry, hraces, rfl⟩
  | chess =>
    obtain ⟨search, d, hsearch, hcoverage⟩ := logCoverage_of_chess h
    exact ⟨search, hsearch, (logCoverage_eq_ok hcoverage).1⟩

theorem afterRun_race (record : RunRecord) {q : Progress} {w : ω} {m : Metric}
    (h : ((r.tree w).loadRegistry files.registry >>= (r.tree w).loadRaceDb files.race).map
      RaceDb.metric = .ok m) :
    race.afterRun r files record (q, w) = .ok () ({ metric := m }, w) := by
  cases hload : (r.tree w).loadRegistry files.registry >>= (r.tree w).loadRaceDb files.race with
  | error e =>
    rw [hload] at h
    exact nomatch h
  | ok races =>
    rw [hload] at h
    obtain rfl := Except.ok.inj h
    exact Act.bind_eq_ok.mpr ⟨races, (q, w), fromTree_eq_ok_iff.mpr ⟨hload, rfl⟩, rfl⟩

/-! ## Off the snapshots -/

/-- The counts that a campaign follows, as the files have them. -/
def counts? (k : CampaignKind) (files : SnapshotPaths) (t : Tree) : Option Metric :=
  match k with
  | profile => (t.loadSnapshot Memo.Snapshot.shape {} files.memo).toOption.map fun s ↦
      .single s.predicted.dedup.length
  | race => (t.loadSnapshot RaceDb.Snapshot.shape {} files.race).toOption.map fun s ↦
      ⟨(s.races.map (·.id)).dedup.length, s.racyInsts.dedup.length⟩
  | native | active _ | chess _ | random _ => none

/-- The files say that there is nothing left to do: no candidate of the target idiom is queued, or
the search is done. -/
def NothingLeft (k : CampaignKind) (files : SnapshotPaths) (t : Tree) : Prop :=
  match k with
  | active target =>
    ∃ catalog s, MemoChange.loadCatalogOf t files = .ok catalog ∧
      t.loadSnapshot Memo.Snapshot.shape {} files.memo = .ok s ∧
      ∀ c ∈ s.candidates, ∃ idiom ∈ target, catalog.idiomOf? c.iroot ≠ some idiom
  | chess _ => ∃ search, t.loadSearch files.search = .ok search ∧ search.done = true
  | native | profile | race | random _ => False

end CampaignKind

theorem Tree.loadDatabases_eq_ok {t : Tree} {files : SnapshotPaths} {d : Databases}
    (h : t.loadDatabases files = .ok d) :
    MemoChange.loadCatalogOf t files = .ok d.catalog ∧
      ∃ s, t.loadSnapshot Memo.Snapshot.shape {} files.memo = .ok s ∧ s.unchecked = d.memo := by
  obtain ⟨registry, hregistry, h⟩ := bind_eq_ok.mp h
  obtain ⟨catalog, hcatalog, h⟩ := bind_eq_ok.mp h
  obtain ⟨m, hm, ⟨⟩⟩ := bind_eq_ok.mp h
  obtain ⟨s, hs, hm⟩ := bind_eq_ok.mp hm
  have hunchecked : s.unchecked = m := (Memo.ofSnapshot_eq_ok_iff.mp hm).2.2
  exact ⟨bind_eq_ok.mpr ⟨registry, hregistry, hcatalog⟩, s, hs, hunchecked⟩

theorem Memo.hasCandidate_iff {m : Memo} {catalog : Catalog} {target : Option Idiom} :
    m.hasCandidate catalog target = true ↔
      ∃ id, m.candidates.contains id = true ∧
        ∀ idiom ∈ target, catalog.idiomOf? id = some idiom := by
  simp only [← SortedMap.mem_keys_iff]
  cases target with
  | none =>
    have hkeys : m.candidates.isEmpty = m.candidates.keys.isEmpty := List.isEmpty_map.symm
    simp [hasCandidate, hkeys, List.eq_nil_iff_forall_not_mem]
  | some idiom => simp [hasCandidate]

theorem Memo.hasCandidate_unchecked {s : Memo.Snapshot} {catalog : Catalog}
    {target : Option Idiom} :
    s.unchecked.hasCandidate catalog target = false ↔
      ∀ c ∈ s.candidates, ∃ idiom ∈ target, catalog.idiomOf? c.iroot ≠ some idiom := by
  rw [← Bool.not_eq_true, hasCandidate_iff]
  simp [Snapshot.unchecked, SortedMap.contains_ofList_iff]

/-- How many iRoots of each idiom the memo in the files has as exposed or shadow-exposed. -/
def Tree.Shows (t : Tree) (files : SnapshotPaths) (observed : PerIdiom ℕ) : Prop :=
  ∃ catalog s, MemoChange.loadCatalogOf t files = .ok catalog ∧
    t.loadSnapshot Memo.Snapshot.shape {} files.memo = .ok s ∧
    ∀ idiom, observed idiom = ((s.exposed ++ s.shadowExposed).filter fun id ↦
      catalog.idiomOf? id == some idiom).dedup.length

theorem Memo.observedCounts_unchecked (s : Memo.Snapshot) (catalog : Catalog) (idiom : Idiom) :
    s.unchecked.observedCounts catalog idiom = ((s.exposed ++ s.shadowExposed).filter fun id ↦
      catalog.idiomOf? id == some idiom).dedup.length := by
  refine SortedMap.size_eq_length_dedup fun id ↦ ?_
  rw [observedFor, ofIdiom, SortedSet.contains_filter, SortedSet.contains_union]
  simp [Snapshot.unchecked, SortedSet.contains_ofList_iff, or_and_right]

theorem Tree.shows_of_loadDatabases {t : Tree} {files : SnapshotPaths} {d : Databases}
    (h : t.loadDatabases files = .ok d) : t.Shows files (d.memo.observedCounts d.catalog) := by
  obtain ⟨hcatalog, s, hs, hmemo⟩ := Tree.loadDatabases_eq_ok h
  refine ⟨d.catalog, s, hcatalog, hs, fun idiom ↦ ?_⟩
  rw [← hmemo, Memo.observedCounts_unchecked]

theorem RaceDb.metric_ofSnapshot {s : RaceDb.Snapshot} {registry : Registry} {db : RaceDb}
    (h : ofSnapshot s registry = .ok db) :
    db.metric = ⟨(s.races.map (·.id)).dedup.length, s.racyInsts.dedup.length⟩ := by
  rw [ofSnapshot] at h
  split at h
  · exact nomatch h
  · obtain rfl := Except.ok.inj h
    rw [metric, SortedMap.size_ofList, SortedSet.size_ofList, List.map_map]
    rfl

namespace CampaignKind

variable {k : CampaignKind} {files : SnapshotPaths} {t : Tree} {q q' : Progress}

/-- A campaign that follows counts knows those in its files. -/
theorem Learns.metric? (h : k.Learns files t q q') : k.metric? q' = k.counts? files t := by
  cases k with
  | native | active | chess | random => rfl
  | profile =>
    obtain ⟨d, hd, rfl⟩ := h
    obtain ⟨-, s, hs, hmemo⟩ := Tree.loadDatabases_eq_ok hd
    rw [counts?, hs, ← hmemo]
    exact congrArg (some ∘ Metric.single) (SortedSet.size_ofList s.predicted)
  | race =>
    obtain ⟨registry, races, -, hraces, rfl⟩ := h
    obtain ⟨s, hs, hraces⟩ := bind_eq_ok.mp hraces
    rw [counts?, hs]
    exact congrArg some (RaceDb.metric_ofSnapshot hraces)

/-- A campaign that had something to do knows from its files if it still has. -/
theorem Learns.exhausted_iff (h : k.Learns files t q q') (hq : q.exhausted = false) :
    q'.exhausted = true ↔ k.NothingLeft files t := by
  cases k with
  | native | random =>
    obtain rfl := h
    simp [NothingLeft, hq]
  | profile =>
    obtain ⟨d, -, rfl⟩ := h
    simp [NothingLeft]
  | race =>
    obtain ⟨_, _, -, -, rfl⟩ := h
    simp [NothingLeft]
  | active target =>
    obtain ⟨d, hd, rfl⟩ := h
    obtain ⟨hcatalog, s, hs, hmemo⟩ := Tree.loadDatabases_eq_ok hd
    rw [Bool.not_eq_true', ← hmemo, Memo.hasCandidate_unchecked, NothingLeft]
    simp [hcatalog, hs]
  | chess =>
    obtain ⟨search, hsearch, rfl⟩ := h
    simp [NothingLeft, hsearch]

end CampaignKind

end Interleave
