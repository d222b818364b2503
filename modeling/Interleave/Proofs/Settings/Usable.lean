import Interleave.Settings.Basic
import Mathlib.Logic.Basic

/-!
# Which settings are accepted

The check of the settings looks for a first fault, list by list. What it comes to is a condition on
each field by itself, but for the phases, where the rule, the kind of the phase and the cap on the
runs have to go together (`PhaseSettings.Usable`). The condition is stated here field by field,
without the lists (`Settings.Checked`).

One list is short of a file: nobody looks at the name of the history. So settings that are accepted
are usable but for that name (`Settings.check_eq_ok_iff`).
-/

namespace Interleave

/-! ## Phases -/

theorem PhaseSettings.fault?_eq_none_iff {s : PhaseSettings} {name : String}
    {cap : Option UInt64} :
    s.fault? name cap = none ↔
      ¬ (s.mode = .runout ∧ s.threshold = 0) ∧ (cap ≠ none ∨ s.mode.stops name = true) := by
  rw [PhaseSettings.fault?]
  split
  · next h => exact iff_of_false (Option.some_ne_none _) fun h' ↦ h'.1 h
  · next h =>
    rw [ite_eq_right_iff, and_iff_right h]
    simp only [reduceCtorEq, imp_false, not_and_or, Option.isNone_iff_eq_none, Bool.not_eq_true',
      Bool.not_eq_false, ne_eq]

/-- The phase has a first run, and something that stops it: a cap, a number of runs or seconds, or a
rule that follows what this kind of phase has. -/
structure PhaseSettings.Usable (s : PhaseSettings) (p : PhaseName) (cap : Option UInt64) :
    Prop where
  threshold : ¬ (s.mode = .runout ∧ s.threshold = 0)
  stops : cap ≠ none ∨ s.mode = .runout ∨ s.mode = .timeout ∨
    s.mode = .stable ∧ (p = .profile ∨ p = .race) ∨ s.mode = .finish ∧ (p = .active ∨ p = .chess)

theorem Mode.stops_iff {mode : Mode} {p : PhaseName} :
    mode.stops p.text = true ↔ mode = .runout ∨ mode = .timeout ∨
      mode = .stable ∧ (p = .profile ∨ p = .race) ∨
        mode = .finish ∧ (p = .active ∨ p = .chess) := by
  cases mode <;> cases p <;> decide

theorem PhaseSettings.usable_iff {s : PhaseSettings} {p : PhaseName} {cap : Option UInt64} :
    s.Usable p cap ↔ s.fault? p.text cap = none := by
  rw [fault?_eq_none_iff, Mode.stops_iff]
  exact ⟨fun h ↦ ⟨h.threshold, h.stops⟩, fun ⟨hthreshold, hstops⟩ ↦ ⟨hthreshold, hstops⟩⟩

namespace Settings

variable {s : Settings}

/-! ## Fields -/

/-- What the check asks of settings. -/
structure Checked (s : Settings) : Prop where
  level : s.logging.level = "trace" ∨ s.logging.level = "debug" ∨ s.logging.level = "info" ∨
    s.logging.level = "warn" ∨ s.logging.level = "error"
  format : s.logging.format = "json" ∨ s.logging.format = "pretty"
  registry : s.snapshots.registry ≠ ""
  catalog : s.snapshots.catalog ≠ ""
  memo : s.snapshots.memo ≠ ""
  race : s.snapshots.race ≠ ""
  search : s.snapshots.search ≠ ""
  coverage : s.reports.coverage ≠ ""
  timing : s.reports.timing ≠ ""
  timeout : 1 ≤ s.engine.runTimeoutSecs
  cap : s.campaign.maxRuns ≠ some 0
  phases : ∀ p, (s.campaign.phase p).Usable p s.campaign.maxRuns

/-- What a user may expect of settings that are accepted: every file has a name. -/
structure Usable (s : Settings) : Prop extends s.Checked where
  history : s.snapshots.history ≠ ""

theorem unnamed_eq_none_iff {fault : String → SettingsFault} {files : List (String × String)} :
    unnamed fault files = none ↔ ∀ f ∈ files, f.2 ≠ "" := by
  simp [unnamed, List.find?_eq_none]

theorem loggingFault?_eq_none_iff :
    s.loggingFault? = none ↔
      s.logging.level ∈ LoggingSettings.levels ∧ s.logging.format ∈ LoggingSettings.formats := by
  rw [loggingFault?]
  split
  · next h => exact iff_of_false (Option.some_ne_none _) fun h' ↦ h h'.1
  · next h =>
    rw [ite_eq_right_iff, and_iff_right (not_not.mp h)]
    simp only [reduceCtorEq, imp_false, not_not]

theorem mem_allPhases (p : PhaseName) : p ∈ PhaseName.all := by
  cases p <;> decide

theorem phasesFault?_eq_none_iff :
    s.phasesFault? = none ↔ ∀ p, (s.campaign.phase p).Usable p s.campaign.maxRuns := by
  simp only [phasesFault?, List.findSome?_eq_none_iff, mem_allPhases, forall_const,
    PhaseSettings.usable_iff]

theorem fault?_eq_none_iff_lists :
    s.fault? = none ↔
      (s.logging.level ∈ LoggingSettings.levels ∧ s.logging.format ∈ LoggingSettings.formats) ∧
        (∀ f ∈ s.requiredFiles, f.2 ≠ "") ∧ (∀ f ∈ s.reportFiles, f.2 ≠ "") ∧
        s.engine.runTimeoutSecs ≠ 0 ∧ s.campaign.maxRuns ≠ some 0 ∧
        ∀ p, (s.campaign.phase p).Usable p s.campaign.maxRuns := by
  simp only [fault?, Option.or_eq_none_iff, loggingFault?_eq_none_iff, unnamed_eq_none_iff,
    phasesFault?_eq_none_iff, ite_eq_right_iff, reduceCtorEq, imp_false, and_assoc, ne_eq]

theorem fault?_eq_none_iff : s.fault? = none ↔ s.Checked := by
  have hsnapshots : (∀ f ∈ s.requiredFiles, f.2 ≠ "") ↔
      s.snapshots.registry ≠ "" ∧ s.snapshots.catalog ≠ "" ∧ s.snapshots.memo ≠ "" ∧
        s.snapshots.race ≠ "" ∧ s.snapshots.search ≠ "" := by
    simp [requiredFiles]
  have hreports : (∀ f ∈ s.reportFiles, f.2 ≠ "") ↔
      s.reports.coverage ≠ "" ∧ s.reports.timing ≠ "" := by
    simp [reportFiles]
  have htimeout : s.engine.runTimeoutSecs ≠ 0 ↔ 1 ≤ s.engine.runTimeoutSecs := by
    rw [UInt64.le_iff_toNat_le, UInt64.toNat_one, Nat.one_le_iff_ne_zero, ← UInt64.toNat_zero,
      ne_eq, ne_eq, UInt64.toNat_inj]
  rw [fault?_eq_none_iff_lists, hsnapshots, hreports, htimeout]
  simp only [LoggingSettings.levels, LoggingSettings.formats, List.mem_cons, List.not_mem_nil,
    or_false]
  constructor
  · rintro ⟨⟨hlevel, hformat⟩, ⟨hregistry, hcatalog, hmemo, hrace, hsearch⟩, ⟨hcoverage, htiming⟩,
      htimeout, hcap, hphases⟩
    exact ⟨hlevel, hformat, hregistry, hcatalog, hmemo, hrace, hsearch, hcoverage, htiming,
      htimeout, hcap, hphases⟩
  · intro h
    exact ⟨⟨h.level, h.format⟩, ⟨h.registry, h.catalog, h.memo, h.race, h.search⟩,
      ⟨h.coverage, h.timing⟩, h.timeout, h.cap, h.phases⟩

/-- **The check accepts exactly what is usable, but for the name of the history.** Settings are
accepted just when the level and format of the log are known, the files that are looked at have
names, runs have time, the cap on them is not zero, and every phase has a first run and something
that stops it. These settings are usable just when the history has a name as well. -/
theorem check_eq_ok_iff (s : Settings) :
    (s.check = .ok () ↔ s.Checked) ∧ (s.Usable ↔ s.check = .ok () ∧ s.snapshots.history ≠ "") := by
  have hcheck : s.check = .ok () ↔ s.Checked := by
    rw [← fault?_eq_none_iff, check]
    cases s.fault? <;> simp
  refine ⟨hcheck, ?_⟩
  rw [hcheck]
  exact ⟨fun h ↦ ⟨h.toChecked, h.history⟩, fun ⟨hchecked, hhistory⟩ ↦ ⟨hchecked, hhistory⟩⟩

/-- Settings whose history has no name are accepted. -/
theorem check_eq_ok_unnamed_history :
    let s : Settings := { snapshots := { history := "" } }
    s.check = .ok () ∧ ¬ s.Usable := by
  intro s
  exact ⟨rfl, fun h ↦ h.history rfl⟩

end Settings

end Interleave
