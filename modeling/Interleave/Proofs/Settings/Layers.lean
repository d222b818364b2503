import Interleave.Proofs.Settings.TidyLayers
import Mathlib

/-!
# Settings in layers

Settings come from files and from the environment, laid over each other and over the defaults. Each
layer may hold any part of them, down to a half of what a phase is told (`Json.Fits`). Then each
single setting, whatever section it is in, has the value of the highest layer that gives it, or else
its default; no layer resets what it does not mention (`Settings.load_layered`).

The settings are listed one by one (`Setting`), each with the section it stands in and the field
that reads it. That the list is complete shows in that settings can be put together again from the
values of all entries (`Settings.ofValues_get`).
-/

namespace Interleave

open Json (highest?)

/-! ## Single settings -/

/-- A single setting, indexed by the type of its values. -/
inductive Setting : Type → Type
  | level : Setting String
  | format : Setting String
  | logDir : Setting (Option String)
  | registry : Setting String
  | catalog : Setting String
  | memo : Setting String
  | race : Setting String
  | search : Setting String
  | history : Setting String
  | command : Setting (List String)
  | runTimeoutSecs : Setting UInt64
  | strictExit : Setting Bool
  | inheritStdin : Setting Bool
  | coverage : Setting String
  | timing : Setting String
  | maxRuns : Setting (Option UInt64)
  | mode (p : PhaseName) : Setting Mode
  | threshold (p : PhaseName) : Setting UInt64

namespace Setting

variable {α : Type}

/-- The section in which the setting stands. -/
def place : Setting α → List String
  | level | format | logDir => ["logging"]
  | registry | catalog | memo | race | search | history => ["snapshots"]
  | command | runTimeoutSecs | strictExit | inheritStdin => ["engine"]
  | coverage | timing => ["reporting"]
  | maxRuns => ["campaign"]
  | mode p | threshold p => ["campaign", p.text]

/-- The field of the section that holds the setting. -/
def field : Setting α → Field α
  | level => .withDefault "level" .text "info"
  | format => .withDefault "format" .text "pretty"
  | logDir => .omittable "log_dir" .text
  | registry => .withDefault "sinfo" .text "sinfo.json"
  | catalog => .withDefault "iroot" .text "iroot.json"
  | memo => .withDefault "memo" .text "memo.json"
  | race => .withDefault "race" .text "race.json"
  | search => .withDefault "search" .text "search.json"
  | history => .withDefault "test_history" .text "test_history.json"
  | command => .withDefault "command" (.list .text) []
  | runTimeoutSecs => .withDefault "run_timeout_secs" .word64 3600
  | strictExit => .withDefault "mismatch_on_nonzero_exit" .bool false
  | inheritStdin => .withDefault "inherit_stdin" .bool true
  | coverage => .withDefault "coverage_log" .text "coverage"
  | timing => .withDefault "timing_log" .text "timing"
  | maxRuns => .omittable "max_runs" .word64
  | mode _ => .required "mode" Mode.shape
  | threshold _ => .required "threshold" .word64

/-- The value that settings have. -/
def get (s : Settings) : Setting α → α
  | level => s.logging.level
  | format => s.logging.format
  | logDir => s.logging.dir
  | registry => s.snapshots.registry
  | catalog => s.snapshots.catalog
  | memo => s.snapshots.memo
  | race => s.snapshots.race
  | search => s.snapshots.search
  | history => s.snapshots.history
  | command => s.engine.command
  | runTimeoutSecs => s.engine.runTimeoutSecs
  | strictExit => s.engine.strictExit
  | inheritStdin => s.engine.inheritStdin
  | coverage => s.reports.coverage
  | timing => s.reports.timing
  | maxRuns => s.campaign.maxRuns
  | mode p => (s.campaign.phase p).mode
  | threshold p => (s.campaign.phase p).threshold

/-- The keys that lead to the setting. -/
def path (x : Setting α) : List String := x.place ++ [x.field.name]

end Setting

namespace Settings

/-- The settings of given values. -/
def ofValues (values : ∀ α : Type, Setting α → α) : Settings where
  logging := ⟨values _ .level, values _ .format, values _ .logDir⟩
  snapshots := ⟨values _ .registry, values _ .catalog, values _ .memo, values _ .race,
    values _ .search, values _ .history⟩
  engine := ⟨values _ .command, values _ .runTimeoutSecs, values _ .strictExit,
    values _ .inheritStdin⟩
  reports := ⟨values _ .coverage, values _ .timing⟩
  campaign := ⟨values _ .maxRuns, fun p ↦ ⟨values _ (.mode p), values _ (.threshold p)⟩⟩

theorem ofValues_get (s : Settings) : ofValues (fun _ x ↦ x.get s) = s := rfl

theorem get_ofValues (values : ∀ α : Type, Setting α → α) {α : Type} (x : Setting α) :
    x.get (ofValues values) = values α x := by
  cases x <;> rfl

end Settings

/-! ## Layers -/

/-- A value of the setting's type that is not an object. A mode may also be given as an object that
maps its name to null; but what is laid over such an object adds to it, as to a section. -/
def Setting.Accepts {α : Type} (x : Setting α) (v : Json) : Prop :=
  v.IsLeaf ∧ ∃ a, x.field.shape.adopt v = some a

instance {α : Type} (x : Setting α) : DecidablePred x.Accepts := fun v ↦
  decidable_of_iff (v.IsLeaf ∧ (x.field.shape.adopt v).isSome)
    (and_congr_right fun _ ↦ Option.isSome_iff_exists)

/-- A layer that holds settings: whatever it has in place of a section is an object, and whatever it
has in place of a setting is a value of its type. It need not have all of them, and it may have
anything else. -/
def Json.Fits (layer : Json) : Prop :=
  ∀ (α : Type) (x : Setting α), layer.Along x.Accepts x.path

namespace Setting

variable {α : Type} {x : Setting α} {a : α} {v w : Json}

/-- What the setting is if it is not written down with the defaults. -/
def unwritten? (x : Setting α) : Option α :=
  if x.field.hidden (x.get {}) then x.field.absent else none

/-- The value of the setting in settings that are laid over the defaults. -/
def read? (x : Setting α) (v : Json) : Option α :=
  match v.at? x.path with
  | some w => x.field.shape.adopt w
  | none => x.unwritten?

theorem read?_defaults (x : Setting α) :
    x.read? (Json.overlay (.object []) Settings.defaults) = some (x.get {}) := by
  cases x with
  | mode p => cases p <;> rfl
  | threshold p => cases p <;> rfl
  | _ => rfl

theorem read?_congr (h : v.at? x.path = w.at? x.path) : x.read? v = x.read? w := by
  rw [read?, read?, h]

/-- A setting that is written with the defaults is there, and so is its section. -/
theorem exists_place (hx : x.unwritten? = none) (h : x.read? v = some a) :
    ∃ w u, v.at? x.place = some w ∧ w.fields.lookup x.field.name = some u := by
  rw [read?] at h
  cases hu : v.at? x.path with
  | none =>
    rw [hu, hx] at h
    contradiction
  | some u =>
    rw [path, Json.at?_append] at hu
    obtain ⟨w, hw, hu⟩ := Option.bind_eq_some_iff.mp hu
    obtain ⟨u', hu', -⟩ := Option.bind_eq_some_iff.mp hu
    exact ⟨w, u', hw, hu'⟩

end Setting

/-! ## Reading sections -/

/-- The value of a field among the fields of an object. -/
def Field.take? {α : Type} (f : Field α) (given : List (String × Json)) : Option α :=
  match given.lookup f.name with
  | some v => f.shape.adopt v
  | none => f.absent

section

variable {α β τ : Type} {a : α} {b : β} {v w : Json}

theorem Fields.adoptFields_nil {given : List (String × Json)} :
    Fields.nil.adoptFields given = some () := rfl

theorem Fields.adoptFields_cons {f : Field α} {rest : Fields β} {given : List (String × Json)}
    (ha : f.take? given = some a) (hb : rest.adoptFields given = some b) :
    (Fields.cons f rest).adoptFields given = some (a, b) := by
  have htake : (rest.adoptFields given).bind (fun b ↦ some (a, b)) = some (a, b) := by
    rw [hb, Option.bind_some]
  rw [Field.take?] at ha
  rw [adoptFields]
  cases hlookup : given.lookup f.name with
  | some v =>
    rw [hlookup] at ha
    exact Option.bind_eq_some_iff.mpr ⟨a, ha, htake⟩
  | none =>
    rw [hlookup] at ha
    exact Option.bind_eq_some_iff.mpr ⟨a, ha, htake⟩

theorem Shape.adopt_record {name k : String} {fs : Fields τ} {out : α → τ} {into : τ → α} {t : τ}
    (hk : v.fields.lookup k = some w) (ht : fs.adoptFields v.fields = some t) (ha : into t = a) :
    (record name fs out into).adopt v = some a := by
  cases v with
  | object given => exact Option.bind_eq_some_iff.mpr ⟨t, ht, congrArg some ha⟩
  | _ => contradiction

theorem Field.take?_of_at? {f : Field α} (hw : v.at? [f.name] = some w)
    (ha : f.shape.adopt w = some a) : f.take? v.fields = some a := by
  obtain ⟨w', hlookup, ⟨⟩⟩ := Option.bind_eq_some_iff.mp hw
  rw [take?, hlookup]
  exact ha

theorem Setting.take?_of_read? {x : Setting α} (hw : v.at? x.place = some w)
    (ha : x.read? v = some a) : x.field.take? w.fields = some a := by
  rw [read?, path, Json.at?_append, hw, Option.bind_some, Json.at?] at ha
  rw [Field.take?]
  cases hlookup : w.fields.lookup x.field.name with
  | some u =>
    rw [hlookup] at ha
    exact ha
  | none =>
    rw [hlookup, Option.bind_none] at ha
    change (if _ then _ else none) = some a at ha
    split at ha
    · exact ha
    · contradiction

end

namespace Settings

variable {s : Settings} {v : Json}

/-- All settings of a value are those of `s`. -/
def ReadFrom (s : Settings) (v : Json) : Prop :=
  ∀ (α : Type) (x : Setting α), x.read? v = some (x.get s)

namespace ReadFrom

theorem take (h : s.ReadFrom v) {place : List String} {w : Json} (hw : v.at? place = some w)
    {α : Type} (x : Setting α) (hx : x.place = place) : x.field.take? w.fields = some (x.get s) :=
  Setting.take?_of_read? (hx ▸ hw) (h α x)

theorem logging (h : s.ReadFrom v) :
    ∃ w, v.at? ["logging"] = some w ∧ LoggingSettings.shape.adopt w = some s.logging := by
  obtain ⟨w, u, (hw : v.at? ["logging"] = some w), hu⟩ := Setting.exists_place rfl (h _ .level)
  have hfields := Fields.adoptFields_cons (h.take hw .level rfl) <|
    Fields.adoptFields_cons (h.take hw .format rfl) <|
    Fields.adoptFields_cons (h.take hw .logDir rfl) Fields.adoptFields_nil
  exact ⟨w, hw, Shape.adopt_record hu hfields rfl⟩

theorem snapshots (h : s.ReadFrom v) :
    ∃ w, v.at? ["snapshots"] = some w ∧ SnapshotPaths.shape.adopt w = some s.snapshots := by
  obtain ⟨w, u, (hw : v.at? ["snapshots"] = some w), hu⟩ := Setting.exists_place rfl (h _ .registry)
  have hfields := Fields.adoptFields_cons (h.take hw .registry rfl) <|
    Fields.adoptFields_cons (h.take hw .catalog rfl) <|
    Fields.adoptFields_cons (h.take hw .memo rfl) <|
    Fields.adoptFields_cons (h.take hw .race rfl) <|
    Fields.adoptFields_cons (h.take hw .search rfl) <|
    Fields.adoptFields_cons (h.take hw .history rfl) Fields.adoptFields_nil
  exact ⟨w, hw, Shape.adopt_record hu hfields rfl⟩

theorem engine (h : s.ReadFrom v) :
    ∃ w, v.at? ["engine"] = some w ∧ EngineSettings.shape.adopt w = some s.engine := by
  obtain ⟨w, u, (hw : v.at? ["engine"] = some w), hu⟩ := Setting.exists_place rfl (h _ .command)
  have hfields := Fields.adoptFields_cons (h.take hw .command rfl) <|
    Fields.adoptFields_cons (h.take hw .runTimeoutSecs rfl) <|
    Fields.adoptFields_cons (h.take hw .strictExit rfl) <|
    Fields.adoptFields_cons (h.take hw .inheritStdin rfl) Fields.adoptFields_nil
  exact ⟨w, hw, Shape.adopt_record hu hfields rfl⟩

theorem reports (h : s.ReadFrom v) :
    ∃ w, v.at? ["reporting"] = some w ∧ Report.Files.shape.adopt w = some s.reports := by
  obtain ⟨w, u, (hw : v.at? ["reporting"] = some w), hu⟩ := Setting.exists_place rfl (h _ .coverage)
  have hfields := Fields.adoptFields_cons (h.take hw .coverage rfl) <|
    Fields.adoptFields_cons (h.take hw .timing rfl) Fields.adoptFields_nil
  exact ⟨w, hw, Shape.adopt_record hu hfields rfl⟩

theorem phase (h : s.ReadFrom v) (p : PhaseName) :
    ∃ w, v.at? ["campaign", p.text] = some w ∧
      PhaseSettings.shape.adopt w = some (s.campaign.phase p) := by
  obtain ⟨w, u, (hw : v.at? ["campaign", p.text] = some w), hu⟩ :=
    Setting.exists_place rfl (h _ (.mode p))
  have hfields := Fields.adoptFields_cons (h.take hw (.mode p) rfl) <|
    Fields.adoptFields_cons (h.take hw (.threshold p) rfl) Fields.adoptFields_nil
  exact ⟨w, hw, Shape.adopt_record hu hfields rfl⟩

theorem campaign (h : s.ReadFrom v) :
    ∃ w, v.at? ["campaign"] = some w ∧ CampaignSettings.shape.adopt w = some s.campaign := by
  have hsplit (p : PhaseName) :
      v.at? ["campaign", p.text] = (v.at? ["campaign"]).bind (·.at? [p.text]) :=
    Json.at?_append v ["campaign"] [p.text]
  obtain ⟨_, hnative, -⟩ := h.phase .native
  rw [hsplit] at hnative
  obtain ⟨w, hw, hnative⟩ := Option.bind_eq_some_iff.mp hnative
  obtain ⟨_, hlookup, -⟩ := Option.bind_eq_some_iff.mp hnative
  have hphase (p : PhaseName) : (Field.withDefault p.text PhaseSettings.shape p.standard).take?
      w.fields = some (s.campaign.phase p) := by
    obtain ⟨u, hu, hadopt⟩ := h.phase p
    rw [hsplit, hw, Option.bind_some] at hu
    exact Field.take?_of_at? hu hadopt
  have hfields := Fields.adoptFields_cons (h.take hw .maxRuns rfl) <|
    Fields.adoptFields_cons (hphase .native) <| Fields.adoptFields_cons (hphase .profile) <|
    Fields.adoptFields_cons (hphase .active) <| Fields.adoptFields_cons (hphase .race) <|
    Fields.adoptFields_cons (hphase .chess) <| Fields.adoptFields_cons (hphase .random)
      Fields.adoptFields_nil
  refine ⟨w, hw, Shape.adopt_record hlookup hfields ?_⟩
  exact congrArg (CampaignSettings.mk _) (funext fun p ↦ by cases p <;> rfl)

theorem adopt (h : s.ReadFrom v) : shape.adopt v = some s := by
  obtain ⟨logging, hlogging, hadopt⟩ := h.logging
  obtain ⟨_, hlookup, -⟩ := Option.bind_eq_some_iff.mp hlogging
  obtain ⟨snapshots, hsnapshots, hadoptS⟩ := h.snapshots
  obtain ⟨engine, hengine, hadoptE⟩ := h.engine
  obtain ⟨reports, hreports, hadoptR⟩ := h.reports
  obtain ⟨campaign, hcampaign, hadoptC⟩ := h.campaign
  exact Shape.adopt_record hlookup (Fields.adoptFields_cons (Field.take?_of_at? hlogging hadopt) <|
    Fields.adoptFields_cons (Field.take?_of_at? hsnapshots hadoptS) <|
    Fields.adoptFields_cons (Field.take?_of_at? hengine hadoptE) <|
    Fields.adoptFields_cons (Field.take?_of_at? hreports hadoptR) <|
    Fields.adoptFields_cons (Field.take?_of_at? hcampaign hadoptC) Fields.adoptFields_nil) rfl

end ReadFrom

/-! ## Layers on top of the defaults -/

/-- Each setting has the value that the highest layer gives it, or else its default. -/
def Takes (s : Settings) (layers : List Json) : Prop :=
  ∀ (α : Type) (x : Setting α),
    match highest? layers x.path with
    | some v => x.field.shape.adopt v = some (x.get s)
    | none => x.get s = x.get {}

variable {s' : Settings} {layers layers' : List Json}

/-- Settings are no more than their single settings. -/
theorem Takes.unique (h : s.Takes layers) (h' : s'.Takes layers) : s = s' := by
  have hget : (fun (α : Type) (x : Setting α) ↦ x.get s) = fun (α : Type) (x : Setting α) ↦
      x.get s' := by
    funext α x
    have hx := h α x
    have hx' := h' α x
    cases hhighest : highest? layers x.path with
    | none =>
      rw [hhighest] at hx hx'
      exact hx.trans hx'.symm
    | some v =>
      rw [hhighest] at hx hx'
      exact Option.some.inj (hx.symm.trans hx')
  rw [← ofValues_get s, hget, ofValues_get]

theorem Takes.congr (h : ∀ (α : Type) (x : Setting α),
    highest? layers x.path = highest? layers' x.path) (hs : s.Takes layers) :
    s.Takes layers' := by
  intro α x
  rw [← h]
  exact hs α x

theorem at?_stack {α : Type} (x : Setting α) (h : ∀ layer ∈ layers, layer.Tidy ∧ layer.Fits) :
    (stack layers).at? x.path = (highest? layers x.path).or
      ((Json.overlay (.object []) defaults).at? x.path) :=
  Json.at?_foldl_overlay fun layer hlayer ↦
    ⟨(h layer hlayer).1, ((h layer hlayer).2 α x).imp fun _ hv ↦ hv.1⟩

/-- Layers that fit come to settings. -/
theorem exists_takes (h : ∀ layer ∈ layers, layer.Tidy ∧ layer.Fits) :
    ∃ s : Settings, s.Takes layers ∧ ofLayers? layers = some s := by
  have hread (α : Type) (x : Setting α) : ∃ a, x.read? (stack layers) = some a ∧
      match highest? layers x.path with
      | some v => x.field.shape.adopt v = some a
      | none => a = x.get {} := by
    have hat := at?_stack x h
    cases hhighest : highest? layers x.path with
    | none =>
      rw [hhighest, Option.none_or] at hat
      exact ⟨x.get {}, (Setting.read?_congr hat).trans (Setting.read?_defaults x), rfl⟩
    | some v =>
      obtain ⟨layer, hlayer, hv⟩ := Json.exists_of_highest? hhighest
      obtain ⟨-, a, ha⟩ := ((h layer hlayer).2 α x).of_at? hv
      rw [hhighest, Option.some_or] at hat
      refine ⟨a, ?_, ha⟩
      rw [Setting.read?, hat]
      exact ha
  choose values hvalues hhighest using hread
  refine ⟨ofValues values, fun α x ↦ ?_, ReadFrom.adopt fun α x ↦ ?_⟩
  · rw [get_ofValues]
    exact hhighest α x
  · rw [get_ofValues]
    exact hvalues α x

/-! ## Loading -/

/-- The files that are read. -/
def filesOf : Option String → List String
  | some file => [file]
  | none => projectFiles

/-- What the layers come to is checked, and is the result if nothing is wrong with it. -/
theorem load_eq {reader : SettingsReader} {t : Tree} {env : Environment} {file : Option String}
    (hlayers : (filesOf file).mapM (reader.file? t) = some layers)
    (hs : ofLayers? (layers ++ [reader.ofEnvironment env]) = some s) :
    load reader t env file = (s.check.mapError .refused).map fun () ↦ s := by
  have hbind : ((filesOf file).mapM (reader.file? t)).bind
      (fun layers ↦ ofLayers? (layers ++ [reader.ofEnvironment env])) = some s := by
    rw [hlayers, Option.bind_some, hs]
  cases file with
  | none =>
    rw [filesOf] at hbind
    simp only [load, hbind]
    cases s.check <;> rfl
  | some file =>
    rw [filesOf] at hbind
    simp only [load, hbind]
    cases s.check <;> rfl

/-- A layer without settings makes no difference. -/
theorem highest?_without {α : Type} (x : Setting α) (project env : Json) :
    highest? [project, env] x.path = highest? [project, .object [], env] x.path := by
  have hpath : x.path ≠ [] := List.append_ne_nil_of_right_ne_nil _ (List.cons_ne_nil _ _)
  rw [Json.highest?_cons, Json.highest?_cons, Json.highest?_cons, Json.highest?_cons,
    Json.highest?_cons, Json.at?_empty hpath, Option.or_none]

/-- **Every setting that is loaded has the value of the highest layer that gives it.** If the files
of the project and the environment, however they are read, hold settings, any part of them each,
then what is loaded has for each single setting the value that the environment gives it, or else the
local file, or else the file of the project, or else its default; and the result is what the check
says of that. Another file that holds the same as the file of the project comes to the same as the
project without a local file. -/
theorem load_layered {reader : SettingsReader} (hreader : reader.Tidy) {t : Tree}
    {env : Environment} {project loc : Json}
    (hproject : reader.file? t ".ravel/config.yaml" = some project)
    (hlocal : reader.file? t ".ravel/local.yaml" = some loc)
    (hfits : ∀ layer ∈ [project, loc, reader.environment "RAVEL_" "__" env], layer.Fits) :
    let layers := [project, loc, reader.environment "RAVEL_" "__" env]
    (∃ s : Settings, s.Takes layers ∧ (∀ s' : Settings, s'.Takes layers → s' = s) ∧
        load reader t env none = (s.check.mapError .refused).map fun () ↦ s) ∧
      ∀ (t' : Tree) (file : String),
        (t'.read file).toOption = (t.read ".ravel/config.yaml").toOption →
        (∀ c, t.read ".ravel/local.yaml" ≠ .ok c) →
          load reader t' env (some file) = load reader t env none := by
  intro layers
  have hlayers : projectFiles.mapM (reader.file? t) = some [project, loc] := by
    rw [projectFiles, List.mapM_cons, hproject, List.mapM_cons, hlocal, List.mapM_nil]
    rfl
  have henvironment : (reader.ofEnvironment env).Tidy := hreader.environment _ _ env
  have hsound : ∀ layer ∈ [project, loc, reader.ofEnvironment env], layer.Tidy ∧ layer.Fits := by
    refine fun layer hlayer ↦ ⟨?_, hfits layer hlayer⟩
    rcases List.mem_cons.mp hlayer with rfl | hlayer
    · exact hreader.of_file? hproject
    · rcases List.mem_pair.mp hlayer with rfl | rfl
      · exact hreader.of_file? hlocal
      · exact henvironment
  obtain ⟨s, hs, hofLayers⟩ := exists_takes hsound
  have hload : load reader t env none = (s.check.mapError .refused).map fun () ↦ s :=
    load_eq hlayers hofLayers
  refine ⟨⟨s, hs, fun s' hs' ↦ hs'.unique hs, hload⟩, fun t' file hread hmissing ↦ ?_⟩
  obtain rfl : Json.object [] = loc :=
    Option.some.inj ((SettingsReader.file?_of_missing hmissing).symm.trans hlocal)
  have hlayer : [file].mapM (reader.file? t') = some [project] := by
    rw [List.mapM_cons, SettingsReader.file?_congr hread, hproject, List.mapM_nil]
    rfl
  have hsound' : ∀ layer ∈ [project, reader.ofEnvironment env], layer.Tidy ∧ layer.Fits := by
    intro layer hlayer
    rcases List.mem_pair.mp hlayer with rfl | rfl
    · exact hsound layer List.mem_cons_self
    · exact hsound _ (List.mem_cons_of_mem _ (List.mem_cons_of_mem _ List.mem_cons_self))
  obtain ⟨s', hs', hofLayers'⟩ := exists_takes hsound'
  have hsame : s'.Takes [project, .object [], reader.ofEnvironment env] :=
    hs'.congr fun _ x ↦ highest?_without x project (reader.ofEnvironment env)
  obtain rfl : s' = s := hsame.unique hs
  rw [hload]
  exact load_eq hlayer hofLayers'

/-- Each file has a half of what a phase is told, the local file takes the cap back, and a variable
tells half of another phase. -/
theorem load_layered_halves :
    let config := "campaign:\n  max_runs: 5\n  active:\n    mode: timeout\n"
    let overrides := "campaign:\n  max_runs: ~\n  active:\n    threshold: 60\n"
    let env : Environment := [("RAVEL_CAMPAIGN__RACE__THRESHOLD", "5")]
    let bare :=
      (Tree.empty.put [".ravel"] .dir).put [".ravel", "config.yaml"] (.file (.text config))
    let t := bare.put [".ravel", "local.yaml"] (.file (.text overrides))
    let campaign : CampaignSettings :=
      { phase := fun
          | .active => ⟨.timeout, 60⟩
          | .race => ⟨.stable, 5⟩
          | p => p.standard }
    load .standard t env none = .ok { campaign } ∧
      load .standard (Tree.empty.put ["f.yaml"] (.file (.text config))) env (some "f.yaml") =
        load .standard bare env none := by
  let project : Json := .object [("campaign", .object [
    ("active", .object [("mode", .text "timeout")]), ("max_runs", .nat 5)])]
  let loc : Json := .object [("campaign", .object [
    ("active", .object [("threshold", .nat 60)]), ("max_runs", .null)])]
  let race : Json := .object [("campaign", .object [("race", .object [("threshold", .nat 5)])])]
  have hconfig : Yaml.read? "campaign:\n  max_runs: 5\n  active:\n    mode: timeout\n" =
      some (.object [("campaign", .object [
        ("active", .object [("mode", .text "timeout")]), ("max_runs", .nat 5)])]) := by cbv
  have hoverrides : Yaml.read? "campaign:\n  max_runs: ~\n  active:\n    threshold: 60\n" =
      some (.object [("campaign", .object [
        ("active", .object [("threshold", .nat 60)]), ("max_runs", .null)])]) := by cbv
  have henv : SettingsReader.standard.environment "RAVEL_" "__"
      [("RAVEL_CAMPAIGN__RACE__THRESHOLD", "5")] = race := by cbv
  intro config overrides env bare t campaign
  obtain ⟨hproject, hloc, hrace, hempty⟩ :
      project.Fits ∧ loc.Fits ∧ race.Fits ∧ (Json.object []).Fits := by
    refine ⟨?_, ?_, ?_, ?_⟩
    all_goals
      intro α x
      cases x with
      | mode p => cases p <;> decide +kernel
      | threshold p => cases p <;> decide +kernel
      | _ => decide +kernel
  have hfits (layer : Json) (h : layer.Fits) :
      ∀ l ∈ [project, layer, SettingsReader.standard.environment "RAVEL_" "__" env], l.Fits := by
    have henv : (SettingsReader.standard.environment "RAVEL_" "__" env).Fits := henv ▸ hrace
    exact List.forall_mem_cons.mpr ⟨hproject, List.forall_mem_cons.mpr
      ⟨h, List.forall_mem_singleton.mpr henv⟩⟩
  have htakes : ({ campaign } : Settings).Takes [project, loc, race] := by
    intro α x
    cases x with
    | mode p => cases p <;> rfl
    | threshold p => cases p <;> rfl
    | _ => rfl
  have hread : t.read ".ravel/config.yaml" = .ok (.text config) := by decide +kernel
  have hreadLocal : t.read ".ravel/local.yaml" = .ok (.text overrides) := by decide +kernel
  have hreadBare : bare.read ".ravel/config.yaml" = .ok (.text config) := by decide +kernel
  have hmissing : bare.read ".ravel/local.yaml" = .error .notFound := by decide +kernel
  have hnone : ∀ c, bare.read ".ravel/local.yaml" ≠ .ok c :=
    fun c hc ↦ absurd (hmissing.symm.trans hc) (by simp)
  obtain ⟨⟨s, -, hunique, hload⟩, -⟩ := load_layered SettingsReader.tidy_standard
    (SettingsReader.file?_of_read hread hconfig)
    (SettingsReader.file?_of_read hreadLocal hoverrides) (hfits loc hloc)
  obtain ⟨-, hsame⟩ := load_layered SettingsReader.tidy_standard
    (SettingsReader.file?_of_read hreadBare hconfig) (SettingsReader.file?_of_missing hnone)
    (hfits (.object []) hempty)
  refine ⟨?_, hsame _ "f.yaml" (by decide +kernel) hnone⟩
  obtain rfl := hunique { campaign } (henv ▸ htakes)
  rw [hload]
  rfl

end Settings

end Interleave
