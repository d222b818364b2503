import Interleave.Proofs.Campaign.Projection
import Interleave.Proofs.Campaign.Reloading

/-!
# The journal of a campaign

The bookkeeping of a campaign is written into a journal: each line that it appends to the coverage
log, and at its end the run that it was for, with the failure if there was one. An entry keeps the
world as it was before, so that one can ask later what was in the files. The journal stands in the
world, and the phase in that world does as the phase does (`CampaignKind.projects_journaled`).

A *life* of a phase is any number of calls, each of which begins a new page of the journal. What a
turn can come to is said once (`CampaignKind.Turned`). What every turn keeps is kept by a call, on
its page (`CampaignKind.journaled_run`), and by a life, on all pages
(`CampaignKind.lives_induction`).
-/

namespace Interleave

/-- A line of the coverage log, and the world to which it was appended. -/
structure CoverageLine (ω : Type) where
  world : ω
  label : String
  used : Span
  observed : PerIdiom ℕ

/-- The bookkeeping of a run, begun in the world that the run has left. -/
structure Booking (ω : Type) where
  world : ω
  record : RunRecord
  failure : Option Failure
  deriving DecidableEq

inductive JournalEntry (ω : Type) where
  | line (l : CoverageLine ω)
  | booked (b : Booking ω)

namespace JournalEntry

variable {ω : Type}

def line? : JournalEntry ω → Option (CoverageLine ω)
  | line l => some l
  | booked _ => none

def booking? : JournalEntry ω → Option (Booking ω)
  | line _ => none
  | booked b => some b

def lines (page : List (JournalEntry ω)) : List (CoverageLine ω) := page.filterMap line?

def bookings (page : List (JournalEntry ω)) : List (Booking ω) := page.filterMap booking?

@[simp] theorem lines_append (page page' : List (JournalEntry ω)) :
    lines (page ++ page') = lines page ++ lines page' :=
  List.filterMap_append

@[simp] theorem bookings_append (page page' : List (JournalEntry ω)) :
    bookings (page ++ page') = bookings page ++ bookings page' :=
  List.filterMap_append

theorem bookings_booked (page : List (JournalEntry ω)) (b : Booking ω) :
    bookings (page ++ [.booked b]) = bookings page ++ [b] :=
  bookings_append page [.booked b]

theorem lines_booked (page : List (JournalEntry ω)) (b : Booking ω) :
    lines (page ++ [.booked b]) = lines page := by
  rw [lines_append]
  exact List.append_nil _

theorem bookings_lines (page : List (JournalEntry ω)) (ls : List (CoverageLine ω)) :
    bookings (page ++ ls.map .line) = bookings page := by
  have hnone : booking? ∘ .line = fun _ : CoverageLine ω ↦ none := rfl
  rw [bookings_append, bookings, bookings, List.filterMap_map, hnone]
  simp

end JournalEntry

/-! ## Writing it -/

section

variable {κ ω : Type}

/-- Launches are not written down. -/
def Launcher.journaled (l : Launcher ω) : Launcher (List (JournalEntry ω) × ω) where
  launch spec := CampaignKind.onWorld (l.launch spec)
  now := fun (_, w) ↦ l.now w

/-- A line that could not be appended is not written down. -/
def Reporting.journaled (r : Reporting ω) : Reporting (List (JournalEntry ω) × ω) where
  tree := fun (_, w) ↦ r.tree w
  recordCoverage label used observed := fun (page, w) ↦
    match r.recordCoverage label used observed w with
    | .ok _ w' => .ok () (page ++ [.line ⟨w, label, used, observed⟩], w')
    | .error e w' => .error e (page, w')
  recordTiming used := CampaignKind.onWorld (r.recordTiming used)

def Policy.journaled (p : Policy κ (List (JournalEntry ω) × ω)) :
    Policy κ (List (JournalEntry ω) × ω) where
  label := p.label
  configure := p.configure
  afterRun := fun i record (kind, page, w) ↦
    match p.afterRun i record (kind, page, w) with
    | .ok _ (kind, page, w') => .ok () (kind, page ++ [.booked ⟨w, record, none⟩], w')
    | .error e (kind, page, w') => .error e (kind, page ++ [.booked ⟨w, record, some e⟩], w')
  metric := p.metric
  exhausted := p.exhausted

end

namespace CampaignKind

variable {ω : Type} (k : CampaignKind) (rule : StopRule) (cap : Option UInt64) (r : Reporting ω)
  (files : SnapshotPaths) (l : Launcher ω) (spec : RunSpec)

/-- A phase of a kind in a world with a journal. -/
def journaled : Phase Progress (List (JournalEntry ω) × ω) where
  policy := (k.policy r.journaled files).journaled
  launcher := l.journaled
  rule
  spec
  maxRuns := cap

/-! ## The journal is one of the phase -/

theorem mapResult_bind {σ τ α β : Type} {f : σ → τ} {x' : Act σ α} {x : Act τ α}
    {g' : α → Act σ β} {g : α → Act τ β} (hx : ∀ s, mapResult f (x' s) = x (f s))
    (hg : ∀ a s, mapResult f (g' a s) = g a (f s)) (s : σ) :
    mapResult f ((x' >>= g') s) = (x >>= g) (f s) := by
  change mapResult f (EStateM.bind x' g' s) = EStateM.bind x g (f s)
  rw [EStateM.bind, EStateM.bind, ← hx]
  cases x' s with
  | ok a s => exact hg a s
  | error e s => rfl

section

variable {κ α : Type}

/-- Without the page. -/
def offPage (x : κ × List (JournalEntry ω) × ω) : κ × ω := (x.1, x.2.2)

theorem mapResult_fromTree (load : Tree → Except Failure α)
    (x : κ × List (JournalEntry ω) × ω) :
    mapResult offPage (fromTree r.journaled load x) = fromTree r load (offPage x) := by
  rw [fromTree, fromTree, offPage, Reporting.journaled]
  cases load (r.tree x.2.2) <;> rfl

theorem mapResult_logCoverage (name : String) (record : RunRecord)
    (x : κ × List (JournalEntry ω) × ω) :
    mapResult offPage (logCoverage r.journaled files name record x) =
      logCoverage r files name record (offPage x) := by
  refine mapResult_bind (mapResult_fromTree r _) (fun d ↦ ?_) x
  refine mapResult_bind (fun x ↦ ?_) fun _ _ ↦ rfl
  rw [onWorld, onWorld, offPage, Reporting.journaled]
  dsimp only
  cases r.recordCoverage name record.used (d.memo.observedCounts d.catalog) x.2.2 <;> rfl

end

theorem mapResult_afterRun (record : RunRecord) (x : Progress × List (JournalEntry ω) × ω) :
    mapResult offPage (k.afterRun r.journaled files record x) =
      k.afterRun r files record (offPage x) := by
  cases k with
  | native =>
    simp only [afterRun, onWorld, offPage, Reporting.journaled]
    cases r.recordTiming record.used x.2.2 <;> rfl
  | profile | active | random =>
    exact mapResult_bind (mapResult_logCoverage r files _ record) (fun _ _ ↦ rfl) x
  | race => exact mapResult_bind (mapResult_fromTree r _) (fun _ _ ↦ rfl) x
  | chess =>
    refine mapResult_bind (mapResult_fromTree r _) (fun search ↦ ?_) x
    refine mapResult_bind (fun _ ↦ rfl) fun _ ↦ ?_
    exact mapResult_bind (mapResult_logCoverage r files _ record) fun _ _ ↦ rfl

/-- The phase in the world with a journal does as the phase does. -/
theorem projects_journaled :
    Phase.Projects Prod.snd (k.journaled rule cap r files l spec)
      { policy := k.policy r files, launcher := l, rule, spec, maxRuns := cap } where
  configure := rfl
  metric := rfl
  exhausted := rfl
  rule := rfl
  spec := rfl
  maxRuns := rfl
  now _ := rfl
  launch spec w := by
    simp only [journaled, Launcher.journaled, onWorld]
    cases l.launch spec w.2 <;> rfl
  afterRun i record q w := by
    refine Eq.trans ?_ (mapResult_afterRun k r files record (q, w))
    simp only [journaled, Policy.journaled, policy]
    cases k.afterRun r.journaled files record (q, w) <;> rfl

end CampaignKind

/-! ## What the bookkeeping writes -/

namespace CampaignKind

variable {ω : Type} {k : CampaignKind} {r : Reporting ω} {files : SnapshotPaths}
  {record : RunRecord} {label : String} {used : Span} {observed : PerIdiom ℕ} {e : Failure}
  {q q' : Progress} {page page' : List (JournalEntry ω)} {w w' : ω}

/-- The label of the coverage lines of a kind that has them. -/
def lineLabel? : CampaignKind → Option String
  | native | race => none
  | profile => some profile.label
  | active target => some (active target).label
  | chess withRaces => some (chess withRaces).label
  | random scheduler => some scheduler.text

/-- The lines that go with a booking: none, or one that says what the files show. -/
def Writes (k : CampaignKind) (r : Reporting ω) (files : SnapshotPaths) (b : Booking ω)
    (ls : List (CoverageLine ω)) : Prop :=
  match k.lineLabel? with
  | none => ls = []
  | some label => ∃ observed, (r.tree b.world).Shows files observed ∧
      ls = [⟨b.world, label, b.record.used, observed⟩]

/-- The bookkeeping of a kind that has coverage lines can fail: the databases or the search state
cannot be loaded, or the line cannot be appended. -/
def Fails (k : CampaignKind) (r : Reporting ω) (files : SnapshotPaths) (label : String)
    (b : Booking ω) (e : Failure) : Prop :=
  (r.tree b.world).loadDatabases files = .error e ∨
    (∃ withRaces, k = chess withRaces ∧ (r.tree b.world).loadSearch files.search = .error e) ∨
    ∃ observed w', (r.tree b.world).Shows files observed ∧
      r.recordCoverage label b.record.used observed b.world = .error e w'

theorem recordCoverage_journaled_eq_ok
    (h : r.journaled.recordCoverage label used observed (page, w) = .ok () (page', w')) :
    page' = page ++ [.line ⟨w, label, used, observed⟩] := by
  rw [Reporting.journaled] at h
  dsimp only at h
  cases hr : r.recordCoverage label used observed w <;> rw [hr] at h <;> cases h
  rfl

theorem recordCoverage_journaled_eq_error
    (h : r.journaled.recordCoverage label used observed (page, w) = .error e (page', w')) :
    page' = page ∧ r.recordCoverage label used observed w = .error e w' := by
  rw [Reporting.journaled] at h
  dsimp only at h
  cases hr : r.recordCoverage label used observed w <;> rw [hr] at h <;> cases h
  exact ⟨rfl, rfl⟩

theorem afterRun_journaled_eq_ok
    (h : k.afterRun r.journaled files record (q, page, w) = .ok () (q', page', w')) :
    k.Learns files (r.tree w) q q' ∧ ∃ ls, k.Writes r files ⟨w, record, none⟩ ls ∧
      page' = page ++ ls.map .line := by
  have hlearns := learns_of_afterRun h
  refine ⟨hlearns, ?_⟩
  cases k with
  | native =>
    rw [afterRun] at h
    obtain ⟨htiming, -⟩ := onWorld_eq_ok_iff.mp h
    change onWorld (r.recordTiming record.used) (page, w) = .ok () (page', w') at htiming
    exact ⟨[], rfl, (onWorld_eq_ok_iff.mp htiming).2.trans (List.append_nil page).symm⟩
  | profile | active | random =>
    obtain ⟨d, ⟨_, _, _⟩, hcoverage, ⟨⟩⟩ := Act.bind_eq_ok.mp h
    obtain ⟨-, hd, hrecord⟩ := logCoverage_eq_ok hcoverage
    exact ⟨_, ⟨_, Tree.shows_of_loadDatabases hd, rfl⟩, recordCoverage_journaled_eq_ok hrecord⟩
  | race =>
    obtain ⟨races, ⟨_, _, _⟩, hload, ⟨⟩⟩ := Act.bind_eq_ok.mp h
    obtain ⟨-, ⟨⟩⟩ := fromTree_eq_ok_iff.mp hload
    exact ⟨[], rfl, (List.append_nil page).symm⟩
  | chess =>
    obtain ⟨search, d, -, hcoverage⟩ := logCoverage_of_chess h
    obtain ⟨-, hd, hrecord⟩ := logCoverage_eq_ok hcoverage
    exact ⟨_, ⟨_, Tree.shows_of_loadDatabases hd, rfl⟩, recordCoverage_journaled_eq_ok hrecord⟩

theorem logCoverage_journaled_eq_error (k : CampaignKind) {κ : Type} {x y : κ}
    (h : logCoverage r.journaled files label record (x, page, w) = .error e (y, page', w')) :
    y = x ∧ page' = page ∧ k.Fails r files label ⟨w, record, some e⟩ e := by
  obtain ⟨hfst, ⟨hd, hsnd⟩ | ⟨d, hd, hrecord⟩⟩ := logCoverage_eq_error h
  · exact ⟨hfst, congrArg Prod.fst hsnd, .inl hd⟩
  · obtain ⟨hpage, hrecord⟩ := recordCoverage_journaled_eq_error hrecord
    exact ⟨hfst, hpage, .inr (.inr ⟨_, _, Tree.shows_of_loadDatabases hd, hrecord⟩)⟩

/-- When the bookkeeping fails nothing has been written, and only `chess` may know more by then. -/
theorem afterRun_journaled_eq_error
    (h : k.afterRun r.journaled files record (q, page, w) = .error e (q', page', w')) :
    page' = page ∧ (q' = q ∨ ∃ withRaces, k = chess withRaces) ∧
      ∀ label, k.lineLabel? = some label → k.Fails r files label ⟨w, record, some e⟩ e := by
  cases k with
  | native =>
    rw [afterRun] at h
    obtain ⟨htiming, hq⟩ := onWorld_eq_error_iff.mp h
    change onWorld (r.recordTiming record.used) (page, w) = .error e (page', w') at htiming
    exact ⟨(onWorld_eq_error_iff.mp htiming).2, .inl hq,
      fun _ hlabel ↦ absurd hlabel.symm (Option.some_ne_none _)⟩
  | profile | active | random =>
    rcases Act.bind_eq_error.mp h with hcoverage | ⟨_, _, _, hset⟩
    · obtain ⟨hq, hpage, hfails⟩ := logCoverage_journaled_eq_error _ hcoverage
      exact ⟨hpage, .inl hq, fun _ hlabel ↦ Option.some.inj hlabel ▸ hfails⟩
    · cases hset
  | race =>
    rcases Act.bind_eq_error.mp h with hload | ⟨_, _, _, hset⟩
    · obtain ⟨-, ⟨⟩⟩ := fromTree_eq_error_iff.mp hload
      exact ⟨rfl, .inl rfl, fun _ hlabel ↦ absurd hlabel.symm (Option.some_ne_none _)⟩
    · cases hset
  | chess withRaces =>
    rcases Act.bind_eq_error.mp h with hload | ⟨search, x, hload, h⟩
    · obtain ⟨hsearch, ⟨⟩⟩ := fromTree_eq_error_iff.mp hload
      exact ⟨rfl, .inl rfl, fun _ _ ↦ .inr (.inl ⟨withRaces, rfl, hsearch⟩)⟩
    · obtain ⟨-, rfl⟩ := fromTree_eq_ok_iff.mp hload
      -- from here on the progress of the search is known, whatever the coverage comes to
      obtain ⟨⟨⟩⟩ | ⟨_, y, ⟨⟩, h⟩ := Act.bind_eq_error.mp h
      rcases Act.bind_eq_error.mp h with hcoverage | ⟨_, _, _, hreturn⟩
      · obtain ⟨-, hpage, hfails⟩ := logCoverage_journaled_eq_error _ hcoverage
        exact ⟨hpage, .inr ⟨withRaces, rfl⟩, fun _ hlabel ↦ Option.some.inj hlabel ▸ hfails⟩
      · cases hreturn

/-! ## Turns -/

theorem page_of_launch_ok {l : Launcher ω} {spec : RunSpec} {outcome : Outcome}
    {x y : List (JournalEntry ω) × ω} (h : l.journaled.launch spec x = .ok outcome y) :
    y.1 = x.1 :=
  (onWorld_eq_ok_iff.mp (show onWorld (l.launch spec) x = .ok outcome y from h)).2

theorem page_of_launch_error {l : Launcher ω} {spec : RunSpec} {x y : List (JournalEntry ω) × ω}
    (h : l.journaled.launch spec x = .error e y) : y.1 = x.1 :=
  (onWorld_eq_error_iff.mp (show onWorld (l.launch spec) x = .error e y from h)).2

section

variable (k) (r) (files) (p : Phase Progress (List (JournalEntry ω) × ω))

/-- What a turn can come to, and what stands on the page then. -/
inductive Turned (s : PhaseState Progress) (page : List (JournalEntry ω)) :
    Verdict → PhaseState Progress → List (JournalEntry ω) → Prop where
  | noRun (e : Failure) : Turned s page (.failed e) s page
  | fatal {s' : PhaseState Progress} (record : RunRecord) (hfatal : record.isFatal = true)
    (hhistory : s'.history = s.history ++ [record]) (hstatus : s'.status = .fatal)
    (hkind : s'.kind = s.kind) : Turned s page .stop s' page
  | failed {s' : PhaseState Progress} (b : Booking ω) (e : Failure) (hfailure : b.failure = some e)
    (hfails : ∀ label, k.lineLabel? = some label → k.Fails r files label b e)
    (hnormal : b.record.isFatal = false) (hhistory : s'.history = s.history ++ [b.record])
    (hstatus : s'.status = s.status)
    (hkind : s'.kind = s.kind ∨ ∃ withRaces, k = chess withRaces) :
    Turned s page (.failed e) s' (page ++ [.booked b])
  | booked {v : Verdict} {s' : PhaseState Progress} (b : Booking ω) (hfailure : b.failure = none)
    (ls : List (CoverageLine ω)) (hwrites : k.Writes r files b ls)
    (hnormal : b.record.isFatal = false) (hhistory : s'.history = s.history ++ [b.record])
    (hlearns : k.Learns files (r.tree b.world) s.kind s'.kind)
    (hstop : ∃ asked now, asked.kind = s'.kind ∧
      ((p.shouldStop asked now).1 = true ∧ v = .stop ∧ s'.status = .converged ∨
        (p.shouldStop asked now).1 = false ∧ v = .goOn ∧ s'.status = s.status)) :
    Turned s page v s' (page ++ ls.map .line ++ [.booked b])

end

variable {rule : StopRule} {cap : Option UInt64} {l : Launcher ω} {spec : RunSpec}

theorem booking_of_afterRun_ok {u : Unit} (i : ℕ)
    (h : k.afterRun r.journaled files record (q, page, w) = .ok u (q', page', w')) :
    (k.journaled rule cap r files l spec).policy.afterRun i record (q, page, w) =
      .ok () (q', page' ++ [.booked ⟨w, record, none⟩], w') := by
  simp only [journaled, Policy.journaled, policy, h]

theorem booking_of_afterRun_error (i : ℕ)
    (h : k.afterRun r.journaled files record (q, page, w) = .error e (q', page', w')) :
    (k.journaled rule cap r files l spec).policy.afterRun i record (q, page, w) =
      .error e (q', page' ++ [.booked ⟨w, record, some e⟩], w') := by
  simp only [journaled, Policy.journaled, policy, h]

theorem turned (s : PhaseState Progress) (page : List (JournalEntry ω)) (w : ω) :
    let p := k.journaled rule cap r files l spec
    let t := p.turn (p.policy.configure p.spec) s (page, w)
    k.Turned r files p s page t.verdict t.state t.world.1 := by
  intro p
  cases hl : p.launcher.launch (p.policy.configure p.spec) (page, w) with
  | error e x =>
    rw [Phase.turn_of_launch_error hl]
    dsimp only
    rw [page_of_launch_error hl]
    exact .noRun e
  | ok outcome x =>
    obtain ⟨page', w'⟩ := x
    obtain rfl : page' = page := page_of_launch_ok hl
    cases hfatal : outcome.isFatal with
    | true =>
      rw [Phase.turn_of_fatal hl hfatal]
      exact .fatal (p.recordOf (page', w) (page', w') outcome) hfatal rfl rfl rfl
    | false =>
      have hnormal : (p.recordOf (page', w) (page', w') outcome).isFatal = false := hfatal
      cases hb : k.afterRun r.journaled files (p.recordOf (page', w) (page', w') outcome)
          (s.kind, page', w') with
      | error e x =>
        obtain ⟨q, page₁, w₁⟩ := x
        obtain ⟨rfl, hkind, hfails⟩ := afterRun_journaled_eq_error hb
        rw [Phase.turn_of_booking_error hl hfatal (booking_of_afterRun_error _ hb)]
        exact .failed _ e rfl hfails hnormal rfl rfl hkind
      | ok u x =>
        obtain ⟨q, page₁, w₁⟩ := x
        obtain ⟨hlearns, ls, hwrites, rfl⟩ := afterRun_journaled_eq_ok hb
        rw [Phase.turn_of_booked hl hfatal (booking_of_afterRun_ok _ hb)]
        dsimp only
        split
        · next hstop =>
          refine .booked _ rfl ls hwrites hnormal (Phase.history_shouldStop ..) ?_
            ⟨_, _, ?_, .inl ⟨hstop, rfl, rfl⟩⟩
          all_goals dsimp only; rw [Phase.kind_shouldStop]
          exact hlearns
        · next hstop =>
          refine .booked _ rfl ls hwrites hnormal (Phase.history_shouldStop ..) ?_
            ⟨_, _, ?_, .inr ⟨Bool.not_eq_true _ ▸ hstop, rfl, Phase.status_shouldStop ..⟩⟩
          all_goals dsimp only; rw [Phase.kind_shouldStop]
          exact hlearns

end CampaignKind

/-! ## Lives -/

/-- A call, and its page of the journal. -/
structure JournaledCall (ω : Type) where
  answer : Answer
  page : List (JournalEntry ω)

/-- What a new phase can come to by calls. The world may change in any way between two calls, and a
call may also be left after some turns. -/
inductive Phase.Lives {κ ω : Type} (p : Phase κ (List (JournalEntry ω) × ω)) (kind : κ) :
    List (JournaledCall ω) → PhaseState κ → Prop where
  | new : Lives p kind [] { kind }
  | call {calls : List (JournaledCall ω)} {s : PhaseState κ} (h : Lives p kind calls s) (turns : ℕ)
    (w : ω) :
    Lives p kind (calls ++ [⟨(p.run turns s ([], w)).answer, (p.run turns s ([], w)).world.1⟩])
      (p.run turns s ([], w)).state

namespace CampaignKind

variable {ω : Type} {k : CampaignKind} {r : Reporting ω} {files : SnapshotPaths} {rule : StopRule}
  {cap : Option UInt64} {l : Launcher ω} {spec : RunSpec}

/-- What each turn keeps is true of the page of a call, and of the state that the call leaves behind
but for the time at which it ended. -/
theorem journaled_run {P : Verdict → PhaseState Progress → List (JournalEntry ω) → Prop}
    (hstep : ∀ {s page v s' page'}, P .goOn s page →
      k.Turned r files (k.journaled rule cap r files l spec) s page v s' page' → P v s' page')
    {s : PhaseState Progress} (hs : s.status.isTerminal = false) (turns : ℕ) (w : ω)
    (h : ∀ started, P .goOn { s with status := .running, started } []) :
    let p := k.journaled rule cap r files l spec
    ∃ t : Turn Progress (List (JournalEntry ω) × ω), P t.verdict t.state t.world.1 ∧
      p.run turns s ([], w) = p.conclude t :=
  Phase.run_induction (P := fun v s (x : List (JournalEntry ω) × ω) ↦ P v s x.1)
    (fun {s x} h ↦ hstep h (turned s x.1 x.2)) hs turns (h _)

theorem Turned.running {p : Phase Progress (List (JournalEntry ω) × ω)}
    {s s' : PhaseState Progress} {page page' : List (JournalEntry ω)}
    (h : k.Turned r files p s page .goOn s' page') (hs : s.status = .running) :
    s'.status = .running := by
  cases h with
  | booked _ _ _ _ _ _ _ hstop =>
    obtain ⟨_, _, -, ⟨-, ⟨⟩, -⟩ | ⟨-, -, hstatus⟩⟩ := hstop
    exact hstatus.trans hs

/-- What each turn keeps of the state and of all pages so far is true of every life. -/
theorem lives_induction
    {Q : Progress → Status → List RunRecord → List (JournalEntry ω) → Prop}
    (hnew : Q {} .notStarted [] [])
    (hbegin : ∀ {q status history journal}, status.isTerminal = false →
      Q q status history journal → Q q .running history journal)
    (hturn : ∀ {s page v s' page' journal}, s.status = .running →
      k.Turned r files (k.journaled rule cap r files l spec) s page v s' page' →
        Q s.kind .running s.history (journal ++ page) →
          Q s'.kind s'.status s'.history (journal ++ page'))
    {calls : List (JournaledCall ω)} {s : PhaseState Progress}
    (h : (k.journaled rule cap r files l spec).Lives {} calls s) :
    Q s.kind s.status s.history (calls.flatMap (·.page)) := by
  induction h with
  | new => exact hnew
  | @call calls s _ turns w ih =>
    -- the pages before this call stand before its own page in all that is said of its turns
    rw [List.flatMap_append, List.flatMap_singleton]
    cases hs : s.status.isTerminal with
    | true =>
      rw [Phase.run_of_isTerminal hs, List.append_nil]
      exact ih
    | false =>
      obtain ⟨t, ⟨ht, -⟩, hcall⟩ := journaled_run
        (P := fun v s page ↦ Q s.kind s.status s.history (calls.flatMap (·.page) ++ page) ∧
          (v = .goOn → s.status = .running))
        (fun ⟨hQ, hrunning⟩ hturned ↦
          ⟨hturn (hrunning rfl) hturned (hrunning rfl ▸ hQ), fun hv ↦
            Turned.running (hv ▸ hturned) (hrunning rfl)⟩)
        hs turns w fun _ ↦ ⟨(List.append_nil _).symm ▸ hbegin hs ih, fun _ ↦ rfl⟩
      obtain ⟨finished, hstate, hworld⟩ :=
        Phase.conclude_eq (k.journaled rule cap r files l spec) t
      rw [hcall, hstate, hworld]
      exact ht

end CampaignKind

end Interleave
