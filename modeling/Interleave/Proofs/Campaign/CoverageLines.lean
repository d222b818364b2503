import Interleave.Proofs.Campaign.Journal
import Interleave.Proofs.Campaign.Lifecycle

/-!
# Coverage lines

The kinds that report coverage append one line for each run that they book, and none for any other
run. The line is written in the middle of the bookkeeping, but nothing can fail after it; so the
lines are those of the successful bookings, in order (`CampaignKind.Accounts`), and a booking that
has failed ends its call. Hence the number of lines is that of the runs that were not fatal, less
the number of calls that have failed with their bookkeeping (`CampaignKind.coverage_accounted`).
-/

namespace Interleave

open JournalEntry

variable {ω : Type}

/-- The call has failed with the bookkeeping of its last run. -/
def JournaledCall.failedToBook (c : JournaledCall ω) : Bool :=
  match c.answer, c.page.getLast? with
  | .failed e, some (.booked b) => b.failure == some e
  | _, _ => false

theorem JournaledCall.failedToBook_iff {c : JournaledCall ω} :
    c.failedToBook = true ↔ ∃ e b, c.answer = .failed e ∧ c.page.getLast? = some (.booked b) ∧
      b.failure = some e := by
  rw [failedToBook]
  split
  · next e b hanswer hlast => simp [hanswer, hlast]
  · next hne =>
    refine iff_of_false Bool.false_ne_true ?_
    rintro ⟨e, b, hanswer, hlast, -⟩
    exact hne e b hanswer hlast

namespace CampaignKind

variable {k : CampaignKind} {r : Reporting ω} {files : SnapshotPaths} {label : String}
  {rule : StopRule} {cap : Option UInt64} {l : Launcher ω} {spec : RunSpec}
  {s s' : PhaseState Progress} {v : Verdict} {page page' journal : List (JournalEntry ω)}
  {p : Phase Progress (List (JournalEntry ω) × ω)}

/-! ## Lines and bookings -/

/-- A line is that of a booking. -/
def LineOf (r : Reporting ω) (files : SnapshotPaths) (label : String) (line : CoverageLine ω)
    (b : Booking ω) : Prop :=
  line.world = b.world ∧ line.label = label ∧ line.used = b.record.used ∧
    (r.tree b.world).Shows files line.observed

/-- The runs that were not fatal have been booked in order, each successful booking has its line,
and the others have a reason. -/
structure Accounts (k : CampaignKind) (r : Reporting ω) (files : SnapshotPaths) (label : String)
    (history : List RunRecord) (journal : List (JournalEntry ω)) : Prop where
  records : (bookings journal).map (·.record) = history.filter fun record ↦ !record.isFatal
  lines : List.Forall₂ (LineOf r files label) (lines journal)
    ((bookings journal).filter fun b ↦ b.failure.isNone)
  fails : ∀ b ∈ bookings journal, ∀ e, b.failure = some e → k.Fails r files label b e

theorem filter_concat_of_normal {history : List RunRecord} {record : RunRecord}
    (hnormal : record.isFatal = false) :
    (history ++ [record]).filter (fun record ↦ !record.isFatal) =
      (history.filter fun record ↦ !record.isFatal) ++ [record] := by
  rw [List.filter_append, List.filter_singleton, hnormal]
  rfl

theorem Turned.accounts (hlabel : k.lineLabel? = some label)
    (h : k.Turned r files p s page v s' page')
    (hs : k.Accounts r files label s.history (journal ++ page)) :
    k.Accounts r files label s'.history (journal ++ page') := by
  cases h with
  | noRun => exact hs
  | fatal record hfatal hhistory =>
    refine ⟨?_, hs.lines, hs.fails⟩
    rw [hs.records, hhistory, List.filter_append, List.filter_singleton, hfatal]
    exact (List.append_nil _).symm
  | failed b e hfailure hfails hnormal hhistory =>
    rw [← List.append_assoc]
    refine ⟨?_, ?_, ?_⟩
    · rw [bookings_booked, List.map_append, hs.records, hhistory, filter_concat_of_normal hnormal]
      rfl
    · rw [lines_booked, bookings_booked, List.filter_append, List.filter_singleton, hfailure]
      exact (List.append_nil _).symm ▸ hs.lines
    · rw [bookings_booked]
      refine List.forall_mem_append.mpr ⟨hs.fails, List.forall_mem_singleton.mpr fun e' he' ↦ ?_⟩
      obtain rfl := Option.some.inj (hfailure.symm.trans he')
      exact hfails label hlabel
  | booked b hfailure ls hwrites hnormal hhistory =>
    rw [Writes, hlabel] at hwrites
    obtain ⟨observed, hshows, rfl⟩ := hwrites
    rw [← List.append_assoc, ← List.append_assoc]
    refine ⟨?_, ?_, ?_⟩
    · rw [bookings_booked, bookings_lines, List.map_append, hs.records, hhistory,
        filter_concat_of_normal hnormal]
      rfl
    · rw [lines_booked, lines_append, bookings_booked, bookings_lines, List.filter_append,
        List.filter_singleton, hfailure]
      exact List.rel_append hs.lines (.cons ⟨rfl, rfl, rfl, hshows⟩ .nil)
    · rw [bookings_booked, bookings_lines]
      refine List.forall_mem_append.mpr ⟨hs.fails, List.forall_mem_singleton.mpr fun e' he' ↦ ?_⟩
      rw [hfailure] at he'
      cases he'

theorem accounts_of_lives (hlabel : k.lineLabel? = some label) {calls : List (JournaledCall ω)}
    (h : (k.journaled rule cap r files l spec).Lives {} calls s) :
    k.Accounts r files label s.history (calls.flatMap (·.page)) :=
  lives_induction (Q := fun _ _ history journal ↦ k.Accounts r files label history journal)
    ⟨rfl, .nil, fun _ hb ↦ absurd hb List.not_mem_nil⟩ (fun _ hs ↦ hs)
    (fun _ hturned hs ↦ hturned.accounts hlabel hs) h

/-! ## Calls that fail -/

/-- All bookings on a page have succeeded. -/
def AllBooked (page : List (JournalEntry ω)) : Prop := ∀ b ∈ bookings page, b.failure = none

/-- The bookings on a page have succeeded, but for the last one of a call that fails with it. -/
def BookedBut (v : Verdict) (page : List (JournalEntry ω)) : Prop :=
  AllBooked page ∨ ∃ page₀ b e, page = page₀ ++ [.booked b] ∧ AllBooked page₀ ∧
    b.failure = some e ∧ v = .failed e

theorem allBooked_of_goOn (h : BookedBut .goOn page) : AllBooked page := by
  rcases h with h | ⟨_, _, _, -, -, -, ⟨⟩⟩
  exact h

theorem Turned.bookedBut (h : k.Turned r files p s page v s' page') (hs : BookedBut .goOn page) :
    BookedBut v page' := by
  have hpage := allBooked_of_goOn hs
  cases h with
  | noRun | fatal => exact .inl hpage
  | failed b e hfailure => exact .inr ⟨page, b, e, rfl, hpage, hfailure, rfl⟩
  | booked b hfailure =>
    refine .inl ?_
    rw [AllBooked, bookings_booked, bookings_lines]
    exact List.forall_mem_append.mpr ⟨hpage, List.forall_mem_singleton.mpr hfailure⟩

theorem countP_of_allBooked (h : AllBooked page) :
    (bookings page).countP (fun b ↦ b.failure.isSome) = 0 :=
  List.countP_eq_zero.mpr fun b hb ↦ by simp [h b hb]

/-- Of the bookings on the page of a call at most one has failed, and it has if the call has failed
with it. -/
theorem countP_of_bookedBut {answer : Answer} (h : BookedBut v page)
    (hanswer : ∀ e, v = .failed e → answer = .failed e) :
    (bookings page).countP (fun b ↦ b.failure.isSome) =
      if JournaledCall.failedToBook ⟨answer, page⟩ then 1 else 0 := by
  rcases h with hpage | ⟨page₀, b, e, rfl, hpage, hfailure, hv⟩
  · have hnot : ¬ JournaledCall.failedToBook ⟨answer, page⟩ = true := by
      rw [JournaledCall.failedToBook_iff]
      rintro ⟨e, b, -, hlast, hfailure⟩
      have hmem : b ∈ bookings page :=
        List.mem_filterMap.mpr ⟨_, List.mem_of_getLast? hlast, rfl⟩
      rw [hpage b hmem] at hfailure
      cases hfailure
    rw [if_neg hnot, countP_of_allBooked hpage]
  · have hfailed : JournaledCall.failedToBook ⟨answer, page₀ ++ [.booked b]⟩ = true :=
      JournaledCall.failedToBook_iff.mpr ⟨e, b, hanswer e hv, List.getLast?_concat, hfailure⟩
    rw [if_pos hfailed, bookings_booked, List.countP_append, countP_of_allBooked hpage,
      List.countP_singleton, hfailure]
    rfl

theorem countP_of_run (turns : ℕ) (s : PhaseState Progress) (w : ω) :
    let call := (k.journaled rule cap r files l spec).run turns s ([], w)
    (bookings call.world.1).countP (fun b ↦ b.failure.isSome) =
      if JournaledCall.failedToBook ⟨call.answer, call.world.1⟩ then 1 else 0 := by
  cases hs : s.status.isTerminal with
  | true =>
    rw [Phase.run_of_isTerminal hs]
    rfl
  | false =>
    obtain ⟨t, ht, hcall⟩ := journaled_run (k := k) (r := r) (P := fun v _ page ↦ BookedBut v page)
      (fun hbooked hturned ↦ hturned.bookedBut hbooked) hs turns w
      fun _ ↦ .inl fun b hb ↦ absurd hb List.not_mem_nil
    obtain ⟨hanswer, -, -, hworld⟩ := Phase.conclude_keeps (k.journaled rule cap r files l spec) t
    dsimp only
    rw [hcall, hworld]
    refine countP_of_bookedBut ht fun e hv ↦ ?_
    rw [hanswer, hv]
    rfl

theorem countP_of_lives {calls : List (JournaledCall ω)}
    (h : (k.journaled rule cap r files l spec).Lives {} calls s) :
    (bookings (calls.flatMap (·.page))).countP (fun b ↦ b.failure.isSome) =
      calls.countP JournaledCall.failedToBook := by
  induction h with
  | new => rfl
  | @call calls s _ turns w ih =>
    rw [List.flatMap_append, List.flatMap_singleton, bookings_append, List.countP_append, ih,
      countP_of_run, List.countP_append, List.countP_singleton]

/-- **Coverage lines.** In every life of a phase of a kind that reports coverage, under any rule and
cap, the runs that were not fatal have been booked one by one in order; each booking that has
succeeded has one line, which has its place among the lines, the label of the kind, the time of the
run, and the counts that were in the files then; each booking that has failed could not load the
files or append its line, and has none. There are as many lines as runs that were not fatal, less
the calls that have failed with their bookkeeping. -/
theorem coverage_accounted (hlabel : k.lineLabel? = some label) (rule : StopRule)
    (cap : Option UInt64) (r : Reporting ω) (files : SnapshotPaths) (l : Launcher ω)
    (spec : RunSpec) :
    let p : Phase Progress ω :=
      { policy := k.policy r files, launcher := l, rule, spec, maxRuns := cap }
    let journaled := k.journaled rule cap r files l spec
    (∀ turns s page w,
      (journaled.run turns s (page, w)).mapWorld Prod.snd = p.run turns s w) ∧
    ∀ calls s, journaled.Lives {} calls s →
      let journal := calls.flatMap (·.page)
      let normal := s.history.filter fun record ↦ !record.isFatal
      (bookings journal).map (·.record) = normal ∧
        List.Forall₂ (LineOf r files label) (lines journal)
          ((bookings journal).filter fun b ↦ b.failure.isNone) ∧
        (∀ b ∈ bookings journal, ∀ e, b.failure = some e → k.Fails r files label b e) ∧
        (lines journal).length + calls.countP JournaledCall.failedToBook = normal.length := by
  intro p journaled
  refine ⟨fun turns s page w ↦ (projects_journaled ..).mapWorld_run turns s (page, w),
    fun calls s h ↦ ?_⟩
  have haccounts := accounts_of_lives hlabel h
  refine ⟨haccounts.records, haccounts.lines, haccounts.fails, ?_⟩
  have hsome : (fun b : Booking ω ↦ b.failure.isSome) =
      fun b ↦ decide ¬ b.failure.isNone = true := by
    funext b
    cases b.failure <;> rfl
  rw [haccounts.lines.length_eq, ← countP_of_lives h, ← haccounts.records, List.length_map,
    ← List.countP_eq_length_filter, hsome, ← List.length_eq_countP_add_countP]

/-- The coverage of the second run cannot be logged, the phase is called again, and the fourth run
crashes. -/
theorem coverage_accounted_random :
    let r : Reporting ℕ :=
      { tree := fun _ ↦ {}
        recordCoverage := fun _ _ _ w ↦
          if w = 2 then .error (.report "disk full") w else .ok () w
        recordTiming := fun _ w ↦ .ok () w }
    let l : Launcher ℕ :=
      { launch := fun _ w ↦ .ok (if w = 3 then .crash else .normal) (w + 1)
        now := fun _ ↦ .epoch }
    let p := (random .pct).journaled .finish none r {} l { program := "app" }
    let first := p.run 5 { kind := {} } ([], 0)
    let second := p.run 5 first.state ([], first.world.2)
    let calls : List (JournaledCall ℕ) :=
      [⟨first.answer, first.world.1⟩, ⟨second.answer, second.world.1⟩]
    first.answer = .failed (.report "disk full") ∧ second.answer = .status .fatal ∧
      second.state.history.map (·.outcome) = [.normal, .normal, .normal, .crash] ∧
      (lines (calls.flatMap (·.page))).length = 2 := by
  intro r l p first second calls
  have hlives : ∀ x y, x = p.run 5 { kind := {} } ([], 0) →
      y = p.run 5 x.state ([], x.world.2) →
        p.Lives {} [⟨x.answer, x.world.1⟩, ⟨y.answer, y.world.1⟩] y.state := by
    rintro _ _ rfl rfl
    exact .call (.call .new 5 0) 5 _
  have houtcomes : second.state.history.map (·.outcome) = [.normal, .normal, .normal, .crash] := by
    decide +kernel
  have hnormal : (second.state.history.filter fun record ↦ !record.isFatal).length = 3 := by
    decide +kernel
  have hfailed : calls.countP JournaledCall.failedToBook = 1 := by decide +kernel
  obtain ⟨-, haccounts⟩ :=
    coverage_accounted (k := random .pct) rfl .finish none r {} l { program := "app" }
  obtain ⟨-, -, -, hcount⟩ := haccounts _ _ (hlives first second rfl rfl)
  rw [hfailed, hnormal] at hcount
  exact ⟨by decide +kernel, by decide +kernel, houtcomes, Nat.succ.inj hcount⟩

end CampaignKind

end Interleave
