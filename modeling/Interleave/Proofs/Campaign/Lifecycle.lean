import Interleave.Proofs.Campaign.Log

/-!
# The life of a phase

A phase may be called again and again, also after a call in which a launch or a bookkeeping has
failed. What holds between the calls is read off the log: the history has the outcomes of all
launches that had one, all records but a fatal one at the end are booked under their numbers, and
the phase is fatal exactly when there is such an end (`PhaseState.Consistent`).

A turn has three ways to go (`Phase.Took`): there is no run, the run is fatal, or the run is booked,
whether or not the booking succeeds. Each of them keeps the history consistent with the log, and so
do the turns of a call, however it ends, and all calls of a life.
-/

namespace Interleave

/-- The outcome of a launch that had one. -/
def LogEntry.outcome? : LogEntry → Option Outcome
  | .launched _ outcome => outcome
  | .booked .. => none

/-- A record that was booked, and under which number. -/
def LogEntry.booking? : LogEntry → Option (RunRecord × ℕ)
  | .launched .. => none
  | .booked i record => some (record, i)

/-- The status that a call leaves behind, as its answer has it. -/
def Answer.Fits : Answer → Status → Prop
  | .status s, t => s = t ∧ t.isTerminal = true
  | .failed _, t | .unfinished, t => t = .running

/-- What a call answers after its last turn, which has left a status behind. -/
def Verdict.answer : Verdict → Status → Answer
  | .goOn, _ => .unfinished
  | .stop, s => .status s
  | .failed e, _ => .failed e

variable {κ ω : Type}

/-- The history is what the log says, and the status is what the history says. -/
structure PhaseState.Consistent (s : PhaseState κ) (log : List LogEntry) : Prop where
  outcomes : s.history.map (·.outcome) = log.filterMap LogEntry.outcome?
  /-- All records are normal and booked, but for a fatal one at the end of a fatal phase. -/
  booked : ∃ normal : List RunRecord, (∀ r ∈ normal, r.isFatal = false) ∧
    normal.zipIdx 1 = log.filterMap LogEntry.booking? ∧
    (s.status ≠ .fatal ∧ s.history = normal ∨
      s.status = .fatal ∧ ∃ r, r.isFatal = true ∧ s.history = normal ++ [r])

namespace Phase

/-! ## Turns -/

/-- What a turn can come to, and what it adds to the log. -/
inductive Took (p : Phase κ ω) (s : PhaseState κ) :
    Verdict → PhaseState κ → List LogEntry → Prop where
  | noRun (e : Failure) (spec : RunSpec) : Took p s (.failed e) s [.launched spec none]
  | fatal {s' : PhaseState κ} (spec : RunSpec) (r : RunRecord) (hfatal : r.isFatal = true)
    (hhistory : s'.history = s.history ++ [r]) (hstatus : s'.status = .fatal) :
    Took p s .stop s' [.launched spec (some r.outcome)]
  | booked {v : Verdict} {s' : PhaseState κ} (spec : RunSpec) (r : RunRecord)
    (hnormal : r.isFatal = false) (hhistory : s'.history = s.history ++ [r])
    (hstatus : s'.status = if v = .stop then .converged else s.status)
    (hgoOn : v = .goOn → ∃ asked now, asked.history = s'.history ∧
      (p.shouldStop asked now).1 = false) :
    Took p s v s' [.launched spec (some r.outcome), .booked (s.history.length + 1) r]

variable (p : Phase κ ω) (spec : RunSpec)

theorem took_turn (s : PhaseState κ) (w : ω) (log : List LogEntry) :
    let t := p.logged.turn spec s (w, log)
    ∃ l, t.world.2 = log ++ l ∧ p.Took s t.verdict t.state l := by
  cases hl : p.launcher.launch spec w with
  | error e w' =>
    rw [turn_of_launch_error (launch_logged_of_error hl)]
    exact ⟨_, rfl, .noRun e spec⟩
  | ok outcome w' =>
    cases hfatal : outcome.isFatal with
    | true =>
      rw [turn_of_fatal (launch_logged_of_ok hl) hfatal]
      exact ⟨_, rfl, .fatal spec (p.recordOf w w' outcome) hfatal rfl rfl⟩
    | false =>
      cases hb : p.policy.afterRun (s.history.length + 1) (p.recordOf w w' outcome)
          (s.kind, w') with
      | error e kw =>
        rw [turn_of_booking_error (launch_logged_of_ok hl) hfatal (afterRun_logged_of_error hb)]
        exact ⟨_, List.append_assoc .., .booked spec (p.recordOf w w' outcome) hfatal rfl rfl
          Verdict.noConfusion⟩
      | ok u kw =>
        rw [turn_of_booked (launch_logged_of_ok hl) hfatal (afterRun_logged_of_ok hb)]
        dsimp only
        split
        · exact ⟨_, List.append_assoc .., .booked spec (p.recordOf w w' outcome) hfatal
            (history_shouldStop ..) rfl Verdict.noConfusion⟩
        · next hstop =>
          exact ⟨_, List.append_assoc .., .booked spec (p.recordOf w w' outcome) hfatal
            (history_shouldStop ..) (status_shouldStop ..)
            fun _ ↦ ⟨_, _, (history_shouldStop ..).symm, Bool.not_eq_true _ ▸ hstop⟩⟩

/-- What is kept from the state before a turn to the state after it, with the log, is kept by any
number of turns. `P .goOn` is what holds before a turn. -/
theorem iterate_invariant {P : Verdict → PhaseState κ → List LogEntry → Prop}
    (hstep : ∀ {s log v s' l}, P .goOn s log → p.Took s v s' l → P v s' (log ++ l)) (n : ℕ)
    {s : PhaseState κ} (w : ω) {log : List LogEntry} (h : P .goOn s log) :
    let t := p.logged.iterate spec n s (w, log)
    P t.verdict t.state t.world.2 := by
  refine iterate_induction (P := fun v s (w : ω × List LogEntry) ↦ P v s w.2) (fun {s w} h ↦ ?_) n h
  obtain ⟨l, hlog, htook⟩ := took_turn p spec s w.1 w.2
  exact hlog ▸ hstep h htook

/-! ## Calls -/

theorem conclude_keeps (t : Turn κ ω) :
    (p.conclude t).answer = t.verdict.answer t.state.status ∧
      (p.conclude t).state.status = t.state.status ∧
      (p.conclude t).state.history = t.state.history ∧ (p.conclude t).world = t.world := by
  rw [conclude]
  cases t.verdict <;> exact ⟨rfl, rfl, rfl, rfl⟩

variable {p}

/-- What the turns of a call keep is true of the state that the call leaves behind, but for the time
at which it ended. -/
theorem run_invariant {P : Verdict → PhaseState κ → List LogEntry → Prop}
    (hstep : ∀ {s log v s' l}, P .goOn s log → p.Took s v s' l → P v s' (log ++ l))
    {s : PhaseState κ} (hs : s.status.isTerminal = false) (turns : ℕ) (w : ω) (log : List LogEntry)
    (h : P .goOn { s with status := .running, started := some (p.launcher.now w) } log) :
    let call := p.logged.run turns s (w, log)
    ∃ v s', P v s' call.world.2 ∧ call.answer = v.answer s'.status ∧
      call.state.status = s'.status ∧ call.state.history = s'.history := by
  have hturns := iterate_invariant p (p.policy.configure p.spec) hstep turns w h
  obtain ⟨hanswer, hstatus, hhistory, hworld⟩ := conclude_keeps p.logged
    (p.logged.iterate (p.policy.configure p.spec) turns
      { s with status := .running, started := some (p.launcher.now w) } (w, log))
  rw [run_of_not_isTerminal hs]
  exact ⟨_, _, hworld.symm ▸ hturns, hanswer, hstatus, hhistory⟩

theorem Took.fits {s s' : PhaseState κ} {v : Verdict} {l : List LogEntry}
    (h : p.Took s v s' l) (hs : s.status = .running) : (v.answer s'.status).Fits s'.status := by
  cases h with
  | noRun => exact hs
  | fatal _ _ _ _ hstatus =>
    rw [hstatus]
    exact ⟨rfl, rfl⟩
  | booked _ _ _ _ hstatus =>
    rw [hstatus]
    cases v with
    | goOn | failed => exact hs
    | stop => exact ⟨rfl, rfl⟩

/-- A call that ends without a failure answers how the phase has ended, and any other call leaves it
running. -/
theorem answer_fits (turns : ℕ) (s : PhaseState κ) (w : ω) :
    (p.run turns s w).answer.Fits (p.run turns s w).state.status := by
  cases hs : s.status.isTerminal with
  | true =>
    rw [run_of_isTerminal hs]
    exact ⟨rfl, hs⟩
  | false =>
    obtain ⟨v, s', hfits, hanswer, hstatus, -⟩ := run_invariant (p := p)
      (P := fun v s _ ↦ (v.answer s.status).Fits s.status) (fun h ht ↦ ht.fits h) hs turns w
      [] rfl
    rw [← hanswer, ← hstatus] at hfits
    rwa [← erase_run_logged p turns s (w, [])]

/-! ## The history and the log -/

/-- As long as no run was fatal, all records are normal, and booked under their numbers. -/
theorem normal_of_consistent {s : PhaseState κ} {log : List LogEntry} (h : s.Consistent log)
    (hs : s.status ≠ .fatal) : (∀ r ∈ s.history, r.isFatal = false) ∧
      s.history.zipIdx 1 = log.filterMap LogEntry.booking? := by
  obtain ⟨normal, hnormal, hnumbers, ⟨-, rfl⟩ | ⟨hfatal, -⟩⟩ := h.booked
  · exact ⟨hnormal, hnumbers⟩
  · exact absurd hfatal hs

theorem consistent_of_normal {s : PhaseState κ} {log : List LogEntry}
    (houtcomes : s.history.map (·.outcome) = log.filterMap LogEntry.outcome?)
    (hnormal : ∀ r ∈ s.history, r.isFatal = false)
    (hnumbers : s.history.zipIdx 1 = log.filterMap LogEntry.booking?) (hs : s.status ≠ .fatal) :
    s.Consistent log :=
  ⟨houtcomes, s.history, hnormal, hnumbers, .inl ⟨hs, rfl⟩⟩

theorem Took.consistent {s s' : PhaseState κ} {v : Verdict} {log l : List LogEntry}
    (h : p.Took s v s' l) (hs : s.Consistent log) (hrunning : s.status = .running) :
    s'.Consistent (log ++ l) := by
  have hstatus : s.status ≠ .fatal := by simp [hrunning]
  obtain ⟨hnormal, hnumbers⟩ := normal_of_consistent hs hstatus
  have houtcomes := hs.outcomes
  cases h with
  | noRun =>
    refine consistent_of_normal ?_ hnormal ?_ hstatus
    · rw [List.filterMap_append, houtcomes]
      exact (List.append_nil _).symm
    · rw [List.filterMap_append, hnumbers]
      exact (List.append_nil _).symm
  | fatal _ r hr hhistory hfatal =>
    refine ⟨?_, s.history, hnormal, ?_, .inr ⟨hfatal, r, hr, hhistory⟩⟩
    · rw [List.filterMap_append, ← houtcomes, hhistory, List.map_append]
      rfl
    · rw [List.filterMap_append, hnumbers]
      exact (List.append_nil _).symm
  | booked _ r hr hhistory hstatus' =>
    refine consistent_of_normal ?_ ?_ ?_ ?_
    · rw [List.filterMap_append, ← houtcomes, hhistory, List.map_append]
      rfl
    · rw [hhistory]
      exact List.forall_mem_append.mpr ⟨hnormal, List.forall_mem_singleton.mpr hr⟩
    · -- the number of a booking counts the records, and these are all booked
      rw [List.filterMap_append, ← hnumbers, hhistory, List.zipIdx_append, Nat.add_comm 1]
      rfl
    · rw [hstatus']
      split
      · exact Status.noConfusion
      · exact hstatus

theorem Took.history_prefix {s s' : PhaseState κ} {v : Verdict} {l : List LogEntry}
    (h : p.Took s v s' l) : s.history <+: s'.history := by
  cases h with
  | noRun => exact List.prefix_rfl
  | fatal _ _ _ hhistory | booked _ _ _ hhistory =>
    rw [hhistory]
    exact List.prefix_append _ _

/-- Between calls, whatever they come to, history and log agree, and the history only grows. -/
theorem consistent_run {s : PhaseState κ} {log : List LogEntry} (h : s.Consistent log) (turns : ℕ)
    (w : ω) : (p.logged.run turns s (w, log)).state.Consistent
        (p.logged.run turns s (w, log)).world.2 ∧
      s.history <+: (p.logged.run turns s (w, log)).state.history := by
  cases hs : s.status.isTerminal with
  | true =>
    rw [run_of_isTerminal hs]
    exact ⟨h, List.prefix_rfl⟩
  | false =>
    have hnotfatal : s.status ≠ .fatal := fun hfatal ↦ by
      rw [hfatal] at hs
      cases hs
    obtain ⟨hnormal, hnumbers⟩ := normal_of_consistent h hnotfatal
    obtain ⟨v, s', ⟨hs', hprefix, -⟩, -, hstatus, hhistory⟩ := run_invariant (p := p)
      (P := fun v s' log ↦ s'.Consistent log ∧ s.history <+: s'.history ∧
        (v.answer s'.status).Fits s'.status)
      (fun ⟨hs', hprefix, hrunning⟩ ht ↦ ⟨ht.consistent hs' hrunning,
        hprefix.trans ht.history_prefix, ht.fits hrunning⟩)
      hs turns w log
      ⟨consistent_of_normal h.outcomes hnormal hnumbers Status.noConfusion, List.prefix_rfl, rfl⟩
    rw [hhistory]
    refine ⟨⟨?_, ?_⟩, hprefix⟩
    · rw [hhistory]
      exact hs'.outcomes
    · rw [hhistory, hstatus]
      exact hs'.booked

/-! ## All calls of a life -/

/-- What a new phase can come to by calls, with their answers and the log. The world may change in
any way between two calls. -/
inductive Reaches (p : Phase κ ω) (kind : κ) :
    List Answer → PhaseState κ → List LogEntry → Prop where
  | new : Reaches p kind [] { kind } []
  | call {answers : List Answer} {s : PhaseState κ} {log : List LogEntry}
    (h : Reaches p kind answers s log) (turns : ℕ) (w : ω)
    (hreturned : (p.logged.run turns s (w, log)).answer ≠ .unfinished) :
    Reaches p kind (answers ++ [(p.logged.run turns s (w, log)).answer])
      (p.logged.run turns s (w, log)).state (p.logged.run turns s (w, log)).world.2

theorem Reaches.consistent {kind : κ} {answers : List Answer} {s : PhaseState κ}
    {log : List LogEntry} (h : p.Reaches kind answers s log) : s.Consistent log := by
  induction h with
  | new =>
    exact consistent_of_normal rfl (fun _ h ↦ absurd h List.not_mem_nil) rfl Status.noConfusion
  | call _ turns w _ ih => exact (consistent_run ih turns w).1

/-- **The life of a phase.** After any calls, failed ones included, the phase is fatal exactly when
its last run was, and no run before was. Every launch that had an outcome has its record in the
history, and the records that are not fatal have been booked once each, under the numbers 1, 2, 3
and so on. A further call only adds to the history; if it fails, the phase is left running; and if
the phase has ended, it changes nothing and asks nothing of the world. -/
theorem Reaches.lifecycle {kind : κ} {answers : List Answer} {s : PhaseState κ}
    {log : List LogEntry} (h : p.Reaches kind answers s log) :
    (s.status = .fatal ↔ ∃ r, s.history.getLast? = some r ∧ r.isFatal = true) ∧
      (∀ r ∈ s.history.dropLast, r.isFatal = false) ∧
      s.history.map (·.outcome) = log.filterMap LogEntry.outcome? ∧
      (s.history.filter fun r ↦ !r.isFatal).zipIdx 1 = log.filterMap LogEntry.booking? ∧
      ∀ turns w, let call := p.logged.run turns s (w, log)
        call.erase = p.run turns s w ∧ s.history <+: call.state.history ∧
          (∀ e, call.answer = .failed e → call.state.status = .running) ∧
          (s.status.isTerminal = true → call = ⟨.status s.status, s, (w, log)⟩) := by
  have hs := h.consistent
  obtain ⟨normal, hnormal, hnumbers, hend⟩ := hs.booked
  have hfilter : normal.filter (fun r ↦ !r.isFatal) = normal :=
    List.filter_eq_self.mpr fun r hr ↦ by rw [hnormal r hr]; rfl
  have hends : (s.status = .fatal ↔ ∃ r, s.history.getLast? = some r ∧ r.isFatal = true) ∧
      (∀ r ∈ s.history.dropLast, r.isFatal = false) ∧
      s.history.filter (fun r ↦ !r.isFatal) = normal := by
    rcases hend with ⟨hstatus, hhistory⟩ | ⟨hstatus, r, hr, hhistory⟩
    · rw [hhistory]
      refine ⟨iff_of_false hstatus ?_, fun r hr ↦ hnormal r (List.dropLast_subset _ hr), hfilter⟩
      rintro ⟨r, hlast, hr⟩
      exact Bool.false_ne_true (hnormal r (List.mem_of_getLast? hlast) ▸ hr)
    · rw [hhistory]
      refine ⟨iff_of_true hstatus ⟨r, List.getLast?_concat, hr⟩, ?_, ?_⟩
      · rw [List.dropLast_concat]
        exact hnormal
      · rw [List.filter_append, hfilter]
        simp [hr]
  refine ⟨hends.1, hends.2.1, hs.outcomes, hends.2.2.symm ▸ hnumbers, fun turns w ↦
    ⟨erase_run_logged p turns s _, (consistent_run hs turns w).2, fun e he ↦ ?_,
      run_of_isTerminal⟩⟩
  have hfits := answer_fits (p := p.logged) turns s (w, log)
  rw [he] at hfits
  exact hfits

/-- The second bookkeeping fails, the phase is called again, and the third run crashes. -/
theorem Reaches.lifecycle_resumed :
    let p : Phase ℕ ℕ :=
      { policy :=
          { label := "native"
            afterRun := fun i _ x ↦ if i = 2 then .error (.report "disk full") x else .ok () x }
        launcher :=
          { launch := fun _ w ↦ .ok (if w = 2 then .crash else .normal) (w + 1)
            now := fun _ ↦ .epoch }
        rule := .finish
        spec := { program := "app" } }
    let first := p.logged.run 5 { kind := 0 } (0, [])
    let second := p.logged.run 5 first.state (first.world.1, first.world.2)
    let r : RunRecord := ⟨.epoch, .epoch, .normal⟩
    first.answer = .failed (.report "disk full") ∧ second.answer = .status .fatal ∧
      p.Reaches 0 [first.answer, second.answer] second.state second.world.2 ∧
      second.world.2.filterMap LogEntry.booking? = [(r, 1), (r, 2)] ∧
      p.logged.run 5 second.state (second.world.1, second.world.2) =
        ⟨.status .fatal, second.state, (second.world.1, second.world.2)⟩ := by
  intro p first second r
  have hreaches : p.Reaches 0 [first.answer, second.answer] second.state second.world.2 :=
    .call (.call .new 5 0 (by decide)) 5 first.world.1 (by decide)
  have hstatus : second.state.status = .fatal := by decide
  obtain ⟨-, -, -, hbooked, hcalls⟩ := hreaches.lifecycle
  refine ⟨by decide, by decide, hreaches, hbooked.symm.trans (by decide +kernel), ?_⟩
  rw [(hcalls 5 second.world.1).2.2.2 (by rw [hstatus]; rfl), hstatus]

end Phase

end Interleave
