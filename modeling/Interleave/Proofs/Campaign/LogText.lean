import Interleave.Campaign.Basic
import Interleave.Campaign.Kinds
import Interleave.Proofs.Text.Lines

/-!
# Reading the coverage log

Every record in the coverage log is a line of seven fields in columns. A field that is wider than
its column moves those behind it, but it never runs into them, as the blank between two columns does
not belong to either. So the fields of a line are its words, and since no field has a newline inside
either, the log is taken apart into the lines that were appended.

The log may be missing at first. What is asked of it is that it can be opened and is then empty;
after that no append is refused (`Tree.Logs.append`).
-/

namespace Interleave

/-! ## Appending to a file -/

namespace Tree

variable {t t' : Tree} {name s : String}

/-- A file that texts can be appended to holds a text; an empty one may still be missing. -/
def Logs (t : Tree) (name s : String) : Prop :=
  ∃ p, t.locate name = .ok p ∧ Path.ending name = .plain ∧
    (t.node? p = some (.file (.text s)) ∨ t.node? p = none ∧ s = "")

theorem append_eq_ok (h : t.append name s = .ok t') :
    ∃ p, t.locate name = .ok p ∧ Path.ending name = .plain ∧ t.node? p ≠ some .dir := by
  rw [append, modify] at h
  split at h
  · contradiction
  · next p hlocate =>
    split at h
    · contradiction
    · contradiction
    · contradiction
    · contradiction
    · next hending hnone => exact ⟨p, hlocate, hending, by simp [hnone]⟩
    · next hending hfile => exact ⟨p, hlocate, hending, by simp [hfile]⟩

/-- A log that can be opened and holds nothing. -/
theorem logs_empty (hopen : t.append name "" = .ok t')
    (hempty : ∀ c, t.read name = .ok c → c = .text "") : t.Logs name "" := by
  obtain ⟨p, hlocate, hending, hdir⟩ := append_eq_ok hopen
  refine ⟨p, hlocate, hending, ?_⟩
  rcases hnode : t.node? p with _ | c | _
  · exact .inr ⟨rfl, rfl⟩
  · rw [hempty c (read_of_locate hlocate hending hnode)]
    exact .inl rfl
  · exact absurd hnode hdir

namespace Logs

theorem append (h : t.Logs name s) (r : String) :
    ∃ t', t.append name r = .ok t' ∧ t'.Logs name (s ++ r) := by
  obtain ⟨p, hlocate, hending, hnode⟩ := h
  have hdir : t.node? p ≠ some .dir := by
    rcases hnode with hfile | ⟨hnone, -⟩
    · simp [hfile]
    · simp [hnone]
  -- the file is put where no directory stood, so all directories stay
  have hlocate' (c : Content) : (t.put p (.file c)).locate name = .ok p := by
    refine locate_of_dirs_kept (fun q hq ↦ ?_) hlocate
    rwa [node?_put_of_ne t _ fun heq : q = p ↦ hdir (heq ▸ hq)]
  refine ⟨t.put p (.file (.text (s ++ r))), ?_, p, hlocate' _, hending,
    .inl (node?_put_self hdir _)⟩
  rw [Tree.append, modify, hlocate]
  rcases hnode with hfile | ⟨hnone, rfl⟩
  · simp only [hending, hfile]
    rfl
  · simp only [hending, hnone]
    rfl

theorem text? (h : t.Logs name s) : (t.text? name).getD "" = s := by
  obtain ⟨p, hlocate, hending, hnode⟩ := h
  rcases hnode with hfile | ⟨hnone, rfl⟩
  · rw [Tree.text?, read_of_locate hlocate hending hfile]
    rfl
  · rw [Tree.text?, read, lookup, resolve_of_locate hlocate hending]
    simp only [hnone]
    rfl

end Logs

end Tree

/-! ## Labels -/

theorem CampaignKind.isWord_label (k : CampaignKind) : IsWord k.label.toList := by
  cases k <;> rw [label] <;> decide

theorem Scheduler.isWord_text (s : Scheduler) : IsWord s.text.toList := by
  cases s <;> decide

namespace Report

/-- What is logged of one run. -/
structure Entry where
  label : String
  used : Span
  observed : PerIdiom ℕ

namespace Entry

variable {e : Entry}

def line (e : Entry) : String := coverageLine e.label e.used e.observed

/-! ## One line -/

/-- The fields behind the label, each with the width of its column. -/
def columns (e : Entry) : List (ℕ × String) :=
  (10, e.used.fixed 6) :: e.observed.toList.map fun n ↦ (6, toString n)

/-- The line without its newline. -/
def body (e : Entry) : List Char := (padRight 25 e.label).toList ++ columnChars e.columns

/-- The fields of the line, as they are written. -/
def fields (e : Entry) : List (List Char) :=
  e.label.toList :: (e.used.fixed 6).toList :: e.observed.toList.map (Nat.toDigits 10)

theorem toList_line (e : Entry) : e.line.toList = e.body ++ ['\n'] := by
  have hcounts :
      (String.join (e.observed.toList.map fun n ↦ " " ++ padRight 6 (toString n))).toList =
      columnChars (e.observed.toList.map fun n ↦ (6, toString n)) := by
    rw [String.toList_join, List.flatMap_map, columnChars, List.flatMap_map]
    exact List.flatMap_congr fun n _ ↦ toList_space_append _
  rw [line, coverageLine, String.toList_append, String.toList_append, String.append_assoc,
    String.toList_append, toList_space_append, hcounts, body, columns, columnChars_cons,
    List.append_assoc (padRight 25 e.label).toList]
  rfl

theorem isWord_fixed (places : ℕ) (used : Span) : IsWord (used.fixed places).toList := by
  rw [Span.fixed, String.toList_ofList, Binary64.fixed]
  dsimp only
  refine ⟨by simp, fun c hc ↦ ?_⟩
  simp only [List.mem_append, List.mem_cons, List.mem_replicate, or_assoc] at hc
  rcases hc with hc | rfl | ⟨-, rfl⟩ | hc
  · exact (isWord_toDigits _).solid c hc
  · rfl
  · rfl
  · exact (isWord_toDigits _).solid c hc

theorem isWord_of_mem_columns {f : ℕ × String} (hf : f ∈ e.columns) : IsWord f.2.toList := by
  rcases List.mem_cons.mp hf with rfl | hf
  · exact isWord_fixed 6 e.used
  · obtain ⟨n, -, rfl⟩ := List.mem_map.mp hf
    rw [toList_toString]
    exact isWord_toDigits n

/-- Columns or not, the words of the line are its fields. -/
theorem wordsOf_body (h : IsWord e.label.toList) : wordsOf e.body = e.fields := by
  rw [body, wordsOf_append_columnChars fun f ↦ isWord_of_mem_columns, wordsOf_padRight,
    wordsOf_of_isWord h, columns, List.map_cons, List.map_map, fields, List.singleton_append]
  congr 2
  exact List.map_congr_left fun n _ ↦ toList_toString n

theorem eq_space_of_mem_body (h : IsWord e.label.toList) {c : Char} (hc : c ∈ e.body)
    (hblank : isBlank c = true) : c = ' ' := by
  rcases List.mem_append.mp hc with hc | hc
  · exact eq_space_of_mem_padRight h hc hblank
  · obtain ⟨f, hf, hc⟩ := List.mem_flatMap.mp hc
    rcases List.mem_cons.mp hc with rfl | hc
    · rfl
    · exact eq_space_of_mem_padRight (isWord_of_mem_columns hf) hc hblank

theorem newline_notMem_body (h : IsWord e.label.toList) : '\n' ∉ e.body := fun hmem ↦
  absurd (eq_space_of_mem_body h hmem rfl) (by decide)

theorem getLast?_body_ne (h : IsWord e.label.toList) : e.body.getLast? ≠ some '\r' := fun hlast ↦
  absurd (eq_space_of_mem_body h (List.mem_of_getLast? hlast) rfl) (by decide)

end Entry

/-! ## The log -/

variable {t t' : Tree} {files : Files} {entries : List Entry} {s : String}

/-- Records the coverage of some runs, one after the other. -/
def recordAll (t : Tree) (files : Files) (entries : List Entry) : Except Failure Tree :=
  entries.foldlM (fun t e ↦ recordCoverage t files e.label e.used e.observed) t

theorem recordAll_of_logs (h : t.Logs files.coverage s) (entries : List Entry) :
    ∃ t', recordAll t files entries = .ok t' ∧
      t'.Logs files.coverage (s ++ String.join (entries.map Entry.line)) := by
  induction entries generalizing t s with
  | nil => exact ⟨t, rfl, by rwa [List.map_nil, String.join_nil, String.append_empty]⟩
  | cons e entries ih =>
    obtain ⟨t₁, happend, hlogs⟩ := h.append e.line
    obtain ⟨t', hrest, hlogs'⟩ := ih hlogs
    have hfirst : recordCoverage t files e.label e.used e.observed = .ok t₁ := by
      rw [recordCoverage, Report.append]
      exact congrArg (Except.mapError _) happend
    refine ⟨t', ?_, ?_⟩
    · rw [recordAll, List.foldlM_cons, hfirst]
      exact hrest
    · rwa [List.map_cons, String.join_cons, ← String.append_assoc]

theorem linesOf_join (h : ∀ e ∈ entries, IsWord e.label.toList) :
    linesOf (String.join (entries.map Entry.line)).toList = entries.map Entry.body := by
  have hchars : (String.join (entries.map Entry.line)).toList =
      (entries.map Entry.body).flatMap (· ++ ['\n']) := by
    rw [String.toList_join, List.flatMap_map, List.flatMap_map]
    exact List.flatMap_congr fun e _ ↦ e.toList_line
  rw [hchars, linesOf_flatMap_of_lines]
  · intro part hpart
    obtain ⟨e, he, rfl⟩ := List.mem_map.mp hpart
    exact Entry.newline_notMem_body (h e he)
  · intro part hpart
    obtain ⟨e, he, rfl⟩ := List.mem_map.mp hpart
    exact Entry.getLast?_body_ne (h e he)

/-- **The coverage log can be read back.** Let the log be openable and empty, or not there yet, and
let coverage be recorded any number of times under labels without blanks, as the names of all kinds
and schedulers are. Then every append succeeds, and the log has one line for each of them, in order,
whose words are seven: the label, the time, and the five counts in decimal digits, which spell these
counts. -/
theorem log_decoded (hopen : t.append files.coverage "" = .ok t')
    (hempty : ∀ c, t.read files.coverage = .ok c → c = .text "")
    (hlabels : ∀ e ∈ entries, IsWord e.label.toList) :
    (∃ log, recordAll t files entries = .ok log ∧
      List.Forall₂ (fun line e ↦ (wordsOf line).length = 7 ∧
          (wordsOf line).head? = some e.label.toList ∧
          (wordsOf line)[1]? = some (e.used.fixed 6).toList ∧
          (wordsOf line).drop 2 = e.observed.toList.map (Nat.toDigits 10) ∧
          ((wordsOf line).drop 2).map (Nat.ofDigitChars 10 · 0) = e.observed.toList)
        (linesOf ((log.text? files.coverage).getD "").toList) entries) ∧
      (∀ k : CampaignKind, IsWord k.label.toList) ∧ ∀ s : Scheduler, IsWord s.text.toList := by
  refine ⟨?_, CampaignKind.isWord_label, Scheduler.isWord_text⟩
  obtain ⟨log, hrecord, hlogs⟩ := recordAll_of_logs (Tree.logs_empty hopen hempty) entries
  refine ⟨log, hrecord, ?_⟩
  rw [hlogs.text?, String.empty_append, linesOf_join hlabels, List.forall₂_map_left_iff,
    List.forall₂_same]
  intro e he
  rw [Entry.wordsOf_body (hlabels e he)]
  refine ⟨rfl, rfl, rfl, rfl, ?_⟩
  have hspelt (n : ℕ) : Nat.ofDigitChars 10 (Nat.toDigits 10 n) 0 = n :=
    Nat.ofDigitChars_toDigits (by decide) (by decide)
  rw [Entry.fields, List.drop_succ_cons, List.drop_succ_cons, List.drop_zero, List.map_map]
  exact (List.map_congr_left fun n _ ↦ hspelt n).trans (List.map_id _)

/-- The log is missing; the first label and the first counts are wider than their columns. -/
theorem log_decoded_wide :
    let entries : List Entry :=
      [⟨"a-scheduler-with-a-name-of-its-own", .ofMillis 1500, fun _ ↦ 1234567⟩,
        ⟨Scheduler.pctLarge.text, .zero, Idiom.index⟩]
    (∀ e ∈ entries, IsWord e.label.toList) ∧ ∃ log line line',
      recordAll .empty {} entries = .ok log ∧
        linesOf ((log.text? "coverage").getD "").toList = [line, line'] ∧
        (wordsOf line).length = 7 ∧ (wordsOf line').head? = some "pct-large".toList ∧
        ((wordsOf line).drop 2).map (Nat.ofDigitChars 10 · 0) =
          [1234567, 1234567, 1234567, 1234567, 1234567] ∧
        ((wordsOf line').drop 2).map (Nat.ofDigitChars 10 · 0) = [0, 1, 2, 3, 4] := by
  intro entries
  have hlabels : ∀ e ∈ entries, IsWord e.label.toList := by
    refine List.forall_mem_cons.mpr ⟨by decide +kernel, List.forall_mem_singleton.mpr ?_⟩
    exact Scheduler.isWord_text .pctLarge
  have hopen : Tree.empty.append ({} : Files).coverage "" =
      .ok (Tree.empty.put ["coverage"] (.file (.text ""))) := by decide +kernel
  have hmissing : Tree.empty.read "coverage" = .error .notFound := by decide +kernel
  obtain ⟨⟨log, hrecord, hlines⟩, -, -⟩ := log_decoded hopen
    (fun c hc ↦ absurd (hmissing.symm.trans hc) (by simp)) hlabels
  obtain ⟨line, rest, hline, hrest, hlog⟩ := List.forall₂_cons_right_iff.mp hlines
  obtain ⟨line', rest', hline', hrest', rfl⟩ := List.forall₂_cons_right_iff.mp hrest
  obtain rfl := List.forall₂_nil_right_iff.mp hrest'
  obtain ⟨hlength, -, -, -, hcounts⟩ := hline
  obtain ⟨-, hlabel, -, -, hcounts'⟩ := hline'
  exact ⟨hlabels, log, line, line', hrecord, hlog, hlength, hlabel, hcounts, hcounts'⟩

end Report

end Interleave
