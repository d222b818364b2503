import Interleave.Campaign.Plan
import Interleave.Command.Grammar
import Interleave.Data.SortedMap.Lemmas
import Interleave.Target.Launch
import Mathlib.Data.Nat.Notation

/-!
# What a command line says of its run

A command line for the engine has no lengths in it: options, program and arguments stand in one
list, and the options end at the first flag that is two hyphens. A value may be two hyphens as well,
but a value never stands where a flag is looked for. So the list can be taken apart again, unless an
option has the name of a single hyphen, whose flag is two of them
(`Engine.eq_of_flatMap_flag_eq`). Its value is then read as the program, and all that follows as
arguments.

**Command lines of different runs differ but for this** (`Engine.commandLine_eq_iff_of_knobs`). The
argument that gives an option such a name is one that begins with a hyphen and an equals sign.
-/

namespace Interleave

/-! ## Names of options -/

/-- An option as it is given: a name, the first equals sign, and a value. -/
theorem toList_of_knobOfText? {s name value : String} (h : knobOfText? s = some (name, value)) :
    s.toList = name.toList ++ '=' :: value.toList := by
  have hsplit : s.toList.takeWhile (· ≠ '=') ++ s.toList.dropWhile (· ≠ '=') = s.toList :=
    List.takeWhile_append_dropWhile
  rw [knobOfText?] at h
  cases hdrop : s.toList.dropWhile (· ≠ '=') with
  | nil =>
    rw [hdrop] at h
    exact nomatch h
  | cons c rest =>
    -- what is left begins with the first equals sign
    have hhead := List.head?_dropWhile_not (fun c : Char ↦ decide (c ≠ '=')) s.toList
    rw [hdrop] at h hsplit hhead
    obtain rfl : c = '=' := by simpa using hhead
    dsimp only at h
    split at h
    · exact nomatch h
    · obtain ⟨rfl, rfl⟩ := Prod.mk.inj (Option.some.inj h)
      rw [String.toList_ofList, String.toList_ofList]
      exact hsplit.symm

theorem hyphen_of_knobOfText? {s value : String} (h : knobOfText? s = some ("-", value)) :
    "-=".toList <+: s.toList := by
  rw [toList_of_knobOfText? h]
  exact ⟨value.toList, rfl⟩

theorem RunSpec.foldl_withOption (options : List (String × String)) (r : RunSpec) :
    options.foldl (fun r (name, value) ↦ r.withOption name value) r =
      { r with options := options.foldl (fun m o ↦ m.insert o.1 o.2) r.options } := by
  induction options generalizing r with
  | nil => rfl
  | cons o options ih => exact ih (r.withOption o.1 o.2)

/-- The options of a run are those of its request; of two with one name the later one counts. -/
theorem CampaignRequest.options_of_spec? {q : CampaignRequest} {r : RunSpec}
    (h : q.spec? = some r) : r.options = .ofList q.options := by
  rw [spec?] at h
  split at h
  · exact nomatch h
  · obtain rfl := Option.some.inj h
    rw [RunSpec.foldl_withOption]
    rfl

namespace Engine

/-- An option on the command line. -/
def flag (o : String × String) : List String := ["-" ++ o.1, o.2]

theorem flag_name_eq_iff {name : String} : "-" ++ name = "--" ↔ name = "-" := by
  rw [show "--" = "-" ++ "-" from rfl, String.append_right_inj]

theorem flatMap_flag_cons (o : String × String) (l : List (String × String)) (rest : List String) :
    (o :: l).flatMap flag ++ rest = ("-" ++ o.1) :: o.2 :: (l.flatMap flag ++ rest) := rfl

/-- Two lists of options, each with two hyphens and more behind it, come out the same only if they
are the same, or one of them has an option named by a hyphen where the other one ends. -/
theorem eq_of_flatMap_flag_eq {l l' : List (String × String)} {rest rest' : List String}
    (h : l.flatMap flag ++ "--" :: rest = l'.flatMap flag ++ "--" :: rest') :
    l = l' ∧ rest = rest' ∨
      (∃ value after, l = l' ++ ("-", value) :: after ∧
        rest' = value :: (after.flatMap flag ++ "--" :: rest)) ∨
      (∃ value after, l' = l ++ ("-", value) :: after ∧
        rest = value :: (after.flatMap flag ++ "--" :: rest')) := by
  -- both lists are read from the left, a flag and its value at a time
  induction l generalizing l' with
  | nil =>
    cases l' with
    | nil => exact .inl ⟨rfl, (List.cons.inj h).2⟩
    | cons o l' =>
      obtain ⟨name, value⟩ := o
      rw [flatMap_flag_cons] at h
      obtain ⟨hflag, hrest⟩ := List.cons.inj h
      obtain rfl : name = "-" := flag_name_eq_iff.mp hflag.symm
      exact .inr (.inr ⟨value, l', rfl, hrest⟩)
  | cons o l ih =>
    obtain ⟨name, value⟩ := o
    cases l' with
    | nil =>
      rw [flatMap_flag_cons] at h
      obtain ⟨hflag, hrest⟩ := List.cons.inj h
      obtain rfl : name = "-" := flag_name_eq_iff.mp hflag
      exact .inr (.inl ⟨value, l, rfl, hrest.symm⟩)
    | cons o' l' =>
      obtain ⟨name', value'⟩ := o'
      rw [flatMap_flag_cons, flatMap_flag_cons] at h
      obtain ⟨hflag, h⟩ := List.cons.inj h
      obtain ⟨rfl, htail⟩ := List.cons.inj h
      obtain rfl : name = name' := (String.append_right_inj "-").mp hflag
      rcases ih htail with ⟨rfl, rfl⟩ | ⟨v, after, rfl, hrest⟩ | ⟨v, after, rfl, hrest⟩
      · exact .inl ⟨rfl, rfl⟩
      · exact .inr (.inl ⟨v, after, rfl, hrest⟩)
      · exact .inr (.inr ⟨v, after, rfl, hrest⟩)

/-- A run whose option named by a hyphen is read as the end of the options: its value stands where
the other run has its program, and all that follows where the other run has its arguments. -/
def MistakenFor (r r' : RunSpec) : Prop :=
  ∃ after, r.options.entries = r'.options.entries ++ ("-", r'.program) :: after ∧
    r'.args = after.flatMap flag ++ "--" :: targetLine r

variable {e : Engine} {r r' : RunSpec}

theorem commandLine_of_command (he : e.command ≠ []) (r : RunSpec) :
    e.commandLine r = e.command ++ (r.options.entries.flatMap flag ++ "--" :: targetLine r) := by
  rw [commandLine, if_neg (by rwa [List.isEmpty_iff]), List.append_assoc]
  rfl

theorem MistakenFor.commandLine_eq (he : e.command ≠ []) (h : MistakenFor r r') :
    e.commandLine r = e.commandLine r' := by
  obtain ⟨after, hoptions, hargs⟩ := h
  rw [commandLine_of_command he, commandLine_of_command he, hoptions, List.flatMap_append,
    List.append_assoc, flatMap_flag_cons, ← hargs]
  rfl

theorem commandLine_eq_iff (he : e.command ≠ []) :
    e.commandLine r = e.commandLine r' ↔ r = r' ∨ MistakenFor r r' ∨ MistakenFor r' r := by
  constructor
  · intro h
    rw [commandLine_of_command he, commandLine_of_command he, List.append_cancel_left_eq] at h
    rcases eq_of_flatMap_flag_eq h with ⟨hoptions, htarget⟩ | ⟨value, after, hoptions, htarget⟩ |
      ⟨value, after, hoptions, htarget⟩
    · obtain ⟨hprogram, hargs⟩ := List.cons.inj htarget
      have hmap : r.options = r'.options := SortedMap.ext_entries hoptions
      obtain ⟨program, args, options⟩ := r
      cases hprogram
      cases hargs
      cases hmap
      exact .inl rfl
    · obtain ⟨rfl, hargs⟩ := List.cons.inj htarget
      exact .inr (.inl ⟨after, hoptions, hargs⟩)
    · obtain ⟨rfl, hargs⟩ := List.cons.inj htarget
      exact .inr (.inr ⟨after, hoptions, hargs⟩)
  · rintro (rfl | h | h)
    · rfl
    · exact h.commandLine_eq he
    · exact (h.commandLine_eq he).symm

/-- A run can be mistaken for another one only if an argument names an option by a hyphen. -/
theorem MistakenFor.exists_knob (h : MistakenFor r r') {knobs : List String} {q : CampaignRequest}
    (hknobs : knobs.map knobOfText? = q.options.map some) (hspec : q.spec? = some r) :
    ∃ s ∈ knobs, "-=".toList <+: s.toList := by
  obtain ⟨after, hoptions, -⟩ := h
  have hcontains : r.options.contains "-" = true := by
    rw [← SortedMap.mem_keys_iff, SortedMap.keys, hoptions, List.map_append]
    exact List.mem_append_right _ List.mem_cons_self
  rw [CampaignRequest.options_of_spec? hspec, SortedMap.contains_ofList_iff] at hcontains
  obtain ⟨value, hvalue⟩ := hcontains
  have hread : some ("-", value) ∈ knobs.map knobOfText? := by
    rw [hknobs]
    exact List.mem_map_of_mem hvalue
  obtain ⟨s, hs, hs'⟩ := List.mem_map.mp hread
  exact ⟨s, hs, hyphen_of_knobOfText? hs'⟩

/-- **Command lines tell runs apart.** Two runs with options that were given as arguments have the
same command line only if they are the same run, or one of them is mistaken for the other; and this
takes an argument that begins with a hyphen and an equals sign. -/
theorem commandLine_eq_iff_of_knobs (he : e.command ≠ []) {knobs knobs' : List String}
    {q q' : CampaignRequest} (hknobs : knobs.map knobOfText? = q.options.map some)
    (hspec : q.spec? = some r) (hknobs' : knobs'.map knobOfText? = q'.options.map some)
    (hspec' : q'.spec? = some r') :
    (e.commandLine r = e.commandLine r' ↔ r = r' ∨ MistakenFor r r' ∨ MistakenFor r' r) ∧
      ((∀ s ∈ knobs ++ knobs', ¬ "-=".toList <+: s.toList) →
        e.commandLine r = e.commandLine r' → r = r') := by
  refine ⟨commandLine_eq_iff he, fun hplain h ↦ ?_⟩
  rcases (commandLine_eq_iff he).mp h with heq | h | h
  · exact heq
  · obtain ⟨s, hs, hhyphen⟩ := h.exists_knob hknobs hspec
    exact absurd hhyphen (hplain s (List.mem_append_left _ hs))
  · obtain ⟨s, hs, hhyphen⟩ := h.exists_knob hknobs' hspec'
    exact absurd hhyphen (hplain s (List.mem_append_right _ hs))

/-- A value and an argument of two hyphens, and an argument that looks like an option. -/
theorem commandLine_eq_iff_of_knobs_dashes :
    let e : Engine := { command := ["pin", "-t"], runTimeout := .zero }
    let r : RunSpec := ⟨"app", ["--", "-b", "1"], .ofList [("a", "--"), ("b", "=")]⟩
    let r' : RunSpec := ⟨"app", ["-b", "=", "--"], .ofList [("a", "--")]⟩
    ["a=1", "b==", "a=--"].map knobOfText? = [("a", "1"), ("b", "="), ("a", "--")].map some ∧
      e.commandLine r = ["pin", "-t", "-a", "--", "-b", "=", "--", "app", "--", "-b", "1"] ∧
      e.commandLine r ≠ e.commandLine r' := by
  intro e r r'
  let q : CampaignRequest :=
    { plan := .single .native {}, options := [("a", "1"), ("b", "="), ("a", "--")]
      program := ["app", "--", "-b", "1"] }
  let q' : CampaignRequest :=
    { plan := .single .native {}, options := [("a", "--")], program := ["app", "-b", "=", "--"] }
  have hknobs : ["a=1", "b==", "a=--"].map knobOfText? = q.options.map some := by decide
  have hknobs' : ["a=--"].map knobOfText? = q'.options.map some := by decide
  have hspec : q.spec? = some r := by decide
  have hspec' : q'.spec? = some r' := by decide
  refine ⟨hknobs, by decide, fun h ↦ ?_⟩
  have heq := (commandLine_eq_iff_of_knobs (by decide) hknobs hspec hknobs' hspec').2
    (by decide) h
  exact absurd heq (by decide)

/-- An option named by a hyphen is taken for the end of the options. -/
theorem commandLine_eq_of_hyphen :
    let e : Engine := { command := ["pin"], runTimeout := .zero }
    let q : CampaignRequest :=
      { plan := .single .native {}, options := [("-", "app")], program := ["run"] }
    let q' : CampaignRequest := { plan := .single .native {}, program := ["app", "--", "run"] }
    ["-=app"].map knobOfText? = q.options.map some ∧
      ∃ r r', q.spec? = some r ∧ q'.spec? = some r' ∧ e.commandLine r = e.commandLine r' ∧
        r.options ≠ r'.options ∧ r.program ≠ r'.program ∧ r.args ≠ r'.args := by
  intro e q q'
  exact ⟨by decide, ⟨"run", [], .ofList [("-", "app")]⟩, ⟨"app", ["--", "run"], ∅⟩, by decide,
    by decide, by decide, by decide, by decide, by decide⟩

end Engine

end Interleave
