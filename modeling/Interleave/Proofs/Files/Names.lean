import Interleave.Files.Tree
import Interleave.Proofs.Files.Frame
import Mathlib.Data.List.Induction

/-!
# The steps of a name

A name is taken apart at its slashes, so its parts hold none, and a name put together from parts
without slashes has just these (`Path.parts_intercalate`). From there the name above a name has the
same steps without the last (`Path.steps_parent`), and a name with a step behind it leads where the
name leads and one step on (`Tree.placeOf_below`).

Hence the temporary file beside a file is another file, and two of them are two files if their tags
are different.
-/

namespace Interleave

/-! ## Splitting -/

variable {d : Char} {s : List Char}

theorem splitAt_ne_nil (d : Char) (s : List Char) : splitAt d s ≠ [] := by
  cases s with
  | nil => exact List.cons_ne_nil _ _
  | cons c s =>
    rw [splitAt]
    split
    · exact List.cons_ne_nil _ _
    · split <;> exact List.cons_ne_nil _ _

theorem splitAt_append_cons (d : Char) (s t : List Char) :
    splitAt d (s ++ d :: t) = splitAt d s ++ splitAt d t := by
  induction s with
  | nil => simp [splitAt]
  | cons c s ih =>
    rw [List.cons_append, splitAt, splitAt, ih]
    by_cases hc : c = d
    · rw [if_pos hc, if_pos hc, List.cons_append]
    · rw [if_neg hc, if_neg hc]
      match hs : splitAt d s with
      | [] => exact absurd hs (splitAt_ne_nil d s)
      | part :: parts => rfl

theorem notMem_of_mem_splitAt {part : List Char} (h : part ∈ splitAt d s) : d ∉ part := by
  induction s generalizing part with
  | nil =>
    obtain rfl := List.mem_singleton.mp h
    exact List.not_mem_nil
  | cons c s ih =>
    rw [splitAt] at h
    split at h
    · rcases List.mem_cons.mp h with rfl | h
      · exact List.not_mem_nil
      · exact ih h
    · next hc =>
      match hs : splitAt d s with
      | [] => exact absurd hs (splitAt_ne_nil d s)
      | first :: parts =>
        rw [hs] at h ih
        rcases List.mem_cons.mp h with rfl | h
        · rw [List.mem_cons, not_or]
          exact ⟨fun heq ↦ hc heq.symm, ih List.mem_cons_self⟩
        · exact ih (List.mem_cons_of_mem _ h)

theorem splitAt_of_notMem (h : d ∉ s) : splitAt d s = [s] := by
  induction s with
  | nil => rfl
  | cons c s ih =>
    rw [List.mem_cons, not_or] at h
    rw [splitAt, if_neg fun heq ↦ h.1 heq.symm, ih h.2]

namespace Path

variable {p q part : String} {l : List String}

/-! ## Parts -/

/-- A text without slashes, which is one part of a name. -/
def Solid (part : String) : Prop := '/' ∉ part.toList

instance (part : String) : Decidable (Solid part) :=
  inferInstanceAs (Decidable ('/' ∉ part.toList))

theorem solid_empty : Solid "" := by
  rw [Solid, String.toList_empty]
  exact List.not_mem_nil

theorem parts_of_solid (h : Solid part) : parts part = [part] := by
  rw [parts, splitAt_of_notMem h, List.map_singleton, String.ofList_toList]

theorem solid_of_mem_parts (h : part ∈ parts p) : Solid part := by
  obtain ⟨cs, hcs, rfl⟩ := List.mem_map.mp h
  rw [Solid, String.toList_ofList]
  exact notMem_of_mem_splitAt hcs

theorem parts_append_slash (p q : String) : parts (p ++ "/" ++ q) = parts p ++ parts q := by
  have hchars : (p ++ "/" ++ q).toList = p.toList ++ '/' :: q.toList := by
    simp
  rw [parts, hchars, splitAt_append_cons, List.map_append, parts, parts]

theorem parts_intercalate {first : String} (hfirst : Solid first) (hl : ∀ part ∈ l, Solid part) :
    parts ("/".intercalate (first :: l)) = first :: l := by
  induction l generalizing first with
  | nil => rw [String.intercalate_singleton, parts_of_solid hfirst]
  | cons next l ih =>
    obtain ⟨hnext, hl⟩ := List.forall_mem_cons.mp hl
    rw [String.intercalate_cons_cons, parts_append_slash, parts_of_solid hfirst, ih hnext hl,
      List.singleton_append]

theorem exists_parts_eq (p : String) : ∃ first rest, parts p = first :: rest :=
  List.exists_cons_of_ne_nil fun h ↦ splitAt_ne_nil '/' p.toList (List.map_eq_nil_iff.mp h)

theorem isAbsolute_iff : isAbsolute p = true ↔ ∃ next rest, parts p = "" :: next :: rest := by
  rw [isAbsolute, parts, beq_iff_eq]
  match p.toList with
  | [] =>
    exact iff_of_false nofun fun ⟨_, _, h⟩ ↦
      absurd (List.cons.inj h).2.symm (List.cons_ne_nil _ _)
  | c :: cs =>
    rw [List.head?_cons, splitAt]
    by_cases hc : c = '/'
    · rw [if_pos hc]
      obtain ⟨next, rest, hcs⟩ := List.exists_cons_of_ne_nil (splitAt_ne_nil '/' cs)
      rw [hcs]
      exact iff_of_true (congrArg some hc) ⟨_, _, rfl⟩
    · rw [if_neg hc]
      obtain ⟨next, rest, hcs⟩ := List.exists_cons_of_ne_nil (splitAt_ne_nil '/' cs)
      rw [hcs]
      refine iff_of_false (fun h ↦ hc (Option.some.inj h)) fun ⟨_, _, h⟩ ↦ ?_
      have hfirst := congrArg String.toList (List.cons.inj h).1
      rw [String.toList_ofList] at hfirst
      exact List.cons_ne_nil _ _ hfirst

/-! ## Names above -/

theorem trimEnd_concat (l : List String) (part : String) :
    trimEnd (l ++ [part]) = if isStep part then l ++ [part] else trimEnd l := by
  rw [trimEnd, List.reverse_append, List.reverse_singleton, List.singleton_append,
    List.dropWhile_cons]
  cases isStep part with
  | true => simp
  | false => rfl

/-- What is cut off holds no step, and what is left ends with one. -/
theorem trimEnd_cases (l : List String) :
    trimEnd l = [] ∧ l.filter isStep = [] ∨
      ∃ init last, trimEnd l = init ++ [last] ∧ isStep last = true ∧
        l.filter isStep = init.filter isStep ++ [last] := by
  induction l using List.reverseRecOn with
  | nil => exact .inl ⟨rfl, rfl⟩
  | append_singleton l part ih =>
    rw [trimEnd_concat, List.filter_append]
    cases hpart : isStep part with
    | true =>
      rw [List.filter_cons_of_pos hpart]
      exact .inr ⟨l, part, rfl, hpart, rfl⟩
    | false =>
      rw [List.filter_cons_of_neg (by rw [hpart]; exact Bool.false_ne_true), List.filter_nil,
        List.append_nil]
      exact ih

theorem filter_trimEnd (l : List String) : (trimEnd l).filter isStep = l.filter isStep := by
  rcases trimEnd_cases l with ⟨htrim, hsteps⟩ | ⟨init, last, htrim, hlast, hsteps⟩
  · rw [htrim, hsteps, List.filter_nil]
  · rw [htrim, hsteps, List.filter_append, List.filter_cons_of_pos hlast, List.filter_nil]

theorem mem_of_mem_trimEnd (h : part ∈ trimEnd l) : part ∈ l := by
  rw [trimEnd, List.mem_reverse] at h
  exact List.mem_reverse.mp ((List.dropWhile_sublist _).mem h)

theorem parent_of_trimEnd_nil {first : String} {rest : List String} (hp : parts p = first :: rest)
    (hrest : trimEnd rest = []) : parent p = "" := by
  rw [parent, hp]
  dsimp only
  rw [hrest]

/-- The parts before the last step make up the name above, which is absolute if they are. -/
theorem parent_of_trimEnd_concat {first last : String} {rest init : List String}
    (hp : parts p = first :: rest) (hrest : trimEnd rest = init ++ [last]) :
    steps (parent p) = (first :: init).filter isStep ∧
      (isAbsolute (parent p) = true ↔ first = "") := by
  have hparent : parent p =
      if trimEnd init = [] then if first = "" then "/" else first
      else "/".intercalate (first :: trimEnd init) := by
    rw [parent, hp]
    dsimp only
    rw [hrest]
    split
    · next h => exact absurd h (List.append_ne_nil_of_right_ne_nil _ (List.cons_ne_nil _ _))
    · rw [List.dropLast_concat]
      cases trimEnd init <;> simp
  have hfirst : Solid first := solid_of_mem_parts (hp ▸ List.mem_cons_self)
  have hinit : ∀ part ∈ trimEnd init, Solid part := by
    intro part hpart
    have hmem : part ∈ trimEnd rest := hrest ▸ List.mem_append_left _ (mem_of_mem_trimEnd hpart)
    exact solid_of_mem_parts (hp ▸ List.mem_cons_of_mem _ (mem_of_mem_trimEnd hmem))
  have hsteps : (first :: trimEnd init).filter isStep = (first :: init).filter isStep := by
    rw [List.filter_cons, List.filter_cons, filter_trimEnd]
  rw [hparent, ← hsteps]
  cases htrim : trimEnd init with
  | nil =>
    rw [if_pos rfl]
    by_cases hempty : first = ""
    · rw [if_pos hempty, hempty]
      exact ⟨rfl, iff_of_true rfl rfl⟩
    · rw [if_neg hempty, steps, isAbsolute_iff, parts_of_solid hfirst]
      simp [hempty]
  | cons next between =>
    rw [htrim] at hinit
    rw [if_neg (List.cons_ne_nil next between), steps, isAbsolute_iff,
      parts_intercalate hfirst hinit]
    simp

theorem steps_parent (p : String) : steps (parent p) = (steps p).dropLast := by
  obtain ⟨first, rest, hp⟩ := exists_parts_eq p
  rcases trimEnd_cases rest with ⟨hrest, hsteps⟩ | ⟨init, last, hrest, -, hsteps⟩
  · rw [parent_of_trimEnd_nil hp hrest, steps, steps, hp, List.filter_cons, hsteps]
    split <;> rfl
  · have hlast : (first :: rest).filter isStep = (first :: init).filter isStep ++ [last] := by
      rw [List.filter_cons, List.filter_cons, hsteps]
      split <;> rfl
    rw [(parent_of_trimEnd_concat hp hrest).1, steps, hp, hlast, List.dropLast_concat]

theorem isAbsolute_parent (h : steps p ≠ []) : isAbsolute (parent p) = isAbsolute p := by
  obtain ⟨first, rest, hp⟩ := exists_parts_eq p
  rw [Bool.eq_iff_iff]
  rcases trimEnd_cases rest with ⟨hrest, hsteps⟩ | ⟨init, last, hrest, -, -⟩
  · rw [parent_of_trimEnd_nil hp hrest]
    refine iff_of_false Bool.false_ne_true fun habsolute ↦ ?_
    obtain ⟨_, _, hparts⟩ := isAbsolute_iff.mp habsolute
    rw [steps, hp, (List.cons.inj (hp.symm.trans hparts)).1, List.filter_cons, hsteps] at h
    exact h rfl
  · rw [(parent_of_trimEnd_concat hp hrest).2, isAbsolute_iff, hp]
    match rest with
    | [] => exact absurd hrest.symm (List.append_ne_nil_of_right_ne_nil _ (List.cons_ne_nil _ _))
    | next :: rest => exact ⟨fun h ↦ ⟨next, rest, by rw [h]⟩, fun ⟨_, _, h⟩ ↦ (List.cons.inj h).1⟩

/-! ## Names below -/

theorem exists_eq_append_slash (h : p.toList.getLast? = some '/') : ∃ q, p = q ++ "/" := by
  obtain ⟨cs, hcs⟩ := List.getLast?_eq_some_iff.mp h
  refine ⟨String.ofList cs, String.toList_inj.mp ?_⟩
  rw [hcs, String.toList_append, String.toList_ofList]
  rfl

theorem steps_append_slash (p q : String) : steps (p ++ "/" ++ q) = steps p ++ steps q := by
  rw [steps, parts_append_slash, List.filter_append, steps, steps]

theorem steps_of_solid (hpart : Solid part) (hstep : isStep part = true) : steps part = [part] := by
  rw [steps, parts_of_solid hpart, List.filter_cons_of_pos hstep, List.filter_nil]

theorem steps_below (p : String) (hpart : Solid part) (hstep : isStep part = true) :
    steps (below p part) = steps p ++ [part] := by
  rw [← steps_of_solid hpart hstep, below]
  split
  · next h =>
    rcases h with rfl | hslash
    · rw [String.empty_append]
      rfl
    · -- the slash at the end of the name is the one before the step
      obtain ⟨q, rfl⟩ := exists_eq_append_slash hslash
      have hq : steps (q ++ "/") = steps q := by
        rw [← String.append_empty (s := q ++ "/"), steps_append_slash]
        exact List.append_nil _
      rw [steps_append_slash, hq]
  · exact steps_append_slash p part

theorem isAbsolute_below (p : String) (hpart : Solid part) :
    isAbsolute (below p part) = isAbsolute p := by
  by_cases hempty : p = ""
  · have hrelative : isAbsolute part = false := by
      rw [Bool.eq_false_iff, Ne, isAbsolute_iff, parts_of_solid hpart]
      exact fun ⟨_, _, h⟩ ↦ absurd (List.cons.inj h).2.symm (List.cons_ne_nil _ _)
    rw [hempty, below, if_pos (.inl rfl), String.empty_append, hrelative]
    rfl
  · have hne : p.toList ≠ [] := fun h ↦ hempty (String.toList_eq_nil_iff.mp h)
    obtain ⟨c, cs, hcs⟩ := List.exists_cons_of_ne_nil hne
    rw [below, isAbsolute, isAbsolute, hcs]
    split <;> simp [hcs]

end Path

/-! ## Places -/

namespace Tree

open Interleave.Path

variable {path part : String}

theorem placeOf_below (path : String) (hpart : Solid part) (hstep : isStep part = true) :
    placeOf (below path part) = (placeOf path).follow part := by
  rw [placeOf, placeOf, start, start, isAbsolute_below path hpart, steps_below path hpart hstep,
    List.foldl_append, List.foldl_cons, List.foldl_nil]

theorem start_parent (h : steps path ≠ []) : start (parent path) = start path := by
  rw [start, start, isAbsolute_parent h]

theorem placeOf_eq_follow (h : (steps path).getLast? = some part) :
    placeOf path = (placeOf (parent path)).follow part := by
  obtain ⟨init, hinit⟩ := List.getLast?_eq_some_iff.mp h
  have hne : steps path ≠ [] := by
    rw [hinit]
    exact List.append_ne_nil_of_right_ne_nil _ (List.cons_ne_nil _ _)
  rw [placeOf, placeOf, start_parent hne, steps_parent, hinit, List.dropLast_concat,
    List.foldl_append, List.foldl_cons, List.foldl_nil]

end Tree

/-! ## Temporary files -/

namespace Snapshot

open Interleave.Path Interleave.Tree

variable {path stem tag tag' : String}

/-- The last step of the name of a temporary file. -/
def tempStep (stem tag : String) : String := stem ++ "." ++ tag ++ ".tmp"

theorem toList_tempStep (stem tag : String) :
    (tempStep stem tag).toList = stem.toList ++ '.' :: (tag.toList ++ ['.', 't', 'm', 'p']) := by
  simp [tempStep]

theorem solid_tempStep (hstem : Solid stem) (htag : Solid tag) : Solid (tempStep stem tag) := by
  rw [Solid] at hstem htag ⊢
  rw [toList_tempStep]
  simp [hstem, htag]

theorem length_tempStep (stem tag : String) :
    (tempStep stem tag).toList.length = stem.toList.length + tag.toList.length + 5 := by
  rw [toList_tempStep]
  simp only [List.length_append, List.length_cons, List.length_nil]
  omega

theorem tempStep_ne_of_length {part : String} (h : part.toList.length < stem.toList.length + 5) :
    tempStep stem tag ≠ part := by
  intro heq
  have hlength := length_tempStep stem tag
  rw [heq] at hlength
  omega

theorem isStep_tempStep (stem tag : String) : isStep (tempStep stem tag) = true := by
  have hempty : tempStep stem tag ≠ "" := tempStep_ne_of_length (Nat.succ_pos _)
  have hdot : tempStep stem tag ≠ "." := tempStep_ne_of_length (Nat.lt_add_left _ (by decide))
  rw [isStep]
  exact decide_eq_true ⟨hempty, hdot⟩

theorem tempStep_injective (h : tempStep stem tag = tempStep stem tag') : tag = tag' := by
  have hchars := congrArg String.toList h
  rw [toList_tempStep, toList_tempStep] at hchars
  have htags := (List.cons.inj (List.append_cancel_left hchars)).2
  exact String.toList_inj.mp (List.append_cancel_right htags)

/-- The temporary files of a name are in one directory, and the file is in it too or is the
directory. -/
theorem exists_placeOf_tempName (path : String) :
    ∃ (base : Place) (stem : String), (placeOf path = base ∨ placeOf path = base ++ [stem]) ∧
      ∀ tag, Solid tag → placeOf (tempName path tag) = base ++ [tempStep stem tag] := by
  have hfollow (base : Place) (stem tag : String) :
      base.follow (tempStep stem tag) = base ++ [tempStep stem tag] :=
    if_neg (tempStep_ne_of_length (Nat.lt_add_left _ (by decide)))
  cases hlast : baseName? path with
  | none =>
    refine ⟨placeOf path, "", .inl rfl, fun tag htag ↦ ?_⟩
    have htemp : tempName path tag = below path (tempStep "" tag) := by
      rw [tempName, hlast, tempStep, String.empty_append]
    rw [htemp, placeOf_below path (solid_tempStep solid_empty htag) (isStep_tempStep "" tag),
      hfollow]
  | some stem =>
    have hstem : (steps path).getLast? = some stem ∧ stem ≠ ".." := by
      rw [baseName?] at hlast
      split at hlast
      · split at hlast
        · exact absurd hlast nofun
        · next h hup => exact Option.some.inj hlast ▸ ⟨h, hup⟩
      · exact absurd hlast nofun
    have hsolid : Solid stem :=
      solid_of_mem_parts (List.mem_filter.mp (List.mem_of_getLast? hstem.1)).1
    refine ⟨placeOf (parent path), stem, .inr ?_, fun tag htag ↦ ?_⟩
    · rw [placeOf_eq_follow hstem.1]
      exact if_neg hstem.2
    · have htemp : tempName path tag = below (parent path) (tempStep stem tag) := by
        rw [tempName, hlast, tempStep]
      rw [htemp, placeOf_below _ (solid_tempStep hsolid htag) (isStep_tempStep stem tag), hfollow]

/-- Temporary files with different tags are different files. -/
theorem placeOf_tempName_ne (path : String) (htag : Solid tag) (htag' : Solid tag')
    (h : tag ≠ tag') : placeOf (tempName path tag) ≠ placeOf (tempName path tag') := by
  obtain ⟨base, stem, -, htemp⟩ := exists_placeOf_tempName path
  rw [htemp tag htag, htemp tag' htag']
  intro heq
  exact h (tempStep_injective (List.cons.inj (List.append_cancel_left heq)).1)

/-- A temporary file is beside the file, not in its place. -/
theorem placeOf_tempName_ne_placeOf (path : String) (htag : Solid tag) :
    placeOf (tempName path tag) ≠ placeOf path := by
  obtain ⟨base, stem, hpath, htemp⟩ := exists_placeOf_tempName path
  rw [htemp tag htag]
  intro heq
  rcases hpath with hpath | hpath
  · rw [hpath] at heq
    exact List.cons_ne_nil _ _ (List.append_right_eq_self.mp heq)
  · rw [hpath] at heq
    have hstem := (List.cons.inj (List.append_cancel_left heq)).1
    exact tempStep_ne_of_length (by omega) hstem

end Snapshot

end Interleave
