import Interleave.Proofs.Files.Names
import Interleave.Text.Basic

/-!
# Lines and words of a text

A text that is put together from lines is taken apart into them again if no line has a newline
inside and none ends with a carriage return. A line that has newlines inside comes apart into one
line more for each of them (`length_splitAt`).

A line in turn is taken apart at its blanks. Fields in columns are found again whatever their width:
padding only adds blanks at the end of a field, and there is one more blank between two fields
(`wordsOf_padRight`, `wordsOf_append_blank`). A text without blanks that is set in a field of its
own is what remains of the field when it is trimmed (`trimChars_setChars`).
-/

namespace Interleave

variable {d c b : Char} {s t w : List Char} {parts : List (List Char)}

/-! ## Lines -/

theorem length_splitAt (d : Char) (s : List Char) : (splitAt d s).length = s.count d + 1 := by
  induction s with
  | nil => rfl
  | cons c s ih =>
    rw [splitAt]
    by_cases hc : c = d
    · rw [if_pos hc, List.length_cons, ih, hc, List.count_cons_self]
    · rw [if_neg hc, List.count_cons_of_ne (by simpa using hc), ← ih]
      cases hs : splitAt d s with
      | nil => exact absurd hs (splitAt_ne_nil d s)
      | cons part rest => rfl

theorem splitAt_intercalate (hparts : ∀ part ∈ parts, d ∉ part) (hne : parts ≠ []) :
    splitAt d ([d].intercalate parts) = parts := by
  induction parts with
  | nil => exact absurd rfl hne
  | cons part rest ih =>
    obtain ⟨hpart, hrest⟩ := List.forall_mem_cons.mp hparts
    cases rest with
    | nil => rw [List.intercalate_singleton, splitAt_of_notMem hpart]
    | cons next rest =>
      rw [List.intercalate_cons_cons, List.append_assoc, List.singleton_append,
        splitAt_append_cons, splitAt_of_notMem hpart, ih hrest (List.cons_ne_nil _ _),
        List.singleton_append]

theorem splitAt_flatMap (d : Char) (parts : List (List Char)) :
    splitAt d (parts.flatMap (· ++ [d])) = parts.flatMap (splitAt d) ++ [[]] := by
  induction parts with
  | nil => rfl
  | cons part rest ih =>
    rw [List.flatMap_cons, List.append_assoc, List.singleton_append, splitAt_append_cons, ih,
      List.flatMap_cons, List.append_assoc]

/-- Parts that each have a newline behind them. -/
theorem linesOf_flatMap (parts : List (List Char)) :
    linesOf (parts.flatMap (· ++ ['\n'])) = (parts.flatMap (splitAt '\n')).map dropReturn := by
  rw [linesOf, splitAt_flatMap, List.getLast?_concat, List.dropLast_concat]
  exact List.append_nil _

theorem dropReturn_of_getLast? (h : s.getLast? ≠ some '\r') : dropReturn s = s := if_neg h

theorem dropReturn_sublist (s : List Char) : (dropReturn s).Sublist s := by
  rw [dropReturn]
  split
  · exact List.dropLast_sublist s
  · exact List.Sublist.refl s

theorem linesOf_flatMap_of_lines (hparts : ∀ part ∈ parts, '\n' ∉ part)
    (hreturn : ∀ part ∈ parts, part.getLast? ≠ some '\r') :
    linesOf (parts.flatMap (· ++ ['\n'])) = parts := by
  have hsplit : parts.flatMap (splitAt '\n') = parts := by
    rw [List.flatMap_congr fun part hpart ↦ splitAt_of_notMem (hparts part hpart)]
    exact List.flatMap_singleton' parts
  rw [linesOf_flatMap, hsplit,
    List.map_congr_left fun part hpart ↦ dropReturn_of_getLast? (hreturn part hpart)]
  exact List.map_id parts

/-! ## Words -/

/-- The parts of a text between its blanks, of which any number may stand together. -/
def wordsOf (s : List Char) : List (List Char) := (s.splitOnP isBlank).filter fun w ↦ !w.isEmpty

/-- A text that is neither empty nor has a blank inside. -/
structure IsWord (w : List Char) : Prop where
  ne_nil : w ≠ []
  solid : ∀ c ∈ w, isBlank c = false

instance (w : List Char) : Decidable (IsWord w) :=
  decidable_of_iff (w.isEmpty = false ∧ (w.all fun c ↦ !isBlank c) = true)
    ⟨fun ⟨hne, hall⟩ ↦ ⟨List.isEmpty_eq_false_iff.mp hne, fun c hc ↦
        Bool.not_inj (List.all_eq_true.mp hall c hc)⟩,
      fun h ↦ ⟨List.isEmpty_eq_false_iff.mpr h.ne_nil, List.all_eq_true.mpr fun c hc ↦
        congrArg not (h.solid c hc)⟩⟩

theorem wordsOf_of_isWord (h : IsWord w) : wordsOf w = [w] := by
  rw [wordsOf, List.splitOnP_eq_singleton h.solid]
  exact List.filter_cons_of_pos (by simpa using h.ne_nil)

theorem wordsOf_append_blank (hb : isBlank b = true) (s t : List Char) :
    wordsOf (s ++ b :: t) = wordsOf s ++ wordsOf t := by
  rw [wordsOf, List.splitOnP_append_cons s t hb, List.filter_append, wordsOf, wordsOf]

theorem wordsOf_append_spaces (s : List Char) (n : ℕ) : wordsOf (s ++ spaces n) = wordsOf s := by
  induction n generalizing s with
  | zero => rw [spaces, List.replicate_zero, List.append_nil]
  | succ n ih =>
    have hspaces : wordsOf (spaces n) = [] := ih []
    rw [spaces, List.replicate_succ, wordsOf_append_blank rfl, ← spaces, hspaces, List.append_nil]

theorem toList_padRight (n : ℕ) (s : String) :
    (padRight n s).toList = s.toList ++ spaces (n - s.toList.length) := by
  rw [padRight, Padding.set, String.toList_ofList]
  rfl

theorem wordsOf_padRight (n : ℕ) (s : String) :
    wordsOf (padRight n s).toList = wordsOf s.toList := by
  rw [toList_padRight, wordsOf_append_spaces]

/-- Columns behind a text, each with a blank before it. -/
def columnChars (fields : List (ℕ × String)) : List Char :=
  fields.flatMap fun f ↦ ' ' :: (padRight f.1 f.2).toList

theorem columnChars_cons (f : ℕ × String) (fields : List (ℕ × String)) :
    columnChars (f :: fields) = ' ' :: (padRight f.1 f.2).toList ++ columnChars fields :=
  List.flatMap_cons

theorem toList_space_append (s : String) : (" " ++ s).toList = ' ' :: s.toList :=
  String.toList_append

theorem wordsOf_append_columnChars {fields : List (ℕ × String)}
    (h : ∀ f ∈ fields, IsWord f.2.toList) (s : List Char) :
    wordsOf (s ++ columnChars fields) = wordsOf s ++ fields.map (·.2.toList) := by
  induction fields generalizing s with
  | nil => rw [columnChars, List.flatMap_nil, List.append_nil, List.map_nil, List.append_nil]
  | cons f fields ih =>
    obtain ⟨hf, hfields⟩ := List.forall_mem_cons.mp h
    rw [columnChars_cons, List.cons_append, wordsOf_append_blank rfl, ih hfields, wordsOf_padRight,
      wordsOf_of_isWord hf, List.map_cons, List.singleton_append]

/-! ## Trimming -/

theorem isBlank_of_mem_spaces {n : ℕ} (h : c ∈ spaces n) : isBlank c = true := by
  rw [List.eq_of_mem_replicate h]
  rfl

theorem dropBlank_spaces_append (n : ℕ) (s : List Char) : dropBlank (spaces n ++ s) = dropBlank s :=
  List.dropWhile_append_of_pos fun _ ↦ isBlank_of_mem_spaces

theorem trimChars_spaces_append (n : ℕ) (s : List Char) :
    trimChars (spaces n ++ s) = trimChars s := by
  rw [trimChars, dropBlank_spaces_append, trimChars]

theorem trimChars_append_spaces (s : List Char) (n : ℕ) :
    trimChars (s ++ spaces n) = trimChars s := by
  have hspaces : dropBlank (spaces n) = [] := List.dropWhile_replicate.trans (if_pos rfl)
  have hreverse : (spaces n).reverse = spaces n := List.reverse_replicate
  have hfront : dropBlank (s ++ spaces n) =
      if (dropBlank s).isEmpty then dropBlank (spaces n) else dropBlank s ++ spaces n :=
    List.dropWhile_append
  rw [trimChars, trimChars, hfront]
  split
  · -- nothing but blanks
    rename_i hblank
    rw [hspaces, List.isEmpty_iff.mp hblank]
  · rw [List.reverse_append, hreverse, dropBlank_spaces_append]

theorem dropBlank_of_solid (h : ∀ c ∈ s, isBlank c = false) : dropBlank s = s := by
  cases s with
  | nil => rfl
  | cons c s =>
    have hc : ¬ isBlank c = true := by
      rw [h c List.mem_cons_self]
      exact Bool.false_ne_true
    exact List.dropWhile_cons_of_neg hc

theorem trimChars_of_solid (h : ∀ c ∈ s, isBlank c = false) : trimChars s = s := by
  have hreverse : ∀ c ∈ s.reverse, isBlank c = false := fun c hc ↦ h c (List.mem_reverse.mp hc)
  rw [trimChars, dropBlank_of_solid h, dropBlank_of_solid hreverse, List.reverse_reverse]

/-- Whatever the field, the text stands in it with spaces around it, unless a precision cuts it. -/
theorem Padding.exists_setChars (f : Padding) (s : List Char) :
    ∃ m n, f.setChars s = spaces m ++ s.take (f.precision.getD s.length) ++ spaces n := by
  obtain ⟨width, precision, align⟩ := f
  have hcut : (precision.map fun n ↦ s.take n).getD s = s.take (precision.getD s.length) := by
    cases precision with
    | none => exact List.take_length.symm
    | some n => rfl
  rw [setChars, hcut]
  cases align with
  | left => exact ⟨0, _, rfl⟩
  | right => exact ⟨_, 0, (List.append_nil _).symm⟩
  | center => exact ⟨_, _, rfl⟩

theorem trimChars_setChars (h : ∀ c ∈ s, isBlank c = false) (f : Padding) :
    trimChars (f.setChars s) = s.take (f.precision.getD s.length) := by
  obtain ⟨m, n, hset⟩ := f.exists_setChars s
  rw [hset, trimChars_append_spaces, trimChars_spaces_append]
  exact trimChars_of_solid fun c hc ↦ h c (List.mem_of_mem_take hc)

/-! ## Blanks -/

theorem isBlank_of_isDigit (h : c.isDigit = true) : isBlank c = false := by
  rw [Char.isDigit, Bool.and_eq_true, decide_eq_true_iff, decide_eq_true_iff] at h
  have hlow : 48 ≤ c.toNat := h.1
  have hhigh : c.toNat ≤ 57 := h.2
  simp only [isBlank, Bool.or_eq_false_iff, Bool.and_eq_false_iff, decide_eq_false_iff_not,
    beq_eq_false_iff_ne]
  omega

theorem toList_toString (n : ℕ) : (toString n).toList = Nat.toDigits 10 n := Nat.toList_repr

theorem isWord_toDigits (n : ℕ) : IsWord (Nat.toDigits 10 n) where
  ne_nil := Nat.toDigits_ne_nil
  solid _ hc := isBlank_of_isDigit (Nat.isDigit_of_mem_toDigits (by decide) (by decide) hc)

/-- In words and columns no blank stands but the space. -/
theorem eq_space_of_mem_padRight {n : ℕ} {s : String} (h : IsWord s.toList)
    (hc : c ∈ (padRight n s).toList) (hblank : isBlank c = true) : c = ' ' := by
  rw [toList_padRight, List.mem_append] at hc
  rcases hc with hc | hc
  · exact absurd hblank (by rw [h.solid c hc]; exact Bool.false_ne_true)
  · exact List.eq_of_mem_replicate hc

end Interleave
