import Interleave.Basic
import Interleave.Proofs.Text.Lines
import Mathlib.Computability.Language
import Mathlib.Data.List.TakeWhile

/-!
# How an idiom may be written

The texts that name an idiom form a regular language: the word any number of times, then any number
of underscores, then the digit (`Idiom.spellings`). The reader does not follow that grammar. It
drops copies of the word as long as there are any, then underscores as long as there are any, and
looks at what is left. The two agree since the word begins neither with an underscore nor with a
digit, so that the first stage leaves exactly the underscores and the digit of a spelling.

Before that a text is trimmed and lowered. What a capital sigma is lowered to depends on whether it
ends a word, which `lowerChars` does not look at. It does not have to: no spelling has a sigma, so
that all lower forms of a text are spellings or none is (`Lowers.mem_spellings_iff`).

**The reader takes the spellings of an idiom for it and refuses all other texts**
(`Idiom.ofText_reads_spellings`). An idiom that is shown in a field of any width is read back from
it, unless a precision cuts its digit off.
-/

namespace Interleave

open scoped Computability

/-! ## Dropping what is repeated -/

section Dropping

variable {w c d : Char} {ws s r : List Char}

theorem Idiom.dropCopies_append (ws s : List Char) :
    dropCopies w ws (w :: ws ++ s) = dropCopies w ws s := by
  have hdrop : (w :: ws ++ s).drop (ws.length + 1) = s := List.drop_left' rfl
  rw [dropCopies, dif_pos (List.isPrefixOf_iff_prefix.mpr (List.prefix_append _ s)), hdrop]

/-- What is left does not begin with the word, and copies of the word stood before it. -/
theorem Idiom.dropCopies_eq_iff :
    dropCopies w ws s = r ↔
      (∃ n, s = (List.replicate n (w :: ws)).flatten ++ r) ∧ ¬ w :: ws <+: r := by
  constructor
  · rintro rfl
    fun_induction dropCopies w ws s with
    | case1 s h ih =>
      obtain ⟨⟨n, hn⟩, hrest⟩ := ih
      refine ⟨⟨n + 1, ?_⟩, hrest⟩
      rw [List.replicate_succ, List.flatten_cons, List.append_assoc, ← hn]
      exact (List.prefix_iff_eq_append.mp (List.isPrefixOf_iff_prefix.mp h)).symm
    | case2 s h => exact ⟨⟨0, rfl⟩, fun hprefix ↦ h (List.isPrefixOf_iff_prefix.mpr hprefix)⟩
  · rintro ⟨⟨n, rfl⟩, hrest⟩
    induction n with
    | zero => rw [List.replicate_zero, List.flatten_nil, List.nil_append, dropCopies,
        dif_neg fun hprefix ↦ hrest (List.isPrefixOf_iff_prefix.mp hprefix)]
    | succ n ih => rw [List.replicate_succ, List.flatten_cons, List.append_assoc,
        dropCopies_append, ih]

theorem dropWhile_beq_eq_cons_iff :
    s.dropWhile (· == c) = d :: r ↔ (∃ n, s = List.replicate n c ++ d :: r) ∧ d ≠ c := by
  constructor
  · intro h
    have hfront : ∀ x ∈ s.takeWhile (· == c), x = c := by
      intro x hx
      have hx := List.mem_takeWhile_imp hx
      exact beq_iff_eq.mp hx
    have hhead := List.head?_dropWhile_not (· == c) s
    rw [h] at hhead
    refine ⟨⟨(s.takeWhile (· == c)).length, ?_⟩, by simpa using hhead⟩
    rw [← List.eq_replicate_of_mem hfront, ← h, List.takeWhile_append_dropWhile]
  · rintro ⟨⟨n, rfl⟩, hd⟩
    rw [List.dropWhile_append_of_pos fun x hx ↦ beq_iff_eq.mpr (List.eq_of_mem_replicate hx)]
    exact List.dropWhile_cons_of_neg (by simpa using hd)

theorem mem_kstar_singleton_iff {t : List Char} :
    s ∈ ({t} : Language Char)∗ ↔ ∃ n, s = (List.replicate n t).flatten := by
  rw [Language.mem_kstar]
  constructor
  · rintro ⟨parts, rfl, hparts⟩
    exact ⟨parts.length, congrArg List.flatten (List.eq_replicate_of_mem hparts)⟩
  · rintro ⟨n, rfl⟩
    exact ⟨_, rfl, fun part hpart ↦ List.eq_of_mem_replicate hpart⟩

end Dropping

/-! ## Spellings -/

namespace Idiom

variable {i : Idiom} {c : Char} {s t : List Char}

/-- The digit of the number of an idiom; idioms are numbered from 1. -/
def digit (i : Idiom) : Char := Nat.digitChar (i.index + 1)

/-- The texts, without outer blanks and capitals, that name the idiom. -/
def spellings (i : Idiom) : Language Char := {"idiom".toList}∗ * {['_']}∗ * {[i.digit]}

theorem mem_spellings_iff :
    t ∈ i.spellings ↔ ∃ m n, t = (List.replicate m ['i', 'd', 'i', 'o', 'm']).flatten ++
      (List.replicate n '_' ++ [i.digit]) := by
  have hsingle (n : ℕ) : (List.replicate n ['_']).flatten = List.replicate n '_' :=
    List.flatten_replicate_singleton
  constructor
  · rintro ⟨front, ⟨words, hwords, marks, hmarks, rfl⟩, last, hlast, rfl⟩
    obtain ⟨m, rfl⟩ := mem_kstar_singleton_iff.mp hwords
    obtain ⟨n, rfl⟩ := mem_kstar_singleton_iff.mp hmarks
    obtain rfl : last = [i.digit] := hlast
    exact ⟨m, n, by rw [hsingle]; exact List.append_assoc _ _ _⟩
  · rintro ⟨m, n, rfl⟩
    rw [← List.append_assoc, ← hsingle]
    exact Language.append_mem_mul (Language.append_mem_mul
      (mem_kstar_singleton_iff.mpr ⟨m, rfl⟩) (mem_kstar_singleton_iff.mpr ⟨n, rfl⟩)) rfl

theorem toNat_lt_of_mem_spellings (h : t ∈ i.spellings) (hc : c ∈ t) : c.toNat < 128 := by
  have hword : (['i', 'd', 'i', 'o', 'm'].all fun c ↦ c.toNat < 128) = true := rfl
  obtain ⟨m, n, rfl⟩ := mem_spellings_iff.mp h
  rcases List.mem_append.mp hc with hc | hc
  · obtain ⟨word, hmem, hc⟩ := List.mem_flatten.mp hc
    rw [List.eq_of_mem_replicate hmem] at hc
    exact of_decide_eq_true (List.all_eq_true.mp hword c hc)
  · rcases List.mem_append.mp hc with hc | hc
    · rw [List.eq_of_mem_replicate hc]
      decide
    · rw [List.mem_singleton.mp hc]
      cases i <;> decide

theorem digit_mem_of_mem_spellings (h : t ∈ i.spellings) : i.digit ∈ t := by
  obtain ⟨m, n, rfl⟩ := mem_spellings_iff.mp h
  exact List.mem_append_right _ (List.mem_append_right _ (List.mem_singleton_self _))

theorem digit_ne_underscore (i : Idiom) : i.digit ≠ '_' := by
  cases i <;> decide

theorem i_ne_digit (i : Idiom) : 'i' ≠ i.digit := by
  cases i <;> decide

theorem ofDigit?_eq_some_iff : ofDigit? s = some i ↔ s = [i.digit] := by
  constructor
  · intro h
    unfold ofDigit? at h
    split at h
    case h_6 => exact nomatch h
    all_goals
      obtain rfl := Option.some.inj h
      rfl
  · rintro rfl
    cases i <;> rfl

/-- Dropping copies of the word stops where the underscores or the digit begin. -/
theorem not_word_prefix (i : Idiom) (n : ℕ) :
    ¬ ['i', 'd', 'i', 'o', 'm'] <+: List.replicate n '_' ++ [i.digit] := by
  intro h
  rcases List.mem_append.mp (h.subset List.mem_cons_self) with hi | hi
  · exact absurd (List.eq_of_mem_replicate hi) (by decide)
  · exact i_ne_digit i (List.mem_singleton.mp hi)

/-- The two stages of the reader take the spellings apart. -/
theorem ofChars?_eq_some_iff : ofChars? t = some i ↔ t ∈ i.spellings := by
  rw [ofChars?, ofDigit?_eq_some_iff, dropWhile_beq_eq_cons_iff, mem_spellings_iff]
  constructor
  · rintro ⟨⟨n, hn⟩, -⟩
    obtain ⟨⟨m, hm⟩, -⟩ := dropCopies_eq_iff.mp hn
    exact ⟨m, n, hm⟩
  · rintro ⟨m, n, ht⟩
    exact ⟨⟨n, dropCopies_eq_iff.mpr ⟨⟨m, ht⟩, not_word_prefix i n⟩⟩, digit_ne_underscore i⟩

theorem ofText_eq_ok_iff {s : String} :
    ofText s = .ok i ↔ lowerChars (trimChars s.toList) ∈ i.spellings := by
  rw [ofText, ← ofChars?_eq_some_iff]
  cases ofChars? (lowerChars (trimChars s.toList)) with
  | none => simp only [reduceCtorEq]
  | some j => rw [Except.ok.injEq, Option.some.injEq]

theorem ofText_eq_error_iff {s : String} :
    ofText s = .error ⟨"idiom", s, " 1-5"⟩ ↔
      ∀ i : Idiom, lowerChars (trimChars s.toList) ∉ i.spellings := by
  simp only [← ofChars?_eq_some_iff]
  rw [ofText]
  cases ofChars? (lowerChars (trimChars s.toList)) with
  | none => simp only [reduceCtorEq, not_false_eq_true, implies_true]
  | some j =>
    constructor
    · intro h
      contradiction
    · intro h
      exact absurd rfl (h j)

end Idiom

/-! ## Lower forms -/

/-- The lower forms of a text. A capital sigma has two, the second of which is written at the end of
a word; all other characters have one. -/
inductive Lowers : List Char → List Char → Prop
  | nil : Lowers [] []
  | cons (c : Char) {s t : List Char} (h : Lowers s t) : Lowers (c :: s) (lowerChar c ++ t)
  | finalSigma {s t : List Char} (h : Lowers s t) : Lowers ('Σ' :: s) ('ς' :: t)

namespace Lowers

variable {s t : List Char} {i : Idiom}

protected theorem lowerChars (s : List Char) : Lowers s (lowerChars s) := by
  induction s with
  | nil => exact .nil
  | cons c s ih => exact .cons c ih

theorem eq_lowerChars (h : Lowers s t) (hs : 'Σ' ∉ s) : t = lowerChars s := by
  induction h with
  | nil => rfl
  | cons c h ih => rw [ih (List.not_mem_of_not_mem_cons hs), lowerChars, lowerChars,
      List.flatMap_cons]
  | finalSigma h ih => exact absurd List.mem_cons_self hs

/-- A capital sigma leaves a sigma. -/
theorem sigma_mem (h : Lowers s t) (hs : 'Σ' ∈ s) : 'σ' ∈ t ∨ 'ς' ∈ t := by
  induction h with
  | nil => exact absurd hs List.not_mem_nil
  | cons c h ih =>
    rcases List.mem_cons.mp hs with rfl | hs
    · exact .inl (List.mem_append_left _ (by decide))
    · exact (ih hs).imp (List.mem_append_right _) (List.mem_append_right _)
  | finalSigma h ih => exact .inr List.mem_cons_self

theorem sigma_notMem_of_mem_spellings (h : Lowers s t) (ht : t ∈ i.spellings) : 'Σ' ∉ s := by
  intro hs
  rcases h.sigma_mem hs with hsigma | hsigma
  · exact absurd (Idiom.toNat_lt_of_mem_spellings ht hsigma) (by decide)
  · exact absurd (Idiom.toNat_lt_of_mem_spellings ht hsigma) (by decide)

/-- Of the lower forms of a text all are spellings or none is. -/
theorem mem_spellings_iff (h : Lowers s t) : t ∈ i.spellings ↔ lowerChars s ∈ i.spellings := by
  constructor
  · intro ht
    rwa [← h.eq_lowerChars (h.sigma_notMem_of_mem_spellings ht)]
  · intro ht
    rwa [h.eq_lowerChars ((Lowers.lowerChars s).sigma_notMem_of_mem_spellings ht)]

end Lowers

/-! ## What is shown is read back -/

namespace Idiom

theorem isWord_text (i : Idiom) : IsWord i.text.toList := by
  cases i <;> decide

theorem lowerChars_text (i : Idiom) :
    lowerChars i.text.toList = ['i', 'd', 'i', 'o', 'm'] ++ (['_'] ++ [i.digit]) := by
  cases i <;> decide

/-- The digit stands last, so that a shorter piece of what is shown is no spelling. -/
theorem lowerChars_take_text_mem_spellings_iff (i : Idiom) (k : ℕ) :
    lowerChars (i.text.toList.take k) ∈ i.spellings ↔ i.text.length ≤ k := by
  have hlength : i.text.toList.length = 7 := by
    cases i <;> rfl
  have hcut : ∀ k < 7, i.digit ∉ lowerChars (i.text.toList.take k) := by
    cases i <;> decide
  rw [← String.length_toList, hlength]
  constructor
  · intro h
    by_contra hk
    exact hcut k (Nat.lt_of_not_le hk) (digit_mem_of_mem_spellings h)
  · intro hk
    rw [List.take_of_length_le (hlength.trans_le hk), lowerChars_text]
    exact mem_spellings_iff.mpr ⟨1, 1, rfl⟩

theorem ofText_set_text_eq_ok_iff (i : Idiom) (f : Padding) :
    ofText (f.set i.text) = .ok i ↔ ∀ n ∈ f.precision, i.text.length ≤ n := by
  rw [ofText_eq_ok_iff, Padding.set, String.toList_ofList, trimChars_setChars (isWord_text i).solid,
    lowerChars_take_text_mem_spellings_iff]
  cases f.precision with
  | none => simp only [Option.getD_none, String.length_toList, le_refl, reduceCtorEq,
      Option.mem_def, false_imp_iff, implies_true]
  | some n => simp only [Option.getD_some, Option.mem_def, Option.some.injEq, forall_eq']

/-- **A text names an idiom exactly if it is one of its spellings** when it is trimmed and lowered,
whatever its capital sigmas are lowered to; every other text is refused. What is shown of an idiom
is read back from a field of any width and alignment, unless a precision cuts it. -/
theorem ofText_reads_spellings {s : String} {t : List Char} (ht : Lowers (trimChars s.toList) t) :
    (∀ i, ofText s = .ok i ↔ t ∈ i.spellings) ∧
      (ofText s = .error ⟨"idiom", s, " 1-5"⟩ ↔ ∀ i : Idiom, t ∉ i.spellings) ∧
      ∀ (i : Idiom) (f : Padding),
        ofText (f.set i.text) = .ok i ↔ ∀ n ∈ f.precision, i.text.length ≤ n := by
  refine ⟨fun i ↦ ?_, ?_, ofText_set_text_eq_ok_iff⟩
  · rw [ofText_eq_ok_iff, ht.mem_spellings_iff]
  · simp only [ofText_eq_error_iff, ht.mem_spellings_iff]

/-- The word twice and two underscores between wide and narrow blanks, a sigma that ends a word, and
an idiom in the middle of a field with a precision that leaves it whole. -/
theorem ofText_reads_spellings_twice :
    Lowers (trimChars "\u3000IdiomIDIOM__3 \n".toList) "idiomidiom__3".toList ∧
      ofText "\u3000IdiomIDIOM__3 \n" = .ok .idiom3 ∧
      Lowers (trimChars "IΣ".toList) ['i', 'ς'] ∧
      ofText "IΣ" = .error ⟨"idiom", "IΣ", " 1-5"⟩ ∧
      ofText ((Padding.mk 12 (some 7) .center).set idiom4.text) = .ok .idiom4 := by
  have htrim : trimChars "\u3000IdiomIDIOM__3 \n".toList = "IdiomIDIOM__3".toList := by decide
  have hlower : Lowers (trimChars "\u3000IdiomIDIOM__3 \n".toList) "idiomidiom__3".toList := by
    rw [htrim]
    exact Lowers.lowerChars _
  have hsigma : Lowers (trimChars "IΣ".toList) ['i', 'ς'] := .cons 'I' (.finalSigma .nil)
  refine ⟨hlower, ?_, hsigma, ?_, ?_⟩
  · exact ((ofText_reads_spellings hlower).1 .idiom3).mpr (mem_spellings_iff.mpr ⟨2, 2, rfl⟩)
  · refine (ofText_reads_spellings hsigma).2.1.mpr fun i hi ↦ ?_
    have hascii : 'ς'.toNat < 128 := toNat_lt_of_mem_spellings hi (by decide)
    exact absurd hascii (by decide)
  · exact ((ofText_reads_spellings hlower).2.2 .idiom4 _).mpr (by decide)

end Idiom

end Interleave
