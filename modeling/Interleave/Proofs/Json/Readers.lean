import Interleave.Json.Text

/-!
# What readers take off a text

A reader *takes* a value off the front of a text if it reads the value and leaves the rest
(`Reader.Takes`). Blanks, escaped texts and decimal numerals are taken here; the readers of whole
values are put together from these.

A text ends with a quote, wherever it stands. A numeral has no end of its own: it is taken if
nothing follows that could go on with it (`Json.Stops`).
-/

namespace Interleave

variable {α : Type}

/-- The reader reads `a` and leaves `rest`. -/
def Reader.Takes (read : Reader α) (s : List Char) (a : α) (rest : List Char) : Prop :=
  ∃ h, read s = .ok (a, ⟨rest, h⟩)

/-- The same for a reader that may read nothing. -/
def TailReader.Takes (read : TailReader α) (s : List Char) (a : α) (rest : List Char) : Prop :=
  ∃ h, read s = .ok (a, ⟨rest, h⟩)

theorem Reader.takes_iff {read : Reader α} {s : List Char} {a : α} {rest : List Char} :
    read.Takes s a rest ↔ (read s).map (fun x ↦ (x.1, x.2.left)) = .ok (a, rest) := by
  constructor
  · rintro ⟨h, heq⟩
    rw [heq]
    rfl
  · intro h
    rw [Takes]
    match hread : read s with
    | .error e =>
      rw [hread] at h
      exact absurd h nofun
    | .ok (b, r) =>
      rw [hread] at h
      obtain ⟨rfl, rfl⟩ := Prod.mk.inj (Except.ok.inj h)
      exact ⟨r.shorter, rfl⟩

theorem TailReader.takes_iff {read : TailReader α} {s : List Char} {a : α} {rest : List Char} :
    read.Takes s a rest ↔ (read s).map (fun x ↦ (x.1, x.2.left)) = .ok (a, rest) := by
  constructor
  · rintro ⟨h, heq⟩
    rw [heq]
    rfl
  · intro h
    rw [Takes]
    match hread : read s with
    | .error e =>
      rw [hread] at h
      exact absurd h nofun
    | .ok (b, r) =>
      rw [hread] at h
      obtain ⟨rfl, rfl⟩ := Prod.mk.inj (Except.ok.inj h)
      exact ⟨r.notLonger, rfl⟩

/-- What is made of the value that a reader takes. -/
theorem Reader.Takes.map {β : Type} {read : Reader α} {s : List Char} {a : α} {rest : List Char}
    (h : read.Takes s a rest) (f : α → β) :
    Reader.Takes (fun s ↦ (read s).map fun (a, r) ↦ (f a, r)) s (f a) rest := by
  obtain ⟨_, h⟩ := h
  rw [Reader.takes_iff, h]
  rfl

theorem Tail.exists_eq_mk {s l : List α} {t : Tail s} (h : t.left = l) : ∃ h, t = ⟨l, h⟩ := by
  subst h
  exact ⟨t.notLonger, rfl⟩

namespace Json

variable {c : Char} {s gap rest : List Char}

/-! ## Blanks -/

/-- Nothing but blanks. -/
def Blank (s : List Char) : Prop := ∀ c ∈ s, isBlank c = true

theorem blank_nil : Blank [] := nofun

/-- Blanks do not hide the character behind them. -/
theorem front_eq (hgap : Blank gap) (hc : isBlank c = false) :
    ∃ h, front (gap ++ c :: s) = some (c, ⟨s, h⟩) := by
  have hleft : (gap ++ c :: s).dropWhile isBlank = c :: s := by
    rw [List.dropWhile_append_of_pos hgap, List.dropWhile_cons_of_neg (by rw [hc]; decide)]
  obtain ⟨h, hafter⟩ := Tail.exists_eq_mk (t := afterBlank (gap ++ c :: s)) hleft
  rw [front, hafter]
  exact ⟨h, rfl⟩

theorem front_cons (hc : isBlank c = false) : ∃ h, front (c :: s) = some (c, ⟨s, h⟩) :=
  front_eq blank_nil hc

/-! ## Words -/

theorem takes_takeWord (w rest : List Char) : (takeWord w).Takes (w ++ rest) () rest := by
  induction w with
  | nil => exact ⟨_, rfl⟩
  | cons c w ih =>
    obtain ⟨h, hw⟩ := ih
    rw [TailReader.takes_iff, List.cons_append, takeWord, if_pos rfl, hw]
    rfl

/-! ## Texts -/

/-- A digit printed by the printer of escapes is read back. -/
theorem hexValue?_digitChar {n : Nat} (h : n < 16) : hexValue? (Nat.digitChar n) = some n := by
  have hall : ∀ k : Fin 16, hexValue? (Nat.digitChar k) = some k.val := by decide
  exact hall ⟨n, h⟩

theorem utf8Size_digitChar {n : Nat} (h : n < 16) : (Nat.digitChar n).utf8Size = 1 := by
  have hall : ∀ k : Fin 16, (Nat.digitChar k).utf8Size = 1 := by decide
  exact hall ⟨n, h⟩

/-- The numeric escape of a byte. -/
theorem takes_readHex {n : Nat} (h : n < 256) :
    readHex.Takes ('0' :: '0' :: hexByte n ++ rest) n rest := by
  have hhigh : n / 16 % 16 < 16 := Nat.mod_lt _ (by decide)
  have hlow : n % 16 < 16 := Nat.mod_lt _ (by decide)
  have hzero : hexValue? '0' = some 0 := rfl
  have hvalue : ((0 * 16 + 0) * 16 + n / 16 % 16) * 16 + n % 16 = n := by omega
  have hlength : utf8Length
      ['0', '0', Nat.digitChar (n / 16 % 16), Nat.digitChar (n % 16)] = 4 := by
    simp only [utf8Length, List.foldl_cons, List.foldl_nil, utf8Size_digitChar hhigh,
      utf8Size_digitChar hlow]
    rfl
  rw [TailReader.takes_iff, hexByte]
  simp only [List.cons_append, List.nil_append, readHex, List.take_succ_cons, List.take_zero,
    hlength, Nat.lt_irrefl, if_false, hzero, hexValue?_digitChar hhigh, hexValue?_digitChar hlow,
    hvalue]
  rfl

/-- A control character without an escape of its own is written by its number. -/
theorem takes_readEscape_control (hc : c.toNat < 0x20) :
    readEscape.Takes ('u' :: '0' :: '0' :: hexByte c.toNat ++ rest) c rest := by
  obtain ⟨_, hhex⟩ : readHex.Takes ('0' :: '0' :: hexByte c.toNat ++ rest) c.toNat rest :=
    takes_readHex (Nat.lt_trans hc (by decide))
  have htrailing : isTrailing c.toNat = false := by
    rw [isTrailing, Bool.and_eq_false_iff]
    exact .inl (decide_eq_false (by omega))
  have hleading : isLeading c.toNat = false := by
    rw [isLeading, Bool.and_eq_false_iff]
    exact .inl (decide_eq_false (by omega))
  have hshort : shortEscape? 'u' = none := rfl
  rw [Reader.takes_iff, List.cons_append, readEscape, hshort]
  simp only [ne_eq, not_true_eq_false, if_false, hhex, htrailing, hleading, Bool.false_eq_true,
    Char.ofNat_toNat]
  rfl

theorem readTextChars_of_readEscape {cs : List Char} (hescape : readEscape.Takes s c rest)
    {rest' : List Char} (h : Reader.Takes readTextChars rest cs rest') :
    Reader.Takes readTextChars ('\\' :: s) (c :: cs) rest' := by
  obtain ⟨_, hescape⟩ := hescape
  obtain ⟨_, h⟩ := h
  rw [Reader.takes_iff, readTextChars]
  simp only [Char.reduceEq, if_false, if_true, hescape, h]
  rfl

/-- A character that is written as it is. -/
theorem readTextChars_of_plain {cs : List Char} (hquote : c ≠ '"') (hbackslash : c ≠ '\\')
    (hcontrol : ¬c.toNat < 0x20) {rest' : List Char} (h : Reader.Takes readTextChars s cs rest') :
    Reader.Takes readTextChars (c :: s) (c :: cs) rest' := by
  obtain ⟨_, h⟩ := h
  rw [Reader.takes_iff, readTextChars]
  simp only [if_neg hquote, if_neg hbackslash, if_neg hcontrol, h]
  rfl

theorem readTextChars_escape {cs rest' : List Char} (h : Reader.Takes readTextChars rest cs rest') :
    Reader.Takes readTextChars (escape c ++ rest) (c :: cs) rest' := by
  rw [escape.eq_def]
  split
  -- the seven characters before have short escapes, which the reader looks up
  case h_8 =>
    split
    · next hcontrol => exact readTextChars_of_readEscape (takes_readEscape_control hcontrol) h
    · next hquote hbackslash _ _ _ _ _ hcontrol =>
      exact readTextChars_of_plain hquote hbackslash hcontrol h
  all_goals exact readTextChars_of_readEscape ⟨_, rfl⟩ h

theorem takes_readTextChars (cs rest : List Char) :
    Reader.Takes readTextChars (cs.flatMap escape ++ '"' :: rest) cs rest := by
  induction cs with
  | nil =>
    rw [Reader.takes_iff, List.flatMap_nil, List.nil_append, readTextChars, if_pos rfl]
    rfl
  | cons c cs ih =>
    rw [List.flatMap_cons, List.append_assoc]
    exact readTextChars_escape ih

/-- Every text is read back, whatever has to be escaped in it. -/
theorem takes_readText (t : String) (rest : List Char) :
    readText.Takes (t.toList.flatMap escape ++ '"' :: rest) t rest := by
  obtain ⟨_, h⟩ := takes_readTextChars t.toList rest
  rw [Reader.takes_iff, readText, h]
  simp [Except.map]

theorem textChars_append (t : String) (rest : List Char) :
    textChars t ++ rest = '"' :: (t.toList.flatMap escape ++ '"' :: rest) := by
  simp [textChars]

/-! ## Numerals -/

/-- Nothing that could go on with a numeral. -/
def Stops (rest : List Char) : Prop :=
  ∀ c ∈ rest.head?, c.isDigit = false ∧ c ≠ '.' ∧ c ≠ 'e' ∧ c ≠ 'E'

theorem stops_nil : Stops [] := nofun

theorem stops_cons (hdigit : c.isDigit = false) (hpoint : c ≠ '.') (he : c ≠ 'e') (hE : c ≠ 'E') :
    Stops (c :: s) := by
  rintro _ ⟨⟩
  exact ⟨hdigit, hpoint, he, hE⟩

theorem digits_eq_nil (hrest : Stops rest) : digits rest = [] := by
  cases rest with
  | nil => rfl
  | cons c rest => exact List.takeWhile_cons_of_neg (by rw [(hrest c rfl).1]; decide)

theorem digits_append (hs : ∀ c ∈ s, c.isDigit = true) (hrest : Stops rest) :
    digits (s ++ rest) = s := by
  have hnone := digits_eq_nil hrest
  rw [digits] at hnone ⊢
  rw [List.takeWhile_append_of_pos hs, hnone, List.append_nil]

theorem afterDigits_append (hs : ∀ c ∈ s, c.isDigit = true) (hrest : Stops rest) :
    ∃ h, afterDigits (s ++ rest) = ⟨rest, h⟩ := by
  have hleft : (s ++ rest).dropWhile Char.isDigit = rest := by
    rw [List.dropWhile_append_of_pos hs]
    cases rest with
    | nil => rfl
    | cons c rest => exact List.dropWhile_cons_of_neg (by rw [(hrest c rfl).1]; decide)
  exact Tail.exists_eq_mk hleft

theorem le_ofDigitChars (s : List Char) (n : Nat) : n ≤ Nat.ofDigitChars 10 s n := by
  induction s generalizing n with
  | nil => exact Nat.le_of_eq Nat.ofDigitChars_nil.symm
  | cons c s ih =>
    rw [Nat.ofDigitChars_cons]
    exact Nat.le_trans (by omega) (ih _)

/-- Digits that spell a number of 64 bits are all absorbed. -/
theorem absorb_eq {n : Nat} (h : Nat.ofDigitChars 10 s n ≤ maxWord64) :
    absorb n s = (Nat.ofDigitChars 10 s n, s.length) := by
  induction s generalizing n with
  | nil => rw [absorb, Nat.ofDigitChars_nil, List.length_nil]
  | cons c s ih =>
    have hnext : n * 10 + digitValue c = 10 * n + (c.toNat - '0'.toNat) := by
      rw [digitValue, Nat.mul_comm]
      rfl
    rw [Nat.ofDigitChars_cons, ← hnext] at h ⊢
    have hfits : ¬maxWord64 < n * 10 + digitValue c :=
      Nat.not_lt.mpr (Nat.le_trans (le_ofDigitChars s _) h)
    simp only [absorb, if_neg hfits, ih h, List.length_cons]

/-- The first digit of a number is no zero, but that of zero is. -/
theorem head?_toDigits_ne {n : Nat} (h : 0 < n) : (Nat.toDigits 10 n).head? ≠ some '0' := by
  induction n using Nat.strongRecOn with
  | _ n ih =>
    rw [Nat.toDigits_eq_if (by decide)]
    split
    · rw [List.head?_cons]
      intro hzero
      exact Nat.ne_of_gt h (Nat.digitChar_eq_zero.mp (Option.some.inj hzero))
    · next hge =>
      rw [List.head?_append, Option.or_of_isSome (by simp)]
      exact ih (n / 10) (by omega) (by omega)

/-- Without a fraction and an exponent a number is whole. -/
theorem takes_readFraction {n : Nat} (hrest : Stops rest) :
    (readFraction false n 0).Takes rest (.natural (.ofNat n)) rest := by
  have hscale : (readScale false n (0 : Nat) true).Takes rest (.natural (.ofNat n)) rest := by
    rw [TailReader.takes_iff, readScale.eq_def]
    split
    · exact absurd rfl (hrest 'e' rfl).2.2.1
    · exact absurd rfl (hrest 'E' rfl).2.2.2
    · rfl
  rw [TailReader.Takes, readFraction.eq_def]
  split
  · exact absurd rfl (hrest '.' rfl).2.1
  · exact hscale

theorem takes_readNumeral_zero (hrest : Stops rest) :
    (readNumeral false).Takes ('0' :: rest) (.natural (.ofNat 0)) rest := by
  obtain ⟨_, hfraction⟩ := takes_readFraction (n := 0) hrest
  rw [Reader.takes_iff, readNumeral, if_pos rfl, digits_eq_nil hrest]
  dsimp only [List.isEmpty]
  rw [if_pos rfl, hfraction]
  rfl

theorem takes_readNumeral {n : Nat} (hn : n < UInt64.size) (hc : c.isDigit = true) (hzero : c ≠ '0')
    (hs : ∀ c ∈ s, c.isDigit = true) (hvalue : Nat.ofDigitChars 10 s (digitValue c) = n)
    (hrest : Stops rest) :
    (readNumeral false).Takes (c :: (s ++ rest)) (.natural (.ofNat n)) rest := by
  have htake := digits_append hs hrest
  obtain ⟨_, hdrop⟩ := afterDigits_append hs hrest
  obtain ⟨_, hfraction⟩ := takes_readFraction (n := n) hrest
  have habsorb : absorb (digitValue c) s = (n, s.length) := by
    rw [← hvalue] at hn ⊢
    exact absorb_eq (Nat.le_sub_one_of_lt hn)
  rw [Reader.takes_iff, readNumeral, if_neg hzero, if_pos hc]
  simp only [htake, habsorb, Nat.sub_self]
  rw [hdrop, hfraction]
  rfl

/-- The decimal digits of a number of 64 bits are read back. -/
theorem takes_readNumber {n : Nat} (hn : n < UInt64.size) (hrest : Stops rest) :
    ∃ c s, Nat.toDigits 10 n = c :: s ∧ c.isDigit = true ∧
      readNumber.Takes (c :: (s ++ rest)) (.natural (.ofNat n)) rest := by
  have hdigits : ∀ c ∈ Nat.toDigits 10 n, c.isDigit = true := fun c hc ↦
    Nat.isDigit_of_mem_toDigits (by decide) (by decide) hc
  have hvalue := Nat.ofDigitChars_toDigits (n := n) (by decide : 1 < 10) (Nat.le_refl 10)
  match heq : Nat.toDigits 10 n with
  | [] => exact absurd heq Nat.toDigits_ne_nil
  | c :: s =>
    rw [heq] at hdigits hvalue
    obtain ⟨hc, hs⟩ := List.forall_mem_cons.mp hdigits
    have hminus : c ≠ '-' := by
      rintro rfl
      exact absurd hc (by decide)
    have hnumber : ∀ s, readNumber (c :: s) = readNumeral false (c :: s) := fun s ↦ by
      rw [readNumber]
      exact fun _ h ↦ hminus (List.cons.inj h).1
    refine ⟨c, s, rfl, hc, ?_⟩
    rw [Reader.Takes, hnumber]
    -- behind a zero no digit may follow; only zero itself begins with one
    by_cases hzero : c = '0'
    · have hn : n = 0 := Nat.eq_zero_of_not_pos fun hpos ↦
        head?_toDigits_ne hpos (by rw [heq, hzero, List.head?_cons])
      rw [hn, Nat.toDigits_zero] at heq
      obtain ⟨-, rfl⟩ := List.cons.inj heq
      rw [hzero, hn]
      exact takes_readNumeral_zero hrest
    · rw [Nat.ofDigitChars_cons, Nat.mul_zero, Nat.zero_add] at hvalue
      exact takes_readNumeral hn hc hzero hs hvalue hrest

end Json

end Interleave
