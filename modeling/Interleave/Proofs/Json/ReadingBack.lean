import Interleave.Json.Shape
import Interleave.Proofs.Json.Readers

/-!
# What is written is read back

A shape reads a value back (`Shape.ReadsBack`) if its reader takes the value off the printed text,
at any depth, in any layout that puts nothing but blanks between the parts, with blanks in front and
anything behind that could not go on with a numeral. So the reader of a list or of a record finds
what it needs for each of its parts, and a document is the case of nothing in front and behind.

A reader that has to tell values apart does so by their first character. No value begins with a
blank or with the bracket that ends a list, and none but null with the letter of null.
-/

namespace Interleave

open Json

namespace Json

variable {l : Layout} {c : Char} {s gap rest : List Char}

/-! ## Layouts -/

/-- Only blanks stand between the parts and around the colon. -/
structure Layout.Lawful (l : Layout) : Prop where
  newline (d : Nat) : Blank (l.newline d)
  colon : ∃ gap, l.colon = ':' :: gap ∧ Blank gap

theorem Layout.lawful_compact : Layout.compact.Lawful where
  newline _ := blank_nil
  colon := ⟨[], rfl, blank_nil⟩

theorem Layout.lawful_pretty : Layout.pretty.Lawful where
  newline d := List.forall_mem_cons.mpr ⟨rfl, fun c hc ↦ by rw [List.eq_of_mem_replicate hc]; rfl⟩
  colon := ⟨[' '], rfl, List.forall_mem_cons.mpr ⟨rfl, blank_nil⟩⟩

/-- Behind blanks a numeral stops where it stops without them. -/
theorem stops_append (hgap : Blank gap) (hs : Stops s) : Stops (gap ++ s) := by
  cases gap with
  | nil => exact hs
  | cons b gap =>
    have hb : isBlank b = true := hgap b List.mem_cons_self
    simp only [isBlank, Bool.or_eq_true, beq_iff_eq] at hb
    rcases hb with ((rfl | rfl) | rfl) | rfl <;>
      exact stops_cons (by decide) (by decide) (by decide) (by decide)

/-! ## First characters -/

/-- Whether a value is written as a double. -/
def isFloat : Json → Bool
  | .number (.float _) => true
  | _ => false

theorem isBlank_of_isDigit (h : c.isDigit = true) : isBlank c = false := by
  rw [Bool.eq_false_iff]
  intro hc
  simp only [isBlank, Bool.or_eq_true, beq_iff_eq] at hc
  rcases hc with ((rfl | rfl) | rfl) | rfl <;> exact absurd h (by decide)

/-- A character that a value begins with: neither a blank nor the bracket that ends a list, and the
first letter of null for null only. -/
def Begins (v : Json) (c : Char) : Prop :=
  isBlank c = false ∧ c ≠ ']' ∧ (c = 'n' → v = .null)

theorem begins_of_ne {v : Json} (hblank : isBlank c = false) (hend : c ≠ ']') (hn : c ≠ 'n') :
    v.Begins c := ⟨hblank, hend, fun h ↦ absurd h hn⟩

theorem begins_of_isDigit {v : Json} (h : c.isDigit = true) : v.Begins c := by
  refine begins_of_ne (isBlank_of_isDigit h) ?_ ?_
  · rintro rfl
    exact absurd h (by decide)
  · rintro rfl
    exact absurd h (by decide)

theorem chars_eq_cons (l : Layout) (d : Nat) {v : Json} (hv : v.isFloat = false) :
    ∃ c s, v.chars l d = c :: s ∧ v.Begins c := by
  cases v with
  | null => exact ⟨_, _, rfl, rfl, by decide, fun _ ↦ rfl⟩
  | bool b => cases b <;> exact ⟨_, _, rfl, begins_of_ne rfl (by decide) (by decide)⟩
  | number n =>
    cases n with
    | natural n =>
      rw [chars, Number.chars]
      match heq : Nat.toDigits 10 n.toNat with
      | [] => exact absurd heq Nat.toDigits_ne_nil
      | c :: s =>
        refine ⟨c, s, rfl, begins_of_isDigit ?_⟩
        exact Nat.isDigit_of_mem_toDigits (by decide) (by decide) (heq ▸ List.mem_cons_self)
    | negative m => exact ⟨_, _, rfl, begins_of_ne rfl (by decide) (by decide)⟩
    | float x => exact absurd hv.symm Bool.false_ne_true
  | text t => exact ⟨_, _, rfl, begins_of_ne rfl (by decide) (by decide)⟩
  | list vs => cases vs <;> exact ⟨_, _, rfl, begins_of_ne rfl (by decide) (by decide)⟩
  | object fs => cases fs <;> exact ⟨_, _, rfl, begins_of_ne rfl (by decide) (by decide)⟩

end Json

/-! ## Reading back -/

namespace Shape

variable {α β : Type} {s : Shape α} {a : α}

/-- What is written for a value is read as that value. -/
structure ReadsBack (s : Shape α) (a : α) : Prop where
  isFloat : (s.write a).isFloat = false
  takes {l : Layout} (hl : l.Lawful) (d : Nat) {gap rest : List Char} (hgap : Blank gap)
    (hrest : Stops rest) : s.read.Takes (gap ++ ((s.write a).chars l d ++ rest)) a rest

/-- A reader that goes by the first character. -/
theorem takes_readBy {wanted : String}
    {f : (c : Char) → (rest : List Char) → Option (Except Fault (α × Tail rest))} {c : Char}
    {t gap rest : List Char} {r : Except Fault (α × Tail t)} (hgap : Blank gap)
    (hc : Json.isBlank c = false) (hf : f c t = some r)
    (hr : r.map (fun x ↦ (x.1, x.2.left)) = .ok (a, rest)) :
    (readBy wanted f).Takes (gap ++ c :: t) a rest := by
  obtain ⟨_, hfront⟩ := front_eq (s := t) hgap hc
  rw [Reader.takes_iff, readBy, hfront]
  dsimp only
  rw [hf]
  cases r with
  | error e => exact absurd hr nofun
  | ok x => exact hr

theorem readsBack_bool (b : Bool) : bool.ReadsBack b where
  isFloat := rfl
  takes _ _ gap rest hgap _ := by
    cases b with
    | true =>
      obtain ⟨_, hword⟩ := takes_takeWord ['r', 'u', 'e'] rest
      have h : readBool.Takes (gap ++ 't' :: (['r', 'u', 'e'] ++ rest)) true rest :=
        takes_readBy hgap rfl (if_pos rfl) (by rw [hword]; rfl)
      exact h
    | false =>
      obtain ⟨_, hword⟩ := takes_takeWord ['a', 'l', 's', 'e'] rest
      have h : readBool.Takes (gap ++ 'f' :: (['a', 'l', 's', 'e'] ++ rest)) false rest :=
        takes_readBy hgap rfl ((if_neg (by decide)).trans (if_pos rfl)) (by rw [hword]; rfl)
      exact h

theorem readsBack_natBelow {wanted : String} {bound n : Nat} (hbound : bound ≤ UInt64.size)
    (hn : n < bound) : (natBelow wanted bound).ReadsBack n where
  isFloat := rfl
  takes {l} _ d gap rest hgap hrest := by
    have hsize := Nat.lt_of_lt_of_le hn hbound
    have hword : (UInt64.ofNat n).toNat = n := UInt64.toNat_ofNat_of_lt' hsize
    obtain ⟨c, t, hdigits, hc, _, hnumber⟩ := takes_readNumber hsize hrest
    obtain ⟨_, hfront⟩ := front_eq (s := t ++ rest) hgap (isBlank_of_isDigit hc)
    have hread : (readNat wanted bound).Takes (gap ++ c :: (t ++ rest)) n rest := by
      rw [Reader.takes_iff, readNat.eq_def, hfront]
      dsimp only
      rw [if_pos (.inr hc), hnumber]
      dsimp only
      rw [hword, if_pos hn]
      rfl
    have hchars : ((natBelow wanted bound).write n).chars l d = c :: t := by
      rw [← hdigits, ← congrArg (Nat.toDigits 10) hword]
      rfl
    rw [hchars]
    exact hread

theorem ReadsBack.iso {out : β → α} {into : α → β} {b : β} (h : s.ReadsBack (out b))
    (hinto : into (out b) = b) : (s.iso out into).ReadsBack b where
  isFloat := h.isFloat
  takes hl d _ _ hgap hrest := by
    have hread := (h.takes hl d hgap hrest).map into
    rwa [hinto] at hread

theorem readsBack_word32 (n : UInt32) : word32.ReadsBack n :=
  (readsBack_natBelow (by decide) n.toNat_lt_size).iso UInt32.ofNat_toNat

theorem readsBack_word64 (n : UInt64) : word64.ReadsBack n :=
  (readsBack_natBelow (Nat.le_refl _) n.toNat_lt_size).iso UInt64.ofNat_toNat

theorem readsBack_textAs (wanted t : String) : (textAs wanted).ReadsBack t where
  isFloat := rfl
  takes {l} _ d gap rest hgap _ := by
    obtain ⟨_, htext⟩ := takes_readText t rest
    have hread : (readString wanted).Takes
        (gap ++ '"' :: (t.toList.flatMap escape ++ '"' :: rest)) t rest :=
      takes_readBy hgap rfl (if_pos rfl) (by rw [htext]; rfl)
    rw [← textChars_append] at hread
    exact hread

theorem readsBack_optional_none : s.optional.ReadsBack none where
  isFloat := rfl
  takes _ _ gap rest hgap _ := by
    obtain ⟨_, hfront⟩ := front_eq (s := ['u', 'l', 'l'] ++ rest) hgap (c := 'n') rfl
    obtain ⟨_, hword⟩ := takes_takeWord ['u', 'l', 'l'] rest
    have h : s.optional.read.Takes (gap ++ 'n' :: (['u', 'l', 'l'] ++ rest)) none rest := by
      rw [Reader.takes_iff, optional]
      dsimp only
      rw [hfront]
      split
      · next heq =>
        obtain ⟨-, rfl⟩ := Prod.mk.inj (Option.some.inj heq)
        rw [hword]
        rfl
      · next hne => exact absurd rfl (hne _)
    exact h

theorem readsBack_optional_some (h : s.ReadsBack a) (hnull : s.write a ≠ .null) :
    s.optional.ReadsBack (some a) where
  isFloat := h.isFloat
  takes {l} hl d gap rest hgap hrest := by
    obtain ⟨c, t, hchars, hblank, -, hn⟩ := chars_eq_cons l d h.isFloat
    obtain ⟨_, hfront⟩ := front_eq (s := t ++ rest) hgap hblank
    have hread := h.takes hl d hgap hrest
    rw [hchars, List.cons_append] at hread
    obtain ⟨_, hread⟩ := hread
    have hsome : s.optional.read.Takes (gap ++ c :: (t ++ rest)) (some a) rest := by
      rw [Reader.takes_iff, optional]
      dsimp only
      rw [hfront]
      split
      · -- only null begins with the letter of null
        next heq => exact absurd (Prod.mk.inj (Option.some.inj heq)).1 fun hc ↦ hnull (hn hc)
      · rw [hread]
        rfl
    have hwrite : (s.optional.write (some a)).chars l d = c :: t := hchars
    rw [hwrite]
    exact hsome

/-- A value that is there must not be written as null, which stands for none. -/
theorem ReadsBack.optional {o : Option α} (h : ∀ a ∈ o, s.ReadsBack a ∧ s.write a ≠ .null) :
    s.optional.ReadsBack o := by
  cases o with
  | none => exact readsBack_optional_none
  | some a => exact readsBack_optional_some (h a rfl).1 (h a rfl).2

end Shape

/-! ## Lists -/

namespace Json

variable {α : Type} {l : Layout} {c : Char} {t gap rest : List Char} {d : Nat}

/-- The comma before an item that is not the first. -/
def comma (first : Bool) : List Char := if first then [] else [',']

theorem takes_nextItem {first : Bool} (hgap : Blank gap) (hc : isBlank c = false)
    (hend : c ≠ ']') :
    (nextItem first).Takes (comma first ++ (gap ++ c :: t)) true (gap ++ c :: t) := by
  obtain ⟨_, hfront⟩ := front_eq (s := t) hgap hc
  rw [TailReader.takes_iff]
  cases first with
  | true =>
    rw [comma, if_pos rfl, List.nil_append, nextItem, hfront]
    dsimp only
    rw [if_neg hend, if_neg (by simp), if_pos rfl]
    rfl
  | false =>
    obtain ⟨_, hcomma⟩ := front_cons (s := gap ++ c :: t) (c := ',') rfl
    rw [comma, if_neg Bool.false_ne_true, List.singleton_append, nextItem, hcomma]
    dsimp only
    rw [if_neg (by decide), if_pos (by decide), hfront]
    dsimp only
    rw [if_neg hend]
    rfl

theorem takes_endList (hgap : Blank gap) : endList.Takes (gap ++ ']' :: rest) () rest := by
  obtain ⟨_, hfront⟩ := front_eq (s := rest) hgap (c := ']') rfl
  rw [Reader.takes_iff, endList, hfront]
  dsimp only
  rw [if_pos rfl]
  rfl

theorem takes_readItems_nil (item : Reader α) (first : Bool) (hgap : Blank gap) :
    Reader.Takes (readItems item first) (gap ++ ']' :: rest) [] rest := by
  obtain ⟨_, hfront⟩ := front_eq (s := rest) hgap (c := ']') rfl
  have hnext : nextItem first (gap ++ ']' :: rest) = .ok (false, .all _) := by
    rw [nextItem, hfront]
    exact if_pos rfl
  obtain ⟨_, hend⟩ : endList.Takes (gap ++ ']' :: rest) () rest := takes_endList hgap
  rw [Reader.takes_iff, readItems, hnext]
  dsimp only [Tail.all]
  rw [hend]
  rfl

theorem takes_readItems_cons {item : Reader α} {first : Bool} {a : α} {as : List α}
    {left : List Char} (hgap : Blank gap) (hc : isBlank c = false) (hend : c ≠ ']')
    (hitem : item.Takes (gap ++ c :: t) a rest)
    (hrest : Reader.Takes (readItems item false) rest as left) :
    Reader.Takes (readItems item first) (comma first ++ (gap ++ c :: t)) (a :: as) left := by
  have hnext : (nextItem first).Takes (comma first ++ (gap ++ c :: t)) true (gap ++ c :: t) :=
    takes_nextItem hgap hc hend
  obtain ⟨_, hnext⟩ := hnext
  obtain ⟨_, hitem⟩ := hitem
  obtain ⟨_, hrest⟩ := hrest
  rw [Reader.takes_iff, readItems, hnext]
  dsimp only
  rw [hitem]
  dsimp only [Tail.andThen]
  rw [hrest]
  rfl

theorem stops_tailChars (hl : l.Lawful) (d : Nat) (vs : List Json) (rest : List Char) :
    Stops (chars.tailChars l d vs ++ rest) := by
  cases vs with
  | nil =>
    rw [chars.tailChars, List.append_assoc]
    exact stops_append (hl.newline d) (stops_cons (by decide) (by decide) (by decide) (by decide))
  | cons v vs => exact stops_cons (by decide) (by decide) (by decide) (by decide)

end Json

namespace Shape

variable {α : Type} {s : Shape α} {l : Layout} {rest : List Char}

/-- One item, with or without a comma before it, and those behind it. -/
theorem takes_item {first : Bool} {a : α} {as : List α} {t left : List Char} (hl : l.Lawful)
    (d : Nat) (h : s.ReadsBack a) (hstops : Stops rest)
    (hrest : Reader.Takes (readItems s.read false) rest as left)
    (ht : t = comma first ++ (l.newline (d + 1) ++ ((s.write a).chars l (d + 1) ++ rest))) :
    Reader.Takes (readItems s.read first) t (a :: as) left := by
  obtain ⟨c, u, hchars, hblank, hend, -⟩ := chars_eq_cons l (d + 1) h.isFloat
  have hitem := h.takes hl (d + 1) (hl.newline (d + 1)) hstops
  rw [hchars, List.cons_append] at hitem ht
  rw [ht]
  exact takes_readItems_cons (hl.newline (d + 1)) hblank hend hitem hrest

theorem takes_tailChars (hl : l.Lawful) (d : Nat) {as : List α} (h : ∀ a ∈ as, s.ReadsBack a)
    (rest : List Char) :
    Reader.Takes (readItems s.read false) (chars.tailChars l d (as.map s.write) ++ rest) as
      rest := by
  induction as with
  | nil =>
    rw [List.map_nil, chars.tailChars, List.append_assoc]
    exact takes_readItems_nil s.read false (hl.newline d)
  | cons a as ih =>
    obtain ⟨ha, has⟩ := List.forall_mem_cons.mp h
    refine takes_item hl d ha (stops_tailChars hl d _ rest) (ih has) ?_
    simp [chars.tailChars, comma]

theorem ReadsBack.list {as : List α} (h : ∀ a ∈ as, s.ReadsBack a) : s.list.ReadsBack as where
  isFloat := rfl
  takes {l} hl d gap rest hgap _ := by
    have hread : ∀ {t : List Char}, Reader.Takes (readItems s.read true) t as rest →
        s.list.read.Takes (gap ++ '[' :: t) as rest := fun {t} ⟨_, ht⟩ ↦ by
      rw [Shape.list]
      dsimp only
      exact takes_readBy hgap rfl (if_pos rfl) (by rw [ht]; rfl)
    cases as with
    | nil => exact hread (takes_readItems_nil s.read true blank_nil)
    | cons a as =>
      obtain ⟨ha, has⟩ := List.forall_mem_cons.mp h
      have hchars : (s.list.write (a :: as)).chars l d ++ rest = '[' :: (comma true ++
          (l.newline (d + 1) ++ ((s.write a).chars l (d + 1) ++
            (chars.tailChars l d (as.map s.write) ++ rest)))) := by
        simp [Shape.list, chars, comma]
      rw [hchars]
      exact hread
        (takes_item hl d ha (stops_tailChars hl d _ rest) (takes_tailChars hl d has rest) rfl)

/-! ## Documents -/

/-- A whole text is read back, in every layout. -/
theorem ReadsBack.decode {a : α} (h : s.ReadsBack a) (hl : l.Lawful) :
    s.decode ((s.write a).chars l 0) = .ok a := by
  have hread := h.takes hl 0 blank_nil stops_nil
  rw [List.nil_append, List.append_nil] at hread
  obtain ⟨_, hread⟩ := hread
  rw [Shape.decode, hread]
  rfl

theorem ReadsBack.decodeText_compact {a : α} (h : s.ReadsBack a) :
    s.decodeText (s.compact a) = .ok a := by
  rw [decodeText, Shape.compact, Json.compact, String.toList_ofList]
  exact h.decode Layout.lawful_compact

theorem ReadsBack.decodeText_pretty {a : α} (h : s.ReadsBack a) :
    s.decodeText (s.pretty a) = .ok a := by
  rw [decodeText, Shape.pretty, Json.pretty, String.toList_ofList]
  exact h.decode Layout.lawful_pretty

end Shape

end Interleave
