import Interleave.Json.Choice
import Interleave.Proofs.Json.ReadingBack

/-!
# Records and choices are read back

An object is read by entering one field after the other into a state. If every field that is
written can be entered (`Json.EntersAll`), the object is read, and the state is the last one.

In the case of a record the state is a slot for each field. Reading a record that was written fills
the slots of the fields that are not hidden; a hidden field is worth what it is worth if it is
absent. This takes names that are all different: a field is entered by its name, past the fields
before it.

A choice among constants is written as the name of the constant, which has to be the name of no
other.
-/

namespace Interleave

open Json

namespace Json

variable {σ : Type} {enter : String → σ → Except Fault (Reader σ)} {state state' final : σ}
  {l : Layout} {first : Bool} {k : String} {v : Json} {fs : List (String × Json)}
  {gap rest : List Char}

/-! ## Keys -/

theorem readKey_close (first : Bool) (hgap : Blank gap) (rest : List Char) :
    ∃ h, readKey first (gap ++ '\x7d' :: rest) = .ok (.close ⟨rest, h⟩) := by
  obtain ⟨h, hfront⟩ := front_eq (s := rest) hgap (c := '\x7d') rfl
  rw [readKey, hfront]
  exact ⟨h, if_pos rfl⟩

/-- A key, over the comma if fields precede it. -/
theorem readKey_name (first : Bool) (k : String) (hgap : Blank gap) (rest : List Char) :
    ∃ h, readKey first (comma first ++ (gap ++ (textChars k ++ rest))) =
      .ok (.name k ⟨rest, h⟩) := by
  obtain ⟨_, htext⟩ := takes_readText k rest
  obtain ⟨hshorter, hfront⟩ :=
    front_eq (s := k.toList.flatMap escape ++ '"' :: rest) hgap (c := '"') rfl
  rw [textChars_append]
  cases first with
  | true =>
    rw [comma, if_pos rfl, List.nil_append, readKey, hfront]
    dsimp only
    rw [if_neg (by decide), if_neg (by decide), if_pos rfl, if_pos rfl, htext]
    exact ⟨_, rfl⟩
  | false =>
    obtain ⟨_, hcomma⟩ :=
      front_cons (s := gap ++ '"' :: (k.toList.flatMap escape ++ '"' :: rest)) (c := ',') rfl
    rw [comma, if_neg Bool.false_ne_true, List.singleton_append, readKey, hcomma]
    dsimp only
    rw [if_neg (by decide), if_pos (by decide), hfront]
    dsimp only
    rw [if_pos rfl]
    dsimp only [Rest.andThen, Rest.andTail, Rest.toTail]
    rw [htext]
    exact ⟨_, rfl⟩

theorem takes_readColon (rest : List Char) : readColon.Takes (':' :: rest) () rest := by
  obtain ⟨_, hfront⟩ := front_cons (s := rest) (c := ':') rfl
  rw [Reader.takes_iff, readColon, hfront]
  dsimp only
  rw [if_pos rfl]
  rfl

/-! ## Objects -/

/-- The value of a field, wherever it is printed, takes the state to the next. -/
def Enters (enter : String → σ → Except Fault (Reader σ)) (state : σ) (k : String) (v : Json)
    (state' : σ) : Prop :=
  ∃ read, enter k state = .ok read ∧
    ∀ {l : Layout}, l.Lawful → ∀ (d : Nat) {gap rest : List Char}, Blank gap → Stops rest →
      Reader.Takes read (gap ++ (v.chars l d ++ rest)) state' rest

/-- Fields in order take the state from the first to the last. -/
inductive EntersAll (enter : String → σ → Except Fault (Reader σ)) :
    σ → List (String × Json) → σ → Prop where
  | nil (state : σ) : EntersAll enter state [] state
  | cons {state state' final : σ} {k : String} {v : Json} {fs : List (String × Json)} :
    Enters enter state k v state' → EntersAll enter state' fs final →
    EntersAll enter state ((k, v) :: fs) final

theorem takes_readObject_nil (enter : String → σ → Except Fault (Reader σ)) (state : σ)
    (first : Bool) (hgap : Blank gap) :
    Reader.Takes (readObject enter state first) (gap ++ '\x7d' :: rest) state rest := by
  obtain ⟨_, hclose⟩ := readKey_close first hgap rest
  rw [Reader.takes_iff, readObject, hclose]
  rfl

/-- One field, with or without a comma before it, and those behind it. -/
theorem takes_field {t left : List Char} (hl : l.Lawful) (d : Nat)
    (h : Enters enter state k v state') (hstops : Stops rest)
    (hrest : Reader.Takes (readObject enter state' false) rest final left)
    (ht : t = comma first ++ (l.newline (d + 1) ++
      (textChars k ++ (l.colon ++ (v.chars l (d + 1) ++ rest))))) :
    Reader.Takes (readObject enter state first) t final left := by
  obtain ⟨read, henter, hread⟩ := h
  obtain ⟨gap, hcolon, hgap⟩ := hl.colon
  rw [ht, hcolon, List.cons_append]
  obtain ⟨_, hname⟩ := readKey_name first k (hl.newline (d + 1))
    (':' :: (gap ++ (v.chars l (d + 1) ++ rest)))
  obtain ⟨_, hcolon⟩ := takes_readColon (gap ++ (v.chars l (d + 1) ++ rest))
  obtain ⟨_, hread⟩ := hread hl (d + 1) hgap hstops
  obtain ⟨_, hrest⟩ := hrest
  rw [Reader.takes_iff, readObject, hname]
  dsimp only
  rw [henter]
  dsimp only
  rw [hcolon]
  dsimp only
  rw [hread]
  dsimp only [Rest.andThen, Rest.andTail, Rest.toTail]
  rw [hrest]
  rfl

theorem stops_fieldChars (hl : l.Lawful) (d : Nat) (fs : List (String × Json)) (rest : List Char) :
    Stops (chars.fieldChars l d fs ++ rest) := by
  cases fs with
  | nil =>
    rw [chars.fieldChars, List.append_assoc]
    exact stops_append (hl.newline d) (stops_cons (by decide) (by decide) (by decide) (by decide))
  | cons f fs => exact stops_cons (by decide) (by decide) (by decide) (by decide)

theorem takes_fieldChars (hl : l.Lawful) (d : Nat) (h : EntersAll enter state fs final)
    (rest : List Char) :
    Reader.Takes (readObject enter state false) (chars.fieldChars l d fs ++ rest) final rest := by
  induction h with
  | nil state =>
    rw [chars.fieldChars, List.append_assoc]
    exact takes_readObject_nil enter state false (hl.newline d)
  | cons h _ ih =>
    refine takes_field hl d h (stops_fieldChars hl d _ rest) ih ?_
    simp [chars.fieldChars, comma]

/-- What stands behind the brace that opens an object. -/
theorem takes_object (hl : l.Lawful) (d : Nat) (h : EntersAll enter state fs final)
    (rest : List Char) :
    ∃ t, (Json.object fs).chars l d ++ rest = '\x7b' :: t ∧
      Reader.Takes (readObject enter state true) t final rest := by
  cases h with
  | nil => exact ⟨_, rfl, takes_readObject_nil enter state true blank_nil⟩
  | cons h hall =>
    refine ⟨_, ?_, takes_field hl d h (stops_fieldChars hl d _ rest)
      (takes_fieldChars hl d hall rest) rfl⟩
    simp [chars, comma]

end Json

/-! ## Records -/

namespace Fields

/-- The slot of the first field before those of the others. -/
def Slots.cons {α β : Type} {f : Field α} {rest : Fields β} (slot : Option α)
    (slots : rest.Slots) : (Fields.cons f rest).Slots := (slot, slots)

/-- The slots after a record has been read: the values of the fields that are not hidden. -/
def filled : {τ : Type} → (fs : Fields τ) → τ → fs.Slots
  | _, .nil, _ => ()
  | _, .cons f rest, (a, as) => .cons (if f.hidden a then none else some a) (rest.filled as)

/-- Every value is read back by its field, or is what the field is worth if it is absent. -/
def ReadsBack : {τ : Type} → (fs : Fields τ) → τ → Prop
  | _, .nil, _ => True
  | _, .cons f rest, (a, as) =>
    (if f.hidden a then f.absent = some a else f.shape.ReadsBack a) ∧ rest.ReadsBack as

variable {α β τ : Type} {f : Field α} {rest : Fields β} {fs : Fields τ} {closed : Bool}

theorem enter_cons_self (slots : rest.Slots) :
    (cons f rest).enter closed f.name (.cons none slots) =
      .ok fun s ↦ (f.shape.read s).map fun (a, r) ↦ (.cons (some a) slots, r) := by
  have hentry : (cons f rest).entry f.name (.cons none slots) =
      .value fun s ↦ (f.shape.read s).map fun (a, r) ↦ (.cons (some a) slots, r) := if_pos rfl
  rw [enter, hentry]

/-- A field behind the first is entered as if the first were not there. -/
theorem enter_cons_of_ne {key : String} (h : key ≠ f.name) (slot : Option α) {slots : rest.Slots}
    {read : Reader rest.Slots} (hread : rest.enter closed key slots = .ok read) :
    (cons f rest).enter closed key (.cons slot slots) =
      .ok fun s ↦ (read s).map fun (slots, r) ↦ (.cons slot slots, r) := by
  have hentry : (cons f rest).entry key (.cons slot slots) =
      (rest.entry key slots).map (Slots.cons slot) := if_neg h
  rw [enter] at hread ⊢
  rw [hentry]
  cases hrest : rest.entry key slots with
  | unknown =>
    rw [hrest] at hread
    dsimp only [Entry.map] at hread ⊢
    split at hread
    · exact absurd hread nofun
    · next hclosed =>
      obtain rfl := Except.ok.inj hread
      rw [if_neg hclosed]
      -- both skip the value; they differ in when the slots are put together
      refine congrArg Except.ok (funext fun s ↦ ?_)
      dsimp only
      cases skipValue s <;> rfl
  | duplicate =>
    rw [hrest] at hread
    exact absurd hread nofun
  | value read' =>
    rw [hrest] at hread
    obtain rfl := Except.ok.inj hread
    rfl

theorem entersAll_cons {slots slots' : rest.Slots} {given : List (String × Json)}
    (h : EntersAll (rest.enter closed) slots given slots') (hnames : ∀ kv ∈ given, kv.1 ≠ f.name)
    (slot : Option α) :
    EntersAll ((cons f rest).enter closed) (.cons slot slots) given (.cons slot slots') := by
  induction h with
  | nil slots => exact .nil _
  | cons h _ ih =>
    obtain ⟨hk, hnames⟩ := List.forall_mem_cons.mp hnames
    obtain ⟨read, henter, hread⟩ := h
    exact .cons ⟨_, enter_cons_of_ne hk slot henter, fun hl d _ _ hgap hstops ↦
      (hread hl d hgap hstops).map (Slots.cons slot)⟩ (ih hnames)

theorem fst_mem_names_of_mem_write {as : τ} {kv : String × Json} (h : kv ∈ fs.write as) :
    kv.1 ∈ fs.names := by
  induction fs with
  | nil => exact absurd h List.not_mem_nil
  | cons f rest ih =>
    obtain ⟨a, as⟩ := as
    rw [write] at h
    split at h
    · exact List.mem_cons_of_mem _ (ih h)
    · rcases List.mem_cons.mp h with rfl | h
      · exact List.mem_cons_self
      · exact List.mem_cons_of_mem _ (ih h)

/-- What is written for a record fills its slots. -/
theorem entersAll_write (hnames : fs.names.Nodup) {as : τ} (h : fs.ReadsBack as) :
    EntersAll (fs.enter closed) fs.noSlots (fs.write as) (fs.filled as) := by
  induction fs with
  | nil => exact .nil _
  | cons f rest ih =>
    obtain ⟨a, as⟩ := as
    obtain ⟨ha, has⟩ := h
    obtain ⟨hfirst, hrest⟩ := List.nodup_cons.mp hnames
    have hne : ∀ kv ∈ rest.write as, kv.1 ≠ f.name := fun kv hkv heq ↦
      hfirst (heq ▸ fst_mem_names_of_mem_write hkv)
    -- the fields behind go past the first, whether its slot is filled by then or not
    have hall := entersAll_cons (ih hrest has) hne
    rw [write, filled]
    split
    · exact hall none
    · next hshown =>
      rw [if_neg hshown] at ha
      exact .cons ⟨_, enter_cons_self _, fun hl d _ _ hgap hstops ↦
        (ha.takes hl d hgap hstops).map fun a ↦ Slots.cons (some a) rest.noSlots⟩ (hall (some a))

theorem finish_cons {slot : Option α} {a : α} (h : slot.or f.absent = some a)
    (slots : rest.Slots) :
    (cons f rest).finish (.cons slot slots) = (rest.finish slots).map fun as ↦ (a, as) := by
  rw [Slots.cons, finish, h]

theorem finish_filled {as : τ} (h : fs.ReadsBack as) : fs.finish (fs.filled as) = .ok as := by
  induction fs with
  | nil => rfl
  | cons f rest ih =>
    obtain ⟨a, as⟩ := as
    obtain ⟨ha, has⟩ := h
    have hslot : (if f.hidden a then none else some a).or f.absent = some a := by
      split at ha
      · next hhidden => rw [if_pos hhidden, Option.none_or, ha]
      · next hshown => rw [if_neg hshown, Option.some_or]
    rw [filled, finish_cons hslot, ih has]
    rfl

/-- A record whose fields are all entered is read by their names. -/
theorem takes_readByName {into : τ → Except Fault α} {a : α} {as : τ} {s left : List Char}
    (hobject : Reader.Takes (readObject (fs.enter closed) fs.noSlots true) s (fs.filled as) left)
    (h : fs.ReadsBack as) (hinto : into as = .ok a) :
    (fs.readByName closed into).Takes s a left := by
  obtain ⟨_, hobject⟩ := hobject
  rw [Reader.takes_iff, readByName, hobject]
  dsimp only
  rw [finish_filled h]
  dsimp only
  rw [hinto]
  rfl

end Fields

namespace Shape

variable {α τ : Type}

theorem readsBack_record {name : String} {fs : Fields τ} {out : α → τ} {into : τ → α} {a : α}
    (hnames : fs.names.Nodup) (h : fs.ReadsBack (out a)) (hinto : into (out a) = a) :
    (record name fs out into).ReadsBack a where
  isFloat := rfl
  takes {l} hl d gap rest hgap _ := by
    obtain ⟨t, hchars, hobject⟩ := takes_object hl d (Fields.entersAll_write hnames h) rest
    obtain ⟨_, hread⟩ : (fs.readByName false fun as ↦ .ok (into as)).Takes t a rest :=
      Fields.takes_readByName hobject h (congrArg Except.ok hinto)
    have htakes : (record name fs out into).read.Takes (gap ++ '\x7b' :: t) a rest := by
      rw [record, recordWith]
      dsimp only
      exact takes_readBy hgap rfl ((if_neg (by decide)).trans (if_pos rfl)) (by rw [hread]; rfl)
    have hwrite : ((record name fs out into).write a).chars l d ++ rest = '\x7b' :: t := hchars
    rw [hwrite]
    exact htakes

end Shape

/-- A field that is left out if it has no value is read back if its value is. -/
theorem Field.readsBack_omittable (name : String) {α : Type} {s : Shape α} {o : Option α}
    (h : ∀ a ∈ o, s.ReadsBack a ∧ s.write a ≠ .null) :
    if (omittable name s).hidden o then (omittable name s).absent = some o
    else (omittable name s).shape.ReadsBack o := by
  cases o with
  | none => rfl
  | some a => exact .optional h

/-! ## Choices -/

section Choices

variable {α : Type} {all : List α} {name : α → String} {a : α} {rest : List Char}

/-- A constant is found by a name that no other has. -/
theorem Variant.find_constant (ha : a ∈ all) (hname : ∀ b ∈ all, name b = name a → b = a) :
    find (all.map fun b ↦ constant (name b) b) (name a) = .ok (constant (name a) a) := by
  have hfirst : all.find? (fun b ↦ name b == name a) = some a := by
    cases hfind : all.find? fun b ↦ name b == name a with
    | none => exact absurd (List.find?_eq_none.mp hfind a ha) (by simp)
    | some b =>
      have hb := List.find?_some hfind
      rw [hname b (List.mem_of_find?_eq_some hfind) (beq_iff_eq.mp hb)]
  have hfound : (all.map fun b ↦ constant (name b) b).find? (fun v ↦ v.name == name a) =
      some (constant (name a) a) := by
    rw [List.find?_map]
    exact congrArg (Option.map _) hfirst
  rw [find, hfound]

theorem Json.takes_readBare (ha : a ∈ all) (hname : ∀ b ∈ all, name b = name a → b = a)
    (rest : List Char) :
    TailReader.Takes (readBare (all.map fun b ↦ .constant (name b) b))
      ((name a).toList.flatMap escape ++ '"' :: rest) a rest := by
  obtain ⟨_, htext⟩ := takes_readText (name a) rest
  rw [TailReader.takes_iff, readBare, htext]
  dsimp only
  rw [Variant.find_constant ha hname]
  rfl

theorem Shape.readsBack_choice (ha : a ∈ all) (hname : ∀ b ∈ all, name b = name a → b = a) :
    (choice all name).ReadsBack a where
  isFloat := rfl
  takes {l} _ d gap rest hgap _ := by
    obtain ⟨_, hfront⟩ :=
      front_eq (s := (name a).toList.flatMap escape ++ '"' :: rest) hgap (c := '"') rfl
    obtain ⟨_, hbare⟩ := takes_readBare ha hname rest
    have hread : (choice all name).read.Takes
        (gap ++ '"' :: ((name a).toList.flatMap escape ++ '"' :: rest)) a rest := by
      rw [Reader.takes_iff, choice, variants]
      dsimp only
      rw [readChoice, hfront]
      dsimp only
      rw [if_pos rfl, hbare]
      rfl
    rw [← textChars_append] at hread
    exact hread

end Choices

end Interleave
