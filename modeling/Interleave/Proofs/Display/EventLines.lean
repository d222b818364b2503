import Interleave.Proofs.Databases.References
import Interleave.Proofs.Text.Lines

/-!
# The lines of the events of an iRoot

The table of iRoots has one cell for all events of an iRoot. It is not made from the events, but
from the description of the iRoot, by taking its lines but the first and trimming them. What is
written of an event begins and ends with characters that trimming leaves alone, so that an event has
its line, unless something inside it has a newline. Numbers and padding have none; but the names of
images and source files may hold any character, and what is shown of them is shown as it is. So the
cell has one line for each event and one more for each newline in such a name
(`Table.cellLines_eventsCell`).
-/

namespace Interleave

/-! ## Newlines -/

/-- How often a newline stands in a text. -/
def newlinesIn (s : String) : ℕ := s.toList.count '\n'

theorem newlinesIn_append (s t : String) : newlinesIn (s ++ t) = newlinesIn s + newlinesIn t := by
  rw [newlinesIn, String.toList_append, List.count_append, newlinesIn, newlinesIn]

theorem newlinesIn_padRight (n : ℕ) (s : String) : newlinesIn (padRight n s) = newlinesIn s := by
  have hspaces (k : ℕ) : (spaces k).count '\n' = 0 :=
    List.count_eq_zero.mpr fun hmem ↦ absurd (List.eq_of_mem_replicate hmem) (by decide)
  rw [newlinesIn, toList_padRight, List.count_append, hspaces, Nat.add_zero, newlinesIn]

theorem digitChar_ne_newline {n : ℕ} (h : n < 16) : Nat.digitChar n ≠ '\n' := by
  have hall : ∀ k : Fin 16, Nat.digitChar k ≠ '\n' := by decide
  exact hall ⟨n, h⟩

theorem newline_notMem_toDigits {b : ℕ} (hb : 1 < b) (hle : b ≤ 16) (n : ℕ) :
    '\n' ∉ Nat.toDigits b n := by
  induction n using Nat.strong_induction_on with
  | _ n ih =>
    rw [Nat.toDigits_eq_if hb]
    by_cases hn : n < b
    · rw [if_pos hn, List.mem_singleton]
      exact (digitChar_ne_newline (by omega)).symm
    · have hmod : n % b < b := Nat.mod_lt n (by omega)
      rw [if_neg hn, List.mem_append, List.mem_singleton, not_or]
      exact ⟨ih (n / b) (Nat.div_lt_self (by omega) hb), (digitChar_ne_newline (by omega)).symm⟩

theorem newlinesIn_toString (n : ℕ) : newlinesIn (toString n) = 0 := by
  rw [newlinesIn, toList_toString]
  exact List.count_eq_zero.mpr (newline_notMem_toDigits (by decide) (by decide) n)

theorem Inst.newlinesIn_hexOffset (inst : Inst) : newlinesIn inst.hexOffset = 0 := by
  rw [newlinesIn, Inst.hexOffset, String.toList_ofList]
  exact List.count_eq_zero.mpr (newline_notMem_toDigits (by decide) (by decide) _)

theorem EventKind.newlinesIn_text (kind : EventKind) : newlinesIn kind.text = 0 := by
  cases kind <;> decide

theorem Idiom.newlinesIn_text (i : Idiom) : newlinesIn i.text = 0 := by
  cases i <;> decide

theorem Idiom.arity_pos (i : Idiom) : 0 < i.arity := by
  cases i <;> decide

/-! ## Trimming -/

theorem newline_notMem_trimChars {s : List Char} (h : '\n' ∉ s) : '\n' ∉ trimChars s := by
  intro hmem
  rw [trimChars, List.mem_reverse] at hmem
  have hmem := List.mem_reverse.mp ((List.dropWhile_sublist isBlank).mem hmem)
  exact h ((List.dropWhile_sublist isBlank).mem hmem)

/-- A blank in front of a text goes, the text stays. -/
theorem trimChars_cons {b first last : Char} {s : List Char} (hb : isBlank b = true)
    (hfirst : isBlank first = false) (hlast : isBlank last = false) :
    trimChars (b :: first :: s ++ [last]) = first :: s ++ [last] := by
  have hfront : dropBlank (b :: first :: s ++ [last]) = first :: s ++ [last] := by
    rw [dropBlank, List.cons_append, List.dropWhile_cons_of_pos hb, List.cons_append,
      List.dropWhile_cons_of_neg (by rw [hfirst]; exact Bool.false_ne_true)]
  rw [trimChars, hfront, List.reverse_append, List.reverse_singleton, List.singleton_append,
    dropBlank, List.dropWhile_cons_of_neg (by rw [hlast]; exact Bool.false_ne_true),
    List.reverse_cons, List.reverse_reverse]

/-! ## One event -/

/-- What the databases hold of an event that is shown. -/
structure ShownEvent where
  event : Event
  inst : Inst
  image : Image
  /-- The description of the instruction. -/
  text : String

namespace ShownEvent

/-- The names that are shown with the event: of the image and of the source file. -/
def names (x : ShownEvent) : List Char :=
  x.image.shortName.toList ++ x.inst.source.elim [] fun d ↦ (Path.baseName d.file).toList

/-- What is written of the event: its position, its kind, and the description of its instruction. -/
def label (x : ShownEvent) (position : ℕ) : String :=
  "e" ++ toString position ++ ": " ++ padRight 7 x.event.kind.text ++ " [" ++
    padRight 40 x.text ++ "]"

/-- The line of the event as it stands in the description of the iRoot. -/
def line (x : ShownEvent) (position : ℕ) : List Char := '\t' :: (x.label position).toList

end ShownEvent

/-- An event with all that it refers to. -/
structure Catalog.ShowsAs (c : Catalog) (r : Registry) (id : EventId) (x : ShownEvent) : Prop where
  event : c.findEvent id = .ok x.event
  inst : r.findInst x.event.inst = .ok x.inst
  image : r.findImage x.inst.image = .ok x.image
  text : r.describeInst x.event.inst = .ok x.text

namespace Catalog

variable {c : Catalog} {r : Registry} {id : EventId} {x : ShownEvent}

theorem Resolved.exists_showsAs (h : c.Resolved r) (hr : r.Resolved)
    (hid : c.events.contains id = true) : ∃ x, c.ShowsAs r id x := by
  obtain ⟨event, hevent⟩ := Option.isSome_iff_exists.mp hid
  have hregistered := h.inst id event hevent
  obtain ⟨inst, hfind, hinst⟩ := Registry.findInst_of_containsInst hregistered
  obtain ⟨image, himage⟩ := hr event.inst inst hinst
  obtain ⟨text, htext⟩ := hr.exists_describeInst hregistered
  exact ⟨⟨event, inst, image, text⟩, by rw [findEvent, hevent], hfind, himage, htext⟩

namespace ShowsAs

/-- What is shown of an event is found in the databases. -/
theorem rightUnique : Relator.RightUnique (c.ShowsAs r) := by
  intro id x y hx hy
  have hevent := Except.ok.inj (hx.event.symm.trans hy.event)
  have hinst := Except.ok.inj (hx.inst.symm.trans (hevent ▸ hy.inst))
  have himage := Except.ok.inj (hx.image.symm.trans (hinst ▸ hy.image))
  have htext := Except.ok.inj (hx.text.symm.trans (hevent ▸ hy.text))
  obtain ⟨event, inst, image, text⟩ := x
  obtain rfl : event = y.event := hevent
  obtain rfl : inst = y.inst := hinst
  obtain rfl : image = y.image := himage
  obtain rfl : text = y.text := htext
  rfl

theorem text_eq (h : c.ShowsAs r id x) :
    x.text = padRight 5 x.inst.id.text ++ " " ++ padRight 10 x.image.shortName ++ " 0x" ++
      padRight 6 x.inst.hexOffset ++ " " ++ Registry.sourceText x.inst.source := by
  have htext := h.text
  obtain ⟨inst, hinst, htext⟩ := bind_eq_ok.mp htext
  obtain rfl := Except.ok.inj (h.inst.symm.trans hinst)
  obtain ⟨image, himage, htext⟩ := bind_eq_ok.mp htext
  obtain rfl := Except.ok.inj (h.image.symm.trans himage)
  exact (Except.ok.inj htext).symm

theorem newlinesIn_text (h : c.ShowsAs r id x) : newlinesIn x.text = x.names.count '\n' := by
  have hsource : newlinesIn (Registry.sourceText x.inst.source) =
      (x.inst.source.elim [] fun d ↦ (Path.baseName d.file).toList).count '\n' := by
    cases x.inst.source with
    | none => rfl
    | some d =>
      have hplus : newlinesIn " +" = 0 := by decide
      rw [Registry.sourceText, newlinesIn_append, newlinesIn_append, newlinesIn_toString, hplus,
        Nat.add_zero, Option.elim_some, newlinesIn]
  have hspace : newlinesIn " " = 0 := by decide
  have hmark : newlinesIn " 0x" = 0 := by decide
  rw [h.text_eq, ShownEvent.names, List.count_append, ← hsource, Id.text, ← newlinesIn]
  simp only [newlinesIn_append, newlinesIn_padRight, newlinesIn_toString,
    Inst.newlinesIn_hexOffset, hspace, hmark, Nat.zero_add, Nat.add_zero]

/-- A line has as many newlines as the names in it. -/
theorem count_line (h : c.ShowsAs r id x) (position : ℕ) :
    (x.line position).count '\n' = x.names.count '\n' := by
  have hmark : newlinesIn "e" = 0 := by decide
  have hcolon : newlinesIn ": " = 0 := by decide
  have hopen : newlinesIn " [" = 0 := by decide
  have hclose : newlinesIn "]" = 0 := by decide
  have hlabel : newlinesIn (x.label position) = x.names.count '\n' := by
    rw [ShownEvent.label, ← h.newlinesIn_text]
    simp only [newlinesIn_append, newlinesIn_padRight, newlinesIn_toString,
      EventKind.newlinesIn_text, hmark, hcolon, hopen, hclose, Nat.zero_add, Nat.add_zero]
  rw [ShownEvent.line, List.count_cons_of_ne (by decide), ← hlabel, newlinesIn]

theorem exists_describeEvent (h : c.ShowsAs r id x) (position : ℕ) :
    ∃ text, c.describeEvent r position id = .ok text ∧ text.toList = x.line position ++ ['\n'] := by
  refine ⟨_, bind_eq_ok.mpr ⟨x.event, h.event, bind_eq_ok.mpr ⟨x.text, h.text, rfl⟩⟩, ?_⟩
  have hfront : ("\te" : String).toList = '\t' :: ("e" : String).toList := by decide
  have hback : ("]\n" : String).toList = ("]" : String).toList ++ ['\n'] := by decide
  simp only [ShownEvent.line, ShownEvent.label, String.toList_append, hfront, hback,
    List.cons_append, List.append_assoc]

end ShowsAs

end Catalog

namespace ShownEvent

theorem getLast?_line (x : ShownEvent) (position : ℕ) : (x.line position).getLast? = some ']' := by
  have hclose : ("]" : String).toList = [']'] := by decide
  rw [line, label, String.toList_append, hclose, ← List.cons_append]
  exact List.getLast?_concat

theorem trimChars_line (x : ShownEvent) (position : ℕ) :
    trimChars (x.line position) = (x.label position).toList := by
  obtain ⟨middle, hmiddle⟩ : ∃ middle, (x.label position).toList = 'e' :: middle ++ [']'] := by
    refine ⟨(toString position ++ ": " ++ padRight 7 x.event.kind.text ++ " [" ++
      padRight 40 x.text).toList, ?_⟩
    have hmark : ("e" : String).toList = ['e'] := by decide
    have hclose : ("]" : String).toList = [']'] := by decide
    simp only [label, String.toList_append, hmark, hclose, List.append_assoc, List.cons_append,
      List.nil_append]
  rw [line, hmiddle, ← List.cons_append, trimChars_cons rfl rfl rfl]

/-- The lines that the event has in the cell. -/
def block (x : ShownEvent) (position : ℕ) : List (List Char) :=
  ((splitAt '\n' (x.line position)).map dropReturn).map trimChars

theorem length_block (x : ShownEvent) (position : ℕ) :
    (x.block position).length = (x.line position).count '\n' + 1 := by
  rw [block, List.length_map, List.length_map, length_splitAt]

theorem newline_notMem_of_mem_block {x : ShownEvent} {position : ℕ} {part : List Char}
    (h : part ∈ x.block position) : '\n' ∉ part := by
  rw [block, List.map_map] at h
  obtain ⟨piece, hpiece, rfl⟩ := List.mem_map.mp h
  exact newline_notMem_trimChars fun hmem ↦
    notMem_of_mem_splitAt hpiece ((dropReturn_sublist piece).mem hmem)

/-- An event without newlines has one line, which is all that is written of it. -/
theorem block_of_count {x : ShownEvent} {position : ℕ} (h : (x.line position).count '\n' = 0) :
    x.block position = [(x.label position).toList] := by
  have hreturn : dropReturn (x.line position) = x.line position :=
    dropReturn_of_getLast? (by rw [getLast?_line]; decide)
  rw [block, splitAt_of_notMem (List.count_eq_zero.mp h), List.map_singleton, hreturn,
    List.map_singleton, trimChars_line]

end ShownEvent

/-! ## All events -/

namespace Catalog

variable {c : Catalog} {r : Registry} {events : List EventId} {shown : List ShownEvent}

theorem Resolved.exists_shown (h : c.Resolved r) (hr : r.Resolved)
    (hevents : ∀ id ∈ events, c.events.contains id = true) :
    ∃ shown, List.Forall₂ (c.ShowsAs r) events shown := by
  induction events with
  | nil => exact ⟨[], .nil⟩
  | cons id events ih =>
    obtain ⟨hid, hevents⟩ := List.forall_mem_cons.mp hevents
    obtain ⟨x, hx⟩ := h.exists_showsAs hr hid
    obtain ⟨shown, hshown⟩ := ih hevents
    exact ⟨x :: shown, .cons hx hshown⟩

theorem exists_mapM_describeEvent (h : List.Forall₂ (c.ShowsAs r) events shown) (k : ℕ) :
    ∃ lines, ((events.zipIdx k).mapM fun e ↦ c.describeEvent r e.2 e.1) = .ok lines ∧
      (String.join lines).toList =
        ((shown.zipIdx k).map fun x ↦ x.1.line x.2).flatMap (· ++ ['\n']) := by
  induction h generalizing k with
  | nil => exact ⟨[], rfl, rfl⟩
  | @cons id x events shown hx _ ih =>
    obtain ⟨text, hdescribe, htext⟩ := hx.exists_describeEvent k
    obtain ⟨lines, hlines, hjoin⟩ := ih (k + 1)
    refine ⟨text :: lines, ?_, ?_⟩
    · rw [List.zipIdx_cons, List.mapM_cons]
      exact bind_eq_ok.mpr ⟨text, hdescribe, bind_eq_ok.mpr ⟨lines, hlines, rfl⟩⟩
    · rw [String.join_cons, String.toList_append, htext, hjoin, List.zipIdx_cons, List.map_cons,
        List.flatMap_cons]

/-- Each event gives one line, and one more for each newline in its names. -/
theorem length_flatten_blocks (h : List.Forall₂ (c.ShowsAs r) events shown) (k : ℕ) :
    ((shown.zipIdx k).map fun x ↦ x.1.block x.2).flatten.length =
      events.length + (shown.flatMap ShownEvent.names).count '\n' := by
  induction h generalizing k with
  | nil => rfl
  | @cons id x events shown hx _ ih =>
    rw [List.zipIdx_cons, List.map_cons, List.flatten_cons, List.length_append, ih,
      ShownEvent.length_block, hx.count_line, List.flatMap_cons, List.count_append,
      List.length_cons]
    omega

theorem flatten_blocks_of_names (h : List.Forall₂ (c.ShowsAs r) events shown)
    (hnames : '\n' ∉ shown.flatMap ShownEvent.names) (k : ℕ) :
    ((shown.zipIdx k).map fun x ↦ x.1.block x.2).flatten =
      (shown.zipIdx k).map fun x ↦ (x.1.label x.2).toList := by
  induction h generalizing k with
  | nil => rfl
  | @cons id x events shown hx _ ih =>
    rw [List.flatMap_cons, List.mem_append, not_or] at hnames
    have hblock : x.block k = [(x.label k).toList] :=
      ShownEvent.block_of_count ((hx.count_line k).trans (List.count_eq_zero.mpr hnames.1))
    rw [List.zipIdx_cons, List.map_cons, List.flatten_cons, ih hnames.2, hblock, List.map_cons,
      List.singleton_append]

end Catalog

namespace Table

variable {c : Catalog} {r : Registry} {iroot : IRoot} {shown : List ShownEvent}

/-- The cell is made of the blocks of the events. -/
theorem eventsCell_eq (hfind : c.findIRoot iroot.id = .ok iroot)
    (h : List.Forall₂ (c.ShowsAs r) iroot.events shown) :
    (eventsCell c r iroot.id).toList =
      joinLines (shown.zipIdx.map fun x ↦ x.1.block x.2).flatten := by
  obtain ⟨lines, hlines, hjoin⟩ := Catalog.exists_mapM_describeEvent h 0
  let header := padRight 5 iroot.id.text ++ " " ++ padRight 7 iroot.idiom.text
  have hdescribe : c.describeIRoot r iroot.id = .ok (header ++ "\n" ++ String.join lines) :=
    bind_eq_ok.mpr ⟨iroot, hfind, bind_eq_ok.mpr ⟨lines, hlines, rfl⟩⟩
  have hheader : '\n' ∉ header.toList := by
    have hspace : newlinesIn " " = 0 := by decide
    have hcount : newlinesIn header = 0 := by
      simp only [header, newlinesIn_append, newlinesIn_padRight, hspace, Id.text,
        newlinesIn_toString, Idiom.newlinesIn_text]
    exact List.count_eq_zero.mp hcount
  have htext : (header ++ "\n" ++ String.join lines).toList =
      (header.toList :: shown.zipIdx.map fun x ↦ x.1.line x.2).flatMap (· ++ ['\n']) := by
    rw [String.toList_append, String.toList_append, hjoin, List.flatMap_cons]
    rfl
  rw [eventsCell, hdescribe, String.toList_ofList, htext, linesOf_flatMap, List.flatMap_cons,
    splitAt_of_notMem hheader, List.singleton_append, List.map_cons, List.drop_succ_cons,
    List.drop_zero, List.map_flatMap, List.map_flatMap, List.flatMap_map, List.flatMap_def]
  rfl

theorem cellLines_eventsCell (hfind : c.findIRoot iroot.id = .ok iroot)
    (h : List.Forall₂ (c.ShowsAs r) iroot.events shown) (hne : iroot.events ≠ []) :
    cellLines (eventsCell c r iroot.id) = (shown.zipIdx.map fun x ↦ x.1.block x.2).flatten := by
  rw [cellLines, eventsCell_eq hfind h, joinLines, splitAt_intercalate]
  · intro part hpart
    obtain ⟨block, hblock, hpart⟩ := List.mem_flatten.mp hpart
    obtain ⟨x, -, rfl⟩ := List.mem_map.mp hblock
    exact ShownEvent.newline_notMem_of_mem_block hpart
  · obtain ⟨x, rest, rfl⟩ : ∃ x rest, shown = x :: rest :=
      List.exists_cons_of_length_pos (h.length_eq ▸ List.length_pos_iff.mpr hne)
    intro hnil
    have hlength := congrArg List.length hnil
    rw [List.zipIdx_cons, List.map_cons, List.flatten_cons, List.length_append,
      ShownEvent.length_block, List.length_nil] at hlength
    omega

/-- **In the table of iRoots, the cell of the events has one line for each event and one more for
each newline in a name that is shown with it.** So it has as many lines as events exactly if no such
name has a newline, and then each line is what is written of the event in its place. -/
theorem events_by_line {rs : Registry.Snapshot} {cs : Catalog.Snapshot} {registry : Registry}
    {catalog : Catalog} (hr : Registry.ofSnapshot rs = .ok registry)
    (hc : Catalog.ofSnapshot cs registry = .ok catalog) (h : iroot ∈ catalog.iroots.values) :
    ∃ shown, List.Forall₂ (catalog.ShowsAs registry) iroot.events shown ∧
      (cellLines (eventsCell catalog registry iroot.id)).length =
        iroot.events.length + (shown.flatMap ShownEvent.names).count '\n' ∧
      ('\n' ∉ shown.flatMap ShownEvent.names →
        cellLines (eventsCell catalog registry iroot.id) =
          shown.zipIdx.map fun x ↦ (x.1.label x.2).toList) := by
  have hcatalog := Catalog.resolved_ofSnapshot hc
  obtain ⟨id, hget⟩ := SortedMap.mem_values_iff.mp h
  obtain rfl := hcatalog.id id iroot hget
  have hfind : catalog.findIRoot iroot.id = .ok iroot := by rw [Catalog.findIRoot, hget]
  have hne : iroot.events ≠ [] := by
    rw [← List.length_pos_iff, hcatalog.arity iroot.id iroot hget]
    exact iroot.idiom.arity_pos
  obtain ⟨shown, hshown⟩ := hcatalog.exists_shown (Registry.resolved_ofSnapshot hr)
    (hcatalog.event iroot.id iroot hget)
  refine ⟨shown, hshown, ?_, fun hnames ↦ ?_⟩
  · rw [cellLines_eventsCell hfind hshown hne, Catalog.length_flatten_blocks hshown]
  · rw [cellLines_eventsCell hfind hshown hne, Catalog.flatten_blocks_of_names hshown hnames]

/-- Two events at an instruction with a source file. -/
theorem events_by_line_plain :
    let inst : Inst := ⟨⟨1⟩, ⟨1⟩, 16, some ⟨"src/main.c", 7⟩⟩
    let registry : Registry :=
      { images := .ofList [(⟨1⟩, ⟨⟨1⟩, "/bin/app-2.so"⟩)], insts := .ofList [(⟨1⟩, inst)] }
    let catalog : Catalog :=
      { events := .ofList [(⟨1⟩, ⟨⟨1⟩, ⟨1⟩, .memRead⟩), (⟨2⟩, ⟨⟨2⟩, ⟨1⟩, .memWrite⟩)]
        iroots := .ofList [(⟨5⟩, ⟨⟨5⟩, .idiom1, [⟨1⟩, ⟨2⟩]⟩)] }
    let text := "1     app        0x10     main.c +7"
    let shown : List ShownEvent :=
      [⟨⟨⟨1⟩, ⟨1⟩, .memRead⟩, inst, ⟨⟨1⟩, "/bin/app-2.so"⟩, text⟩,
        ⟨⟨⟨2⟩, ⟨1⟩, .memWrite⟩, inst, ⟨⟨1⟩, "/bin/app-2.so"⟩, text⟩]
    Registry.ofSnapshot registry.toSnapshot = .ok registry ∧
      Catalog.ofSnapshot catalog.toSnapshot registry = .ok catalog ∧
      List.Forall₂ (catalog.ShowsAs registry) [⟨1⟩, ⟨2⟩] shown ∧
      cellLines (eventsCell catalog registry ⟨5⟩) =
        shown.zipIdx.map fun x ↦ (x.1.label x.2).toList := by
  intro inst registry catalog text shown
  have hr : Registry.ofSnapshot registry.toSnapshot = .ok registry := by decide +kernel
  have hc : Catalog.ofSnapshot catalog.toSnapshot registry = .ok catalog := by decide +kernel
  have hshown : List.Forall₂ (catalog.ShowsAs registry) [⟨1⟩, ⟨2⟩] shown :=
    .cons ⟨by decide +kernel, by decide +kernel, by decide +kernel, by decide +kernel⟩ <|
      .cons ⟨by decide +kernel, by decide +kernel, by decide +kernel, by decide +kernel⟩ .nil
  have hiroot : (⟨⟨5⟩, .idiom1, [⟨1⟩, ⟨2⟩]⟩ : IRoot) ∈ catalog.iroots.values := by decide +kernel
  obtain ⟨shown', hshown', -, hlines⟩ := events_by_line hr hc hiroot
  obtain rfl := Catalog.ShowsAs.rightUnique.forall₂ hshown' hshown
  exact ⟨hr, hc, hshown, hlines (by decide +kernel)⟩

/-- The source file of the first event has a newline in its name, and two events have three
lines. -/
theorem events_by_line_broken :
    let registry : Registry :=
      { images := .ofList [(⟨1⟩, ⟨⟨1⟩, "/bin/app"⟩)]
        insts := .ofList [(⟨1⟩, ⟨⟨1⟩, ⟨1⟩, 16, some ⟨"a\nb.c", 7⟩⟩),
          (⟨2⟩, ⟨⟨2⟩, ⟨1⟩, 32, none⟩)] }
    let catalog : Catalog :=
      { events := .ofList [(⟨1⟩, ⟨⟨1⟩, ⟨1⟩, .memRead⟩), (⟨2⟩, ⟨⟨2⟩, ⟨2⟩, .memWrite⟩)]
        iroots := .ofList [(⟨5⟩, ⟨⟨5⟩, .idiom1, [⟨1⟩, ⟨2⟩]⟩)] }
    Registry.ofSnapshot registry.toSnapshot = .ok registry ∧
      Catalog.ofSnapshot catalog.toSnapshot registry = .ok catalog ∧
      ∃ iroot ∈ catalog.iroots.values, iroot.events.length = 2 ∧
        cellLines (eventsCell catalog registry iroot.id) =
          ["e0: READ    [1     app        0x10     a".toList, "b.c +7      ]".toList,
            "e1: WRITE   [2     app        0x20                   ]".toList] :=
  ⟨by decide +kernel, by decide +kernel, ⟨⟨5⟩, .idiom1, [⟨1⟩, ⟨2⟩]⟩, by decide +kernel, rfl,
    by decide +kernel⟩

end Table

end Interleave
