import Interleave.Command.Invocation
import Interleave.Proofs.Databases.Acceptance

/-!
# References between the databases

Five databases refer to one another: instructions to images, events to instructions, iRoots to
events, and races, memos and histories to instructions and iRoots. Each of them is checked when it
is loaded, entry by entry, against those that are there already. Entries with one identifier replace
each other, but an entry that stays has been checked like all others, and what it was checked
against is what is there at the end (`SortedMap.mem_of_get?_ofList`). So in databases that were
loaded against each other every reference leads somewhere, and whatever is looked up to show them is
found (`references_resolved`).
-/

namespace Interleave

section

variable {ε α β : Type} {f : α → Except ε β} {l : List α}

/-- A list of loads succeeds if each of them does. -/
theorem exists_mapM_eq_ok (h : ∀ a ∈ l, ∃ b, f a = .ok b) : ∃ bs, l.mapM f = .ok bs := by
  induction l with
  | nil => exact ⟨[], rfl⟩
  | cons a l ih =>
    obtain ⟨b, hb⟩ := h a List.mem_cons_self
    obtain ⟨bs, hbs⟩ := ih fun a ha ↦ h a (List.mem_cons_of_mem _ ha)
    rw [List.mapM_cons]
    exact ⟨b :: bs, bind_eq_ok.mpr ⟨b, hb, bind_eq_ok.mpr ⟨bs, hbs, rfl⟩⟩⟩

theorem exists_of_mem_mapM {b : β} {bs : List β} (h : l.mapM f = .ok bs) (hb : b ∈ bs) :
    ∃ a ∈ l, f a = .ok b := by
  induction l generalizing bs with
  | nil =>
    obtain rfl := Except.ok.inj h
    exact absurd hb List.not_mem_nil
  | cons a l ih =>
    rw [List.mapM_cons] at h
    obtain ⟨first, hfirst, h⟩ := bind_eq_ok.mp h
    obtain ⟨rest, hrest, ⟨⟩⟩ := bind_eq_ok.mp h
    rcases List.mem_cons.mp hb with rfl | hb
    · exact ⟨a, List.mem_cons_self, hfirst⟩
    · obtain ⟨a', ha', hload⟩ := ih hrest hb
      exact ⟨a', List.mem_cons_of_mem _ ha', hload⟩

end

/-! ## The registry -/

namespace Registry

/-- Every registered instruction lies in a registered image. -/
def Resolved (r : Registry) : Prop :=
  ∀ id inst, r.insts.get? id = some inst → ∃ image, r.findImage inst.image = .ok image

variable {r : Registry}

theorem resolved_ofSnapshot {s : Snapshot} (h : ofSnapshot s = .ok r) : r.Resolved := by
  obtain ⟨hplaced, rfl⟩ := ofSnapshot_eq_ok_iff.mp h
  intro id inst hinst
  have hplace := hplaced inst (SortedMap.mem_of_get?_ofList hinst).1
  obtain ⟨image, himage⟩ := Option.isSome_iff_exists.mp (Snapshot.contains_image_iff.mpr hplace)
  exact ⟨image, by rw [findImage, himage]⟩

theorem findInst_of_containsInst {id : InstId} (h : r.containsInst id = true) :
    ∃ inst, r.findInst id = .ok inst ∧ r.insts.get? id = some inst := by
  obtain ⟨inst, hinst⟩ := Option.isSome_iff_exists.mp h
  exact ⟨inst, by rw [findInst, hinst], hinst⟩

theorem Resolved.exists_describeInst (h : r.Resolved) {id : InstId}
    (hid : r.containsInst id = true) : ∃ text, r.describeInst id = .ok text := by
  obtain ⟨inst, hfind, hinst⟩ := findInst_of_containsInst hid
  obtain ⟨image, himage⟩ := h id inst hinst
  exact ⟨_, bind_eq_ok.mpr ⟨inst, hfind, bind_eq_ok.mpr ⟨image, himage, rfl⟩⟩⟩

end Registry

/-! ## The catalog -/

namespace Catalog

/-- Every event stands at a registered instruction; every iRoot is found under its own identifier,
and has as many events as its idiom requires, all of them known. -/
structure Resolved (c : Catalog) (r : Registry) : Prop where
  inst : ∀ id event, c.events.get? id = some event → r.containsInst event.inst = true
  id : ∀ id iroot, c.iroots.get? id = some iroot → iroot.id = id
  arity : ∀ id iroot, c.iroots.get? id = some iroot → iroot.events.length = iroot.idiom.arity
  event : ∀ id iroot, c.iroots.get? id = some iroot →
    ∀ e ∈ iroot.events, c.events.contains e = true

variable {c : Catalog} {r : Registry}

theorem resolved_ofSnapshot {s : Snapshot} (h : ofSnapshot s r = .ok c) : c.Resolved r := by
  obtain ⟨⟨hevents, hiroots⟩, rfl⟩ := ofSnapshot_eq_ok_iff.mp h
  have hsound (id : IRootId) (iroot : IRoot) (hiroot : s.unchecked.iroots.get? id = some iroot) :
      fault? s.unchecked.events iroot = none :=
    not_not.mp (mt Snapshot.faulty_iff.mp (hiroots iroot (SortedMap.mem_of_get?_ofList hiroot).1))
  exact {
    inst := fun id event hevent ↦ hevents event (SortedMap.mem_of_get?_ofList hevent).1
    id := fun id iroot hiroot ↦ (SortedMap.mem_of_get?_ofList hiroot).2
    arity := fun id iroot hiroot ↦ (fault?_eq_none_iff.mp (hsound id iroot hiroot)).1
    event := fun id iroot hiroot ↦ (fault?_eq_none_iff.mp (hsound id iroot hiroot)).2 }

theorem findIRoot_of_contains {id : IRootId} (h : c.contains id = true) :
    ∃ iroot, c.findIRoot id = .ok iroot ∧ c.iroots.get? id = some iroot := by
  obtain ⟨iroot, hiroot⟩ := Option.isSome_iff_exists.mp h
  exact ⟨iroot, by rw [findIRoot, hiroot], hiroot⟩

namespace Resolved

theorem exists_describeEvent (h : c.Resolved r) (hr : r.Resolved) {id : EventId}
    (hid : c.events.contains id = true) (position : ℕ) :
    ∃ text, c.describeEvent r position id = .ok text := by
  obtain ⟨event, hevent⟩ := Option.isSome_iff_exists.mp hid
  have hfind : c.findEvent id = .ok event := by rw [findEvent, hevent]
  obtain ⟨inst, hinst⟩ := hr.exists_describeInst (h.inst id event hevent)
  exact ⟨_, bind_eq_ok.mpr ⟨event, hfind, bind_eq_ok.mpr ⟨inst, hinst, rfl⟩⟩⟩

theorem exists_describeIRoot (h : c.Resolved r) (hr : r.Resolved) {id : IRootId}
    (hid : c.contains id = true) : ∃ text, c.describeIRoot r id = .ok text := by
  obtain ⟨iroot, hfind, hiroot⟩ := findIRoot_of_contains hid
  obtain ⟨lines, hlines⟩ : ∃ lines,
      (iroot.events.zipIdx.mapM fun e ↦ c.describeEvent r e.2 e.1) = .ok lines := by
    refine exists_mapM_eq_ok fun e he ↦ ?_
    have hmem : e.1 ∈ iroot.events := List.fst_mem_of_mem_zipIdx he
    exact h.exists_describeEvent hr (h.event id iroot hiroot e.1 hmem) e.2
  exact ⟨_, bind_eq_ok.mpr ⟨iroot, hfind, bind_eq_ok.mpr ⟨lines, hlines, rfl⟩⟩⟩

end Resolved

theorem isSome_idiomOf? (c : Catalog) (id : IRootId) : (c.idiomOf? id).isSome = c.contains id :=
  Option.isSome_map

end Catalog

/-! ## What refers to them -/

theorem RaceDb.containsInst_of_ofSnapshot {s : Snapshot} {r : Registry} {db : RaceDb}
    (h : ofSnapshot s r = .ok db) {id : InstId} (hid : db.racyInsts.contains id = true) :
    r.containsInst id = true := by
  rw [ofSnapshot] at h
  split at h
  · exact nomatch h
  · next hfind =>
    obtain rfl := Except.ok.inj h
    exact find?_not_eq_none_iff.mp hfind id (SortedSet.contains_ofList_iff.mp hid)

/-- The iRoots that a memo names anywhere. -/
def Memo.Names (m : Memo) (id : IRootId) : Prop :=
  (m.info? id).isSome = true ∨ ∃ c, (m.members c).contains id = true

theorem Memo.WellFormed.exists_idiomOf? {c : Catalog} {m : Memo} (h : m.WellFormed)
    (hover : m.Over c) {id : IRootId} (hid : m.Names id) :
    ∃ idiom, c.idiomOf? id = some idiom := by
  -- whatever has a class has evidence, and evidence is about catalogued iRoots
  have hinfo : (m.info? id).isSome = true := by
    rcases hid with hinfo | ⟨cls, hcls⟩
    · exact hinfo
    · exact h.hasInfo cls id hcls
  rw [← Option.isSome_iff_exists, Catalog.isSome_idiomOf?]
  exact hover id hinfo

theorem Memo.exists_idiomOf? {s : Snapshot} {c : Catalog} {m : Memo} (h : ofSnapshot s c = .ok m)
    {id : IRootId} (hid : m.Names id) : ∃ idiom, c.idiomOf? id = some idiom :=
  (wellFormed_ofSnapshot h).exists_idiomOf? (over_ofSnapshot h) hid

theorem History.idiomOf?_of_ofSnapshot {s : Snapshot} {c : Catalog} {history : History}
    (h : ofSnapshot s c = .ok history) {e : HistoryEntry} {idiom : Idiom}
    (he : (e, idiom) ∈ history.entries) : c.idiomOf? e.iroot = some idiom := by
  rw [ofSnapshot] at h
  cases hload : s.entries.mapM (resolve c) with
  | error failure =>
    rw [hload] at h
    exact nomatch h
  | ok entries =>
    rw [hload] at h
    obtain rfl := Except.ok.inj h
    obtain ⟨e', -, hresolve⟩ := exists_of_mem_mapM hload he
    rw [resolve] at hresolve
    split at hresolve
    · next hidiom =>
      obtain ⟨rfl, rfl⟩ := Prod.mk.inj (Except.ok.inj hresolve)
      exact hidiom
    · exact nomatch hresolve

/-! ## What is shown

Where something cannot be looked up, the tables have a number or nothing in its place, and the list
of exposed iRoots leaves it out. This does not happen to databases that were loaded. -/

theorem Registry.Resolved.instRow {r : Registry} (h : r.Resolved) {inst : Inst}
    (hinst : inst ∈ r.insts.values) : ∃ image, r.findImage inst.image = .ok image ∧
      (Table.instRow r inst)[1]? = some image.shortName := by
  obtain ⟨id, hid⟩ := SortedMap.mem_values_iff.mp hinst
  obtain ⟨image, himage⟩ := h id inst hid
  refine ⟨image, himage, ?_⟩
  rw [Table.instRow, himage]
  rfl

theorem Catalog.Resolved.eventsCell {c : Catalog} {r : Registry} (h : c.Resolved r)
    (hr : r.Resolved) {iroot : IRoot} (hiroot : iroot ∈ c.iroots.values) :
    ∃ text, c.describeIRoot r iroot.id = .ok text ∧ Table.eventsCell c r iroot.id =
      .ofList (joinLines (((linesOf text.toList).drop 1).map trimChars)) := by
  obtain ⟨id, hid⟩ := SortedMap.mem_values_iff.mp hiroot
  have hcontains : c.contains id = true := Option.isSome_of_eq_some hid
  obtain ⟨text, htext⟩ := h.exists_describeIRoot hr hcontains
  obtain rfl := h.id id iroot hid
  exact ⟨text, htext, by rw [Table.eventsCell, htext]⟩

theorem View.map_fst_exposed {c : Catalog} {m : Memo}
    (h : ∀ id, m.exposed.contains id = true → ∃ idiom, c.idiomOf? id = some idiom) :
    (exposed c m).map (·.1) = m.exposed.keys := by
  rw [exposed, List.map_filterMap]
  have hkept : ∀ id ∈ m.exposed.keys,
      ((c.idiomOf? id).map fun idiom ↦ (id, idiom)).map (·.1) = some id := by
    intro id hid
    obtain ⟨idiom, hidiom⟩ := h id (SortedMap.mem_keys_iff.mp hid)
    rw [hidiom]
    rfl
  rw [List.filterMap_congr hkept, List.filterMap_some]

/-- **References between the databases.** In databases that were loaded against each other, every
registered instruction has its image and can be described; every catalogued iRoot has as many events
as its idiom requires and can be described; every racy instruction is registered; and every iRoot
that the memo or the history names has an idiom, which is the one that the history has for it. So
tables and lists show everything as it is. -/
theorem references_resolved {registrySnapshot : Registry.Snapshot} {registry : Registry}
    {catalogSnapshot : Catalog.Snapshot} {catalog : Catalog} {raceSnapshot : RaceDb.Snapshot}
    {races : RaceDb} {memoSnapshot : Memo.Snapshot} {memo : Memo}
    {historySnapshot : History.Snapshot} {history : History}
    (hregistry : Registry.ofSnapshot registrySnapshot = .ok registry)
    (hcatalog : Catalog.ofSnapshot catalogSnapshot registry = .ok catalog)
    (hraces : RaceDb.ofSnapshot raceSnapshot registry = .ok races)
    (hmemo : Memo.ofSnapshot memoSnapshot catalog = .ok memo)
    (hhistory : History.ofSnapshot historySnapshot catalog = .ok history) :
    (∀ id, registry.containsInst id = true → ∃ inst image text, registry.findInst id = .ok inst ∧
        registry.findImage inst.image = .ok image ∧ registry.describeInst id = .ok text) ∧
      (∀ id, catalog.contains id = true → ∃ iroot text, catalog.findIRoot id = .ok iroot ∧
        iroot.events.length = iroot.idiom.arity ∧ catalog.describeIRoot registry id = .ok text) ∧
      (∀ id, races.racyInsts.contains id = true → registry.containsInst id = true) ∧
      (∀ id, memo.Names id → ∃ idiom, catalog.idiomOf? id = some idiom) ∧
      (∀ e idiom, (e, idiom) ∈ history.entries → catalog.idiomOf? e.iroot = some idiom) ∧
      (∀ inst ∈ registry.insts.values, ∃ image, registry.findImage inst.image = .ok image ∧
        (Table.instRow registry inst)[1]? = some image.shortName) ∧
      (∀ iroot ∈ catalog.iroots.values, ∃ text,
        catalog.describeIRoot registry iroot.id = .ok text ∧
          Table.eventsCell catalog registry iroot.id =
            .ofList (joinLines (((linesOf text.toList).drop 1).map trimChars))) ∧
      (View.exposed catalog memo).map (·.1) = memo.exposed.keys := by
  have hr := Registry.resolved_ofSnapshot hregistry
  have hc := Catalog.resolved_ofSnapshot hcatalog
  refine ⟨fun id hid ↦ ?_, fun id hid ↦ ?_,
    fun id hid ↦ RaceDb.containsInst_of_ofSnapshot hraces hid,
    fun id hid ↦ Memo.exists_idiomOf? hmemo hid,
    fun e idiom he ↦ History.idiomOf?_of_ofSnapshot hhistory he,
    fun inst hinst ↦ hr.instRow hinst, fun iroot hiroot ↦ hc.eventsCell hr hiroot,
    View.map_fst_exposed fun id hid ↦ Memo.exists_idiomOf? hmemo (.inr ⟨.exposed, hid⟩)⟩
  · obtain ⟨inst, hfind, hinst⟩ := Registry.findInst_of_containsInst hid
    obtain ⟨image, himage⟩ := hr id inst hinst
    obtain ⟨text, htext⟩ := hr.exists_describeInst hid
    exact ⟨inst, image, text, hfind, himage, htext⟩
  · obtain ⟨iroot, hfind, hiroot⟩ := Catalog.findIRoot_of_contains hid
    obtain ⟨text, htext⟩ := hc.exists_describeIRoot hr hid
    exact ⟨iroot, text, hfind, hc.arity id iroot hiroot, htext⟩

/-- Everything is listed twice: the instruction in another image, the event at another instruction,
the iRoot with another idiom and other events. -/
theorem references_resolved_twice :
    let registrySnapshot : Registry.Snapshot :=
      { images := [⟨⟨1⟩, "/bin/old"⟩, ⟨⟨2⟩, "/lib/libc.so"⟩, ⟨⟨1⟩, "/bin/app"⟩]
        insts := [⟨⟨1⟩, ⟨1⟩, 8, none⟩, ⟨⟨2⟩, ⟨1⟩, 32, some ⟨"a.c", 7⟩⟩, ⟨⟨1⟩, ⟨2⟩, 16, none⟩] }
    let registry : Registry :=
      { images := .ofList [(⟨1⟩, ⟨⟨1⟩, "/bin/app"⟩), (⟨2⟩, ⟨⟨2⟩, "/lib/libc.so"⟩)]
        insts := .ofList [(⟨1⟩, ⟨⟨1⟩, ⟨2⟩, 16, none⟩), (⟨2⟩, ⟨⟨2⟩, ⟨1⟩, 32, some ⟨"a.c", 7⟩⟩)] }
    let catalogSnapshot : Catalog.Snapshot :=
      { events := [⟨⟨1⟩, ⟨1⟩, .memRead⟩, ⟨⟨1⟩, ⟨2⟩, .memWrite⟩]
        iroots := [⟨⟨5⟩, .idiom1, [⟨1⟩, ⟨1⟩]⟩, ⟨⟨5⟩, .idiom2, [⟨1⟩, ⟨1⟩, ⟨1⟩]⟩] }
    let catalog : Catalog :=
      { events := .ofList [(⟨1⟩, ⟨⟨1⟩, ⟨2⟩, .memWrite⟩)]
        iroots := .ofList [(⟨5⟩, ⟨⟨5⟩, .idiom2, [⟨1⟩, ⟨1⟩, ⟨1⟩]⟩)] }
    let memoSnapshot : Memo.Snapshot :=
      { info := [⟨⟨5⟩, 3, none⟩, ⟨⟨5⟩, 0, none⟩], exposed := [⟨5⟩, ⟨5⟩], failed := [⟨5⟩] }
    let memo : Memo :=
      { info := .ofList [(⟨5⟩, { iroot := ⟨5⟩ })], exposed := SortedSet.ofList [⟨5⟩] }
    Registry.ofSnapshot registrySnapshot = .ok registry ∧
      Catalog.ofSnapshot catalogSnapshot registry = .ok catalog ∧
      Memo.ofSnapshot memoSnapshot catalog = .ok memo ∧
      (∃ text, catalog.describeIRoot registry ⟨5⟩ = .ok text) ∧
      (∃ idiom, catalog.idiomOf? ⟨5⟩ = some idiom) ∧ registry.containsInst ⟨1⟩ = true ∧
      (View.exposed catalog memo).map (·.1) = [⟨5⟩] := by
  intro registrySnapshot registry catalogSnapshot catalog memoSnapshot memo
  have hregistry : Registry.ofSnapshot registrySnapshot = .ok registry := by decide +kernel
  have hcatalog : Catalog.ofSnapshot catalogSnapshot registry = .ok catalog := by decide +kernel
  have hmemo : Memo.ofSnapshot memoSnapshot catalog = .ok memo := by decide +kernel
  have hraces : RaceDb.ofSnapshot { racyInsts := [⟨1⟩, ⟨1⟩] } registry =
      .ok { racyInsts := SortedSet.ofList [⟨1⟩] } := by decide +kernel
  have hhistory : History.ofSnapshot { entries := [⟨⟨5⟩, 9, none⟩] } catalog =
      .ok ⟨[(⟨⟨5⟩, 9, none⟩, .idiom2)]⟩ := by decide +kernel
  obtain ⟨-, hdescribed, hracy, hnamed, -, -, -, hexposed⟩ :=
    references_resolved hregistry hcatalog hraces hmemo hhistory
  obtain ⟨_, text, -, -, htext⟩ := hdescribed ⟨5⟩ (by decide +kernel)
  exact ⟨hregistry, hcatalog, hmemo, ⟨text, htext⟩, hnamed ⟨5⟩ (.inl (by decide +kernel)),
    hracy ⟨1⟩ (by decide +kernel), hexposed⟩

end Interleave
