import Interleave.Catalog
import Interleave.Proofs.Memo.Acceptance

/-!
# Which registries and catalogs load

Registry and catalog are made of *tables*: maps in which every record stands under its own
identifier. A table is read from a list of records, of which the last one for each identifier stays,
and is written as the list of its records in ascending order. What was written is read as the same
table, since no identifier stands in it twice (`SortedMap.Keyed.ofList_values`).

A snapshot is refused for its first fault: in the registry an instruction in an image that is not
listed, in the catalog an event at an instruction that is not registered, and only if there is none,
an iRoot with the wrong number of events or with one that is not listed. A record may be checked and
then replaced, and the one that it is checked against may be replaced as well. This does no harm, as
nothing is asked of a referenced record but that its identifier is listed.
-/

namespace Interleave

section

variable {α β : Type} {l : List α} {f : α → Option β} {b : β}

theorem findSome?_eq_some_iff_firstIn :
    l.findSome? f = some b ↔ ∃ a, FirstIn l (f · ≠ none) a ∧ f a = some b := by
  rw [List.findSome?_eq_some_iff]
  constructor
  · rintro ⟨before, a, after, hl, ha, hbefore⟩
    have hne : f a ≠ none := ha ▸ Option.some_ne_none b
    exact ⟨a, ⟨before, after, hl, hne, fun x hx ↦ not_not.mpr (hbefore x hx)⟩, ha⟩
  · rintro ⟨a, ⟨before, after, hl, -, hbefore⟩, ha⟩
    exact ⟨before, a, after, hl, ha, fun x hx ↦ not_not.mp (hbefore x hx)⟩

end

/-! ## Checking before handing out -/

section

variable {ε α : Type} {fault? : Option ε} {e : ε} {a b : α}

theorem elim_eq_error_iff : (fault?.elim (.ok a) .error : Except ε α) = .error e ↔
    fault? = some e := by
  cases fault? <;> simp

theorem elim_eq_ok_iff : (fault?.elim (.ok a) .error : Except ε α) = .ok b ↔
    fault? = none ∧ a = b := by
  cases fault? <;> simp

end

/-! ## Tables -/

/-- Records whose identifiers ascend strictly along the list. -/
def Rises {k : Kind} {α : Type} (id : α → Id k) (l : List α) : Prop :=
  l.Pairwise fun a b ↦ (id a).val < (id b).val

namespace SortedMap

section

variable {κ α : Type} [Ord κ] {key : α → κ} {m : SortedMap κ α} {l : List α} {k : κ}

/-- Every record stands under its own key. -/
def Keyed (key : α → κ) (m : SortedMap κ α) : Prop := ∀ k v, m.get? k = some v → key v = k

/-- The map holds the last record that a list has for each key. -/
def HoldsLast (key : α → κ) (l : List α) (m : SortedMap κ α) : Prop :=
  ∀ k v, m.get? k = some v ↔ LastIn l (key · = k) v

variable [Std.TransOrd κ] [Std.LawfulEqOrd κ]

theorem holdsLast_ofList (key : α → κ) (l : List α) :
    (ofList (l.map fun v ↦ (key v, v))).HoldsLast key l := by
  intro k v
  have hlast : (ofList (l.map fun v ↦ (key v, v))).get? k = some v ↔
      ∃ v', LastIn l (key · = k) v' ∧ v' = v := get?_ofList_map_eq_some_iff
  exact hlast.trans exists_eq_right

theorem keyed_ofList (key : α → κ) (l : List α) : (ofList (l.map fun v ↦ (key v, v))).Keyed key :=
  fun _ _ h ↦ (mem_of_get?_ofList h).2

theorem contains_ofList_map_iff :
    (ofList (l.map fun v ↦ (key v, v))).contains k = true ↔ k ∈ l.map key := by
  rw [contains_ofList_iff, List.mem_map]
  constructor
  · rintro ⟨v, hv⟩
    obtain ⟨v', hv', heq⟩ := List.mem_map.mp hv
    exact ⟨v', hv', (Prod.mk.inj heq).1⟩
  · rintro ⟨v, hv, rfl⟩
    exact ⟨v, List.mem_map.mpr ⟨v, hv, rfl⟩⟩

theorem mem_of_mem_values_ofList {v : α} (h : v ∈ (ofList (l.map fun v ↦ (key v, v))).values) :
    v ∈ l := by
  obtain ⟨k, hk⟩ := mem_values_iff.mp h
  exact (mem_of_get?_ofList hk).1

omit [Std.TransOrd κ] in
/-- A table is known by its records. -/
theorem Keyed.entries_eq (h : m.Keyed key) : m.entries = m.values.map fun v ↦ (key v, v) := by
  have hkey : ∀ e ∈ m.entries, ((fun v ↦ (key v, v)) ∘ (·.2)) e = e := by
    rintro ⟨k, v⟩ he
    exact congrArg (·, v) (h k v (mem_entries_iff.mp he))
  rw [values, List.map_map, List.map_congr_left hkey]
  exact (List.map_id _).symm

theorem Keyed.ofList_values (h : m.Keyed key) : ofList (m.values.map fun v ↦ (key v, v)) = m := by
  rw [← h.entries_eq, ofList_entries]

omit [Std.TransOrd κ] in
theorem Keyed.keys_eq (h : m.Keyed key) : m.keys = m.values.map key := by
  rw [keys, h.entries_eq, List.map_map]
  rfl

end

theorem Keyed.rises_values {k : Kind} {α : Type} {id : α → Id k} {m : SortedMap (Id k) α}
    (h : m.Keyed id) : Rises id m.values := by
  have hkeys := m.keys_rise
  rw [h.keys_eq, List.pairwise_map] at hkeys
  exact hkeys

end SortedMap

/-! ## The registry -/

namespace Registry

variable {s : Snapshot} {r : Registry} {failure : Failure}

/-- The snapshot lists the image of the instruction. -/
def Snapshot.Places (s : Snapshot) (i : Inst) : Prop := i.image ∈ s.images.map (·.id)

/-- What is reported of a snapshot that does not load: the image of the first instruction whose
image is not listed. -/
inductive Snapshot.Fault (s : Snapshot) : Failure → Prop where
  | image {i : Inst} (hi : FirstIn s.insts (¬ s.Places ·) i) : Fault s (.unknownImage i.image)

/-- The registry of a snapshot, as it is read before anything is known to be in order. -/
def Snapshot.unchecked (s : Snapshot) : Registry where
  images := .ofList (s.images.map fun i ↦ (i.id, i))
  insts := .ofList (s.insts.map fun i ↦ (i.id, i))

/-- What is found when a snapshot is checked. -/
def Snapshot.fault? (s : Snapshot) : Option Failure :=
  (s.insts.find? fun i ↦ !s.unchecked.images.contains i.image).map fun i ↦ .unknownImage i.image

theorem ofSnapshot_eq (s : Snapshot) : ofSnapshot s = s.fault?.elim (.ok s.unchecked) .error := by
  have himages : SortedMap.ofList (s.images.map fun i ↦ (i.id, i)) = s.unchecked.images := rfl
  rw [ofSnapshot, Snapshot.fault?, himages]
  cases s.insts.find? fun i ↦ !s.unchecked.images.contains i.image <;> rfl

namespace Snapshot

theorem contains_image_iff {i : Inst} :
    s.unchecked.images.contains i.image = true ↔ s.Places i :=
  SortedMap.contains_ofList_map_iff

theorem fault?_eq_some_iff : s.fault? = some failure ↔ s.Fault failure := by
  simp only [fault?, Option.map_eq_some_iff, find?_eq_some_iff_firstIn, Bool.not_eq_true',
    ← Bool.not_eq_true, contains_image_iff]
  constructor
  · rintro ⟨i, hi, rfl⟩
    exact .image hi
  · rintro ⟨hi⟩
    exact ⟨_, hi, rfl⟩

theorem fault?_eq_none_iff : s.fault? = none ↔ ∀ i ∈ s.insts, s.Places i := by
  simp only [fault?, Option.map_eq_none_iff, find?_not_eq_none_iff, contains_image_iff]

theorem unchecked_toSnapshot (s : Snapshot) : s.unchecked.toSnapshot.unchecked = s.unchecked := by
  have himages := SortedMap.Keyed.ofList_values (SortedMap.keyed_ofList (·.id) s.images)
  have hinsts := SortedMap.Keyed.ofList_values (SortedMap.keyed_ofList (·.id) s.insts)
  rw [unchecked, toSnapshot, unchecked, himages, hinsts]

/-- What is written lists the same images as what was read. -/
theorem places_toSnapshot {i : Inst} : s.unchecked.toSnapshot.Places i ↔ s.Places i := by
  rw [← contains_image_iff, unchecked_toSnapshot, contains_image_iff]

end Snapshot

theorem ofSnapshot_eq_error_iff : ofSnapshot s = .error failure ↔ s.Fault failure := by
  rw [ofSnapshot_eq, elim_eq_error_iff, Snapshot.fault?_eq_some_iff]

theorem ofSnapshot_eq_ok_iff :
    ofSnapshot s = .ok r ↔ (∀ i ∈ s.insts, s.Places i) ∧ s.unchecked = r := by
  rw [ofSnapshot_eq, elim_eq_ok_iff, Snapshot.fault?_eq_none_iff]

/-- The registry has the last image and the last instruction that a snapshot lists for each
identifier, and is written in ascending order. -/
structure NormalizedFrom (s : Snapshot) (r : Registry) : Prop where
  images : r.images.HoldsLast (·.id) s.images
  insts : r.insts.HoldsLast (·.id) s.insts
  images_rise : Rises (·.id) r.toSnapshot.images
  insts_rise : Rises (·.id) r.toSnapshot.insts

theorem normalizedFrom_ofSnapshot (h : ofSnapshot s = .ok r) : NormalizedFrom s r := by
  obtain ⟨-, rfl⟩ := ofSnapshot_eq_ok_iff.mp h
  exact {
    images := SortedMap.holdsLast_ofList (·.id) s.images
    insts := SortedMap.holdsLast_ofList (·.id) s.insts
    images_rise := (SortedMap.keyed_ofList (·.id) s.images).rises_values
    insts_rise := (SortedMap.keyed_ofList (·.id) s.insts).rises_values }

theorem ofSnapshot_toSnapshot (h : ofSnapshot s = .ok r) : ofSnapshot r.toSnapshot = .ok r := by
  obtain ⟨hplaced, rfl⟩ := ofSnapshot_eq_ok_iff.mp h
  refine ofSnapshot_eq_ok_iff.mpr ⟨fun i hi ↦ ?_, s.unchecked_toSnapshot⟩
  exact Snapshot.places_toSnapshot.mpr (hplaced i (SortedMap.mem_of_mem_values_ofList hi))

end Registry

/-! ## The catalog -/

namespace Catalog

theorem fault?_eq_none_iff {events : SortedMap EventId Event} {iroot : IRoot} :
    fault? events iroot = none ↔ iroot.events.length = iroot.idiom.arity ∧
      ∀ e ∈ iroot.events, events.contains e = true := by
  rw [fault?]
  split
  · next h => exact iff_of_false nofun fun h' ↦ h h'.1
  · next h => simp [not_not.mp h]

variable {s : Snapshot} {registry : Registry} {c : Catalog} {failure : Failure} {i : IRoot}

namespace Snapshot

/-- The snapshot lists the event. -/
def Lists (s : Snapshot) (e : EventId) : Prop := e ∈ s.events.map (·.id)

/-- The iRoot has the wrong number of events, or one that is not listed. -/
def Faulty (s : Snapshot) (i : IRoot) : Prop :=
  i.events.length ≠ i.idiom.arity ∨ ∃ e ∈ i.events, ¬ s.Lists e

/-- Every event is at a registered instruction, and no iRoot is faulty. -/
def Sound (s : Snapshot) (registry : Registry) : Prop :=
  (∀ e ∈ s.events, registry.containsInst e.inst = true) ∧ ∀ i ∈ s.iroots, ¬ s.Faulty i

/-- What is reported of a faulty iRoot: the number of its events if it is wrong, and else the first
event that is not listed. -/
inductive FaultOf (s : Snapshot) (i : IRoot) : Failure → Prop where
  | arity (hne : i.events.length ≠ i.idiom.arity) :
    FaultOf s i (.arityMismatch i.id i.idiom i.events.length)
  | event {e : EventId} (harity : i.events.length = i.idiom.arity)
    (he : FirstIn i.events (¬ s.Lists ·) e) : FaultOf s i (.unknownEvent e)

/-- What is reported of a snapshot that does not load: the instruction of the first event whose
instruction is not registered, and if there is none, what is to be reported of the first faulty
iRoot. -/
inductive Fault (s : Snapshot) (registry : Registry) : Failure → Prop where
  | inst {e : Event} (he : FirstIn s.events (registry.containsInst ·.inst = false) e) :
    Fault s registry (.unknownInst e.inst)
  | iroot {i : IRoot} {failure : Failure}
    (hevents : ∀ e ∈ s.events, registry.containsInst e.inst = true)
    (hi : FirstIn s.iroots s.Faulty i) (hfault : s.FaultOf i failure) : Fault s registry failure

/-- The catalog of a snapshot, as it is read before anything is known to be in order. -/
def unchecked (s : Snapshot) : Catalog where
  events := .ofList (s.events.map fun e ↦ (e.id, e))
  iroots := .ofList (s.iroots.map fun i ↦ (i.id, i))

/-- What is found when a snapshot is checked. -/
def fault? (s : Snapshot) (registry : Registry) : Option Failure :=
  ((s.events.find? fun e ↦ !registry.containsInst e.inst).map fun e ↦ .unknownInst e.inst).or
    (s.iroots.findSome? (Catalog.fault? s.unchecked.events))

end Snapshot

theorem ofSnapshot_eq (s : Snapshot) (registry : Registry) :
    ofSnapshot s registry = (s.fault? registry).elim (.ok s.unchecked) .error := by
  have hevents : SortedMap.ofList (s.events.map fun e ↦ (e.id, e)) = s.unchecked.events := rfl
  rw [ofSnapshot, Snapshot.fault?]
  cases s.events.find? fun e ↦ !registry.containsInst e.inst with
  | some e => rfl
  | none =>
    dsimp only
    rw [hevents]
    cases s.iroots.findSome? (fault? s.unchecked.events) <;> rfl

namespace Snapshot

theorem contains_event_iff {e : EventId} : s.unchecked.events.contains e = true ↔ s.Lists e :=
  SortedMap.contains_ofList_map_iff

theorem faultOf_iff : Catalog.fault? s.unchecked.events i = some failure ↔ s.FaultOf i failure := by
  rw [Catalog.fault?]
  split
  · next hne =>
    constructor
    · rintro ⟨⟩
      exact .arity hne
    · rintro (_ | ⟨harity, -⟩)
      · rfl
      · exact absurd harity hne
  · next harity =>
    simp only [Option.map_eq_some_iff, find?_eq_some_iff_firstIn, Bool.not_eq_true',
      ← Bool.not_eq_true, contains_event_iff]
    constructor
    · rintro ⟨e, he, rfl⟩
      exact .event (not_not.mp harity) he
    · rintro (hne | ⟨-, he⟩)
      · exact absurd hne harity
      · exact ⟨_, he, rfl⟩

theorem faulty_iff : Catalog.fault? s.unchecked.events i ≠ none ↔ s.Faulty i := by
  rw [ne_eq, Catalog.fault?_eq_none_iff, not_and_or, Faulty]
  simp only [contains_event_iff, not_forall, exists_prop]

theorem fault?_eq_some_iff : s.fault? registry = some failure ↔ s.Fault registry failure := by
  simp only [fault?, Option.or_eq_some_iff, Option.map_eq_some_iff, Option.map_eq_none_iff,
    find?_eq_some_iff_firstIn, findSome?_eq_some_iff_firstIn, find?_not_eq_none_iff, faulty_iff,
    faultOf_iff, Bool.not_eq_true']
  constructor
  · rintro (⟨e, he, rfl⟩ | ⟨hevents, i, hi, hfault⟩)
    · exact .inst he
    · exact .iroot hevents hi hfault
  · rintro (he | ⟨hevents, hi, hfault⟩)
    · exact .inl ⟨_, he, rfl⟩
    · exact .inr ⟨hevents, _, hi, hfault⟩

theorem fault?_eq_none_iff : s.fault? registry = none ↔ s.Sound registry := by
  simp only [fault?, Sound, Option.or_eq_none_iff, Option.map_eq_none_iff, find?_not_eq_none_iff,
    List.findSome?_eq_none_iff, ← faulty_iff, not_not]

theorem unchecked_toSnapshot (s : Snapshot) : s.unchecked.toSnapshot.unchecked = s.unchecked := by
  have hevents := SortedMap.Keyed.ofList_values (SortedMap.keyed_ofList (·.id) s.events)
  have hiroots := SortedMap.Keyed.ofList_values (SortedMap.keyed_ofList (·.id) s.iroots)
  rw [unchecked, toSnapshot, unchecked, hevents, hiroots]

/-- What is written finds fault with the same iRoots as what was read. -/
theorem faulty_toSnapshot : s.unchecked.toSnapshot.Faulty i ↔ s.Faulty i := by
  rw [← faulty_iff, unchecked_toSnapshot, faulty_iff]

end Snapshot

theorem ofSnapshot_eq_error_iff :
    ofSnapshot s registry = .error failure ↔ s.Fault registry failure := by
  rw [ofSnapshot_eq, elim_eq_error_iff, Snapshot.fault?_eq_some_iff]

theorem ofSnapshot_eq_ok_iff :
    ofSnapshot s registry = .ok c ↔ s.Sound registry ∧ s.unchecked = c := by
  rw [ofSnapshot_eq, elim_eq_ok_iff, Snapshot.fault?_eq_none_iff]

/-- The catalog has the last event and the last iRoot that a snapshot lists for each identifier, and
is written in ascending order. -/
structure NormalizedFrom (s : Snapshot) (c : Catalog) : Prop where
  events : c.events.HoldsLast (·.id) s.events
  iroots : c.iroots.HoldsLast (·.id) s.iroots
  events_rise : Rises (·.id) c.toSnapshot.events
  iroots_rise : Rises (·.id) c.toSnapshot.iroots

theorem normalizedFrom_ofSnapshot (h : ofSnapshot s registry = .ok c) : NormalizedFrom s c := by
  obtain ⟨-, rfl⟩ := ofSnapshot_eq_ok_iff.mp h
  exact {
    events := SortedMap.holdsLast_ofList (·.id) s.events
    iroots := SortedMap.holdsLast_ofList (·.id) s.iroots
    events_rise := (SortedMap.keyed_ofList (·.id) s.events).rises_values
    iroots_rise := (SortedMap.keyed_ofList (·.id) s.iroots).rises_values }

theorem ofSnapshot_toSnapshot (h : ofSnapshot s registry = .ok c) :
    ofSnapshot c.toSnapshot registry = .ok c := by
  obtain ⟨⟨hevents, hiroots⟩, rfl⟩ := ofSnapshot_eq_ok_iff.mp h
  refine ofSnapshot_eq_ok_iff.mpr ⟨⟨fun e he ↦ ?_, fun i hi ↦ ?_⟩, s.unchecked_toSnapshot⟩
  · exact hevents e (SortedMap.mem_of_mem_values_ofList he)
  · exact mt Snapshot.faulty_toSnapshot.mp (hiroots i (SortedMap.mem_of_mem_values_ofList hi))

end Catalog

/-- **Registry and catalog accept the consistent snapshots, and report the first fault of any
other.** Whatever is listed twice in a snapshot that they accept, they hold the last record for each
identifier and are written in ascending order; and what they write is accepted over the same
registry and read as what it was. -/
theorem consistent_snapshots_load (registrySnapshot : Registry.Snapshot)
    (catalogSnapshot : Catalog.Snapshot) (registry : Registry) :
    ((∀ failure, Registry.ofSnapshot registrySnapshot = .error failure ↔
          registrySnapshot.Fault failure) ∧
        ((∃ r, Registry.ofSnapshot registrySnapshot = .ok r) ↔
          ∀ i ∈ registrySnapshot.insts, registrySnapshot.Places i) ∧
        ∀ r, Registry.ofSnapshot registrySnapshot = .ok r →
          Registry.NormalizedFrom registrySnapshot r ∧ Registry.ofSnapshot r.toSnapshot = .ok r) ∧
      (∀ failure, Catalog.ofSnapshot catalogSnapshot registry = .error failure ↔
          catalogSnapshot.Fault registry failure) ∧
        ((∃ c, Catalog.ofSnapshot catalogSnapshot registry = .ok c) ↔
          catalogSnapshot.Sound registry) ∧
        (∀ c, Catalog.ofSnapshot catalogSnapshot registry = .ok c →
          Catalog.NormalizedFrom catalogSnapshot c ∧
            Catalog.ofSnapshot c.toSnapshot registry = .ok c) ∧
        ∀ i : IRoot, (Failure.arityMismatch i.id i.idiom i.events.length).message =
          "iRoot " ++ i.id.text ++ " has " ++ toString i.events.length ++ " events but " ++
            i.idiom.text ++ " requires " ++ toString i.idiom.arity := by
  refine ⟨⟨fun failure ↦ Registry.ofSnapshot_eq_error_iff, ?_, fun r hr ↦
    ⟨Registry.normalizedFrom_ofSnapshot hr, Registry.ofSnapshot_toSnapshot hr⟩⟩,
    fun failure ↦ Catalog.ofSnapshot_eq_error_iff, ?_, fun c hc ↦
    ⟨Catalog.normalizedFrom_ofSnapshot hc, Catalog.ofSnapshot_toSnapshot hc⟩, fun i ↦ rfl⟩
  · simp only [Registry.ofSnapshot_eq_ok_iff, exists_and_left, exists_eq', and_true]
  · simp only [Catalog.ofSnapshot_eq_ok_iff, exists_and_left, exists_eq', and_true]

/-- A record is checked although a later one replaces it, and its number of events before them. -/
example :
    Catalog.ofSnapshot
      { events := [⟨⟨1⟩, ⟨1⟩, .memRead⟩]
        iroots := [⟨⟨5⟩, .idiom1, [⟨9⟩]⟩, ⟨⟨5⟩, .idiom1, [⟨1⟩, ⟨1⟩]⟩] }
      { insts := .ofList [(⟨1⟩, ⟨⟨1⟩, ⟨1⟩, 8, none⟩)] } =
        .error (.arityMismatch ⟨5⟩ .idiom1 1) := by
  decide +kernel

end Interleave
