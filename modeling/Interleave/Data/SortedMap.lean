/-!
# Finite maps kept in ascending order

Every database of the library is a finite map by identifier, and everything it prints or saves
comes out in identifier order. So the map is its own printed form: a list of entries whose keys
ascend strictly. Two maps with the same entries are the same value, which is what lets equality
of databases be plain equality.

All single-key changes go through one operation, `alter`, which replaces what stands at a key (or
the fact that nothing does). Inserting, erasing and updating are `alter` with a particular
replacement, so the order of the list has to be kept only once.

A set of identifiers is a map to `Unit`.
-/

namespace Interleave

universe u v w

/-- Keys compare strictly upwards along the list. -/
def Ascending {κ : Type u} {α : Type v} [Ord κ] (l : List (κ × α)) : Prop :=
  l.Pairwise fun a b ↦ compare a.1 b.1 = .lt

/-- A finite map, held as its entries in ascending order of key. -/
structure SortedMap (κ : Type u) (α : Type v) [Ord κ] where
  entries : List (κ × α)
  ascending : Ascending entries

namespace SortedMap

variable {κ : Type u} {α : Type v} {β : Type w} [Ord κ]

theorem ext_entries {a b : SortedMap κ α} (h : a.entries = b.entries) : a = b := by
  cases a; cases b; cases h; rfl

instance [DecidableEq κ] [DecidableEq α] : DecidableEq (SortedMap κ α) := fun a b ↦
  if h : a.entries = b.entries then .isTrue (ext_entries h)
  else .isFalse fun hab ↦ h (hab ▸ rfl)

def empty : SortedMap κ α := ⟨[], .nil⟩

instance : EmptyCollection (SortedMap κ α) := ⟨empty⟩

instance : Inhabited (SortedMap κ α) := ⟨empty⟩

/-! ## Looking up -/

/-- The value at `k` in a list of entries: the first one stored under an equal key. -/
def lookup (k : κ) : List (κ × α) → Option α
  | [] => none
  | (k', v) :: rest => if compare k k' = .eq then some v else lookup k rest

def get? (m : SortedMap κ α) (k : κ) : Option α := lookup k m.entries

def contains (m : SortedMap κ α) (k : κ) : Bool := (m.get? k).isSome

def size (m : SortedMap κ α) : Nat := m.entries.length

def isEmpty (m : SortedMap κ α) : Bool := m.entries.isEmpty

def keys (m : SortedMap κ α) : List κ := m.entries.map (·.1)

def values (m : SortedMap κ α) : List α := m.entries.map (·.2)

/-! ## Changing one key -/

/-- Replaces what a list of ascending entries holds at `k` by what `f` makes of it. -/
def alterEntries (k : κ) (f : Option α → Option α) : List (κ × α) → List (κ × α)
  | [] =>
    match f none with
    | none => []
    | some v => [(k, v)]
  | (k', v') :: rest =>
    match compare k k' with
    | .lt =>
      match f none with
      | none => (k', v') :: rest
      | some v => (k, v) :: (k', v') :: rest
    | .eq =>
      match f (some v') with
      | none => rest
      | some v => (k, v) :: rest
    | .gt => (k', v') :: alterEntries k f rest

theorem mem_alterEntries {k : κ} {f : Option α → Option α} {l : List (κ × α)} {e : κ × α}
    (h : e ∈ alterEntries k f l) : e.1 = k ∨ e ∈ l := by
  induction l with
  | nil =>
    simp only [alterEntries] at h
    split at h
    · simp at h
    · exact .inl (by simp_all)
  | cons e' rest ih =>
    obtain ⟨k', v'⟩ := e'
    simp only [alterEntries] at h
    split at h
    · split at h
      · exact .inr h
      · rcases List.mem_cons.mp h with h | h
        · exact .inl (by simp [h])
        · exact .inr h
    · split at h
      · exact .inr (List.mem_cons_of_mem _ h)
      · rcases List.mem_cons.mp h with h | h
        · exact .inl (by simp [h])
        · exact .inr (List.mem_cons_of_mem _ h)
    · rcases List.mem_cons.mp h with h | h
      · exact .inr (by simp [h])
      · exact (ih h).imp id (List.mem_cons_of_mem _)

theorem ascending_alterEntries [Std.TransOrd κ] [Std.LawfulEqOrd κ] (k : κ)
    (f : Option α → Option α) {l : List (κ × α)} (h : Ascending l) :
    Ascending (alterEntries k f l) := by
  induction l with
  | nil =>
    simp only [alterEntries]
    split
    · exact .nil
    · exact List.pairwise_singleton _ _
  | cons e' rest ih =>
    obtain ⟨k', v'⟩ := e'
    obtain ⟨hhead, hrest⟩ := List.pairwise_cons.mp h
    simp only [alterEntries]
    split
    · next hlt =>
      split
      · exact h
      · refine List.pairwise_cons.mpr ⟨fun e he ↦ ?_, h⟩
        rcases List.mem_cons.mp he with rfl | he
        · exact hlt
        · exact Std.TransCmp.lt_trans hlt (hhead e he)
    · next heq =>
      obtain rfl := Std.LawfulEqCmp.eq_of_compare heq
      split
      · exact hrest
      · exact List.pairwise_cons.mpr ⟨hhead, hrest⟩
    · next hgt =>
      refine List.pairwise_cons.mpr ⟨fun e he ↦ ?_, ih hrest⟩
      rcases mem_alterEntries he with he | he
      · exact he ▸ Std.OrientedCmp.gt_iff_lt.mp hgt
      · exact hhead e he

variable [Std.TransOrd κ] [Std.LawfulEqOrd κ]

/-- Replaces what stands at `k`; `none` means that nothing does. -/
def alter (m : SortedMap κ α) (k : κ) (f : Option α → Option α) : SortedMap κ α :=
  ⟨alterEntries k f m.entries, ascending_alterEntries k f m.ascending⟩

def insert (m : SortedMap κ α) (k : κ) (v : α) : SortedMap κ α := m.alter k fun _ ↦ some v

/-- Keeps a value that is there already. -/
def insertIfNew (m : SortedMap κ α) (k : κ) (v : α) : SortedMap κ α :=
  m.alter k fun old ↦ some (old.getD v)

def erase (m : SortedMap κ α) (k : κ) : SortedMap κ α := m.alter k fun _ ↦ none

/-- The map of a list of entries; of two entries with one key the later one stays. -/
def ofList (l : List (κ × α)) : SortedMap κ α := l.foldl (fun m e ↦ m.insert e.1 e.2) ∅

/-- All entries of both maps; a key of both gets `f` of its two values, those of `m` first. -/
def mergeWith (f : α → α → α) (m n : SortedMap κ α) : SortedMap κ α :=
  n.entries.foldl (fun m e ↦ m.alter e.1 fun old ↦ some (old.elim e.2 (f · e.2))) m

omit [Std.TransOrd κ] [Std.LawfulEqOrd κ]

/-! ## Changing all entries -/

/-- Keeps the entries that satisfy `p`. -/
def filter (m : SortedMap κ α) (p : κ → α → Bool) : SortedMap κ α :=
  ⟨m.entries.filter fun e ↦ p e.1 e.2, m.ascending.filter _⟩

/-- The same keys with each value made anew from its key and value. -/
def mapValues (m : SortedMap κ α) (f : κ → α → β) : SortedMap κ β :=
  ⟨m.entries.map fun e ↦ (e.1, f e.1 e.2),
    List.pairwise_map.mpr (m.ascending.imp fun h ↦ h)⟩

end SortedMap

/-! ## Sets -/

/-- A finite set, held in ascending order. -/
abbrev SortedSet (κ : Type u) [Ord κ] := SortedMap κ Unit

namespace SortedSet

variable {κ : Type u} [Ord κ]

def toList (s : SortedSet κ) : List κ := s.keys

/-- Keeps the members that satisfy `p`. -/
def filter (s : SortedSet κ) (p : κ → Bool) : SortedSet κ := SortedMap.filter s fun k _ ↦ p k

/-- The keys of a map. -/
def ofKeys {α : Type v} (m : SortedMap κ α) : SortedSet κ := m.mapValues fun _ _ ↦ ()

variable [Std.TransOrd κ] [Std.LawfulEqOrd κ]

def add (s : SortedSet κ) (k : κ) : SortedSet κ := SortedMap.insert s k ()

def union (s t : SortedSet κ) : SortedSet κ := SortedMap.mergeWith (fun _ _ ↦ ()) s t

def ofList (l : List κ) : SortedSet κ := l.foldl add ∅

omit [Std.TransOrd κ] [Std.LawfulEqOrd κ] in
/-- The members of `s` outside `t`. -/
def diff (s t : SortedSet κ) : SortedSet κ := filter s fun k ↦ !t.contains k

end SortedSet

end Interleave
