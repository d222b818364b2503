import Interleave.Data.SortedMap.Lemmas
import Interleave.Files.Tree

/-!
# What operations on files leave alone

A name spells a place (`Tree.placeOf`), and resolving it either leads there or is refused. Writing
and renaming change a tree at the places of their names alone. The directories above a name are
created at places along the way (`Tree.placesAbove`), and only where nothing stood. What both have
in common is that a place is *kept*: it holds what it held before, or a new directory above a name.

A directory on the way to a name may be a new one, but it never goes. So a name that leads somewhere
still leads there after a change that only touches places without directories.
-/

namespace Interleave

/-- The places that steps lead through, the last one included. -/
def Place.along (p : Place) : List String → List Place
  | [] => []
  | s :: rest => p.follow s :: along (p.follow s) rest

namespace Tree

variable {t t' t'' : Tree} {p q : Place} {n : Node} {name : String} {c : Content}

/-- The place that a name spells. -/
def placeOf (name : String) : Place := (Path.steps name).foldl Place.follow (start name)

/-- The places of the directories above a name. -/
def placesAbove (name : String) : List Place :=
  (start (Path.parent name)).along (Path.steps (Path.parent name))

/-! ## Single places -/

theorem isBase_eq_false_of_node?_ne (h : t.node? p ≠ some .dir) : p.isBase = false := by
  cases hbase : p.isBase with
  | false => rfl
  | true => exact absurd (by rw [node?, if_pos hbase]) h

theorem node?_put_of_ne (t : Tree) (n : Node) (h : q ≠ p) : (t.put p n).node? q = t.node? q := by
  rw [node?, node?, put, SortedMap.insert, SortedMap.get?_alter_of_ne _ h]

theorem node?_put_self (h : t.node? p ≠ some .dir) (n : Node) :
    (t.put p n).node? p = some n := by
  rw [node?, isBase_eq_false_of_node?_ne h, put, SortedMap.insert, SortedMap.get?_alter_self]
  rfl

theorem node?_drop_of_ne (t : Tree) (h : q ≠ p) : (t.drop p).node? q = t.node? q := by
  rw [node?, node?, drop, SortedMap.erase, SortedMap.get?_alter_of_ne _ h]

theorem node?_drop_self (h : t.node? p ≠ some .dir) : (t.drop p).node? p = none := by
  rw [node?, isBase_eq_false_of_node?_ne h, drop, SortedMap.erase, SortedMap.get?_alter_self]
  rfl

/-! ## Kept places -/

/-- A place holds what it held, or a new directory, which is at one of the places `above`. -/
def Kept (t t' : Tree) (above : List Place) (p : Place) : Prop :=
  t'.node? p = t.node? p ∨ t.node? p = none ∧ t'.node? p = some .dir ∧ p ∈ above

namespace Kept

variable {above above' : List Place}

theorem of_eq (h : t'.node? p = t.node? p) : Kept t t' above p := .inl h

theorem refl (t : Tree) (above : List Place) (p : Place) : Kept t t above p := .inl rfl

theorem trans (h : Kept t t' above p) (h' : Kept t' t'' above p) : Kept t t'' above p := by
  rcases h' with h' | ⟨hnone', hdir', hp⟩
  · rw [Kept, h']
    exact h
  · rcases h with h | ⟨_, hdir, _⟩
    · exact .inr ⟨h ▸ hnone', hdir', hp⟩
    · -- a directory that was new in the first change cannot be new in the second
      exact absurd (hnone'.symm.trans hdir) nofun

theorem mono (h : Kept t t' above p) (hsub : above ⊆ above') : Kept t t' above' p :=
  h.imp id fun ⟨hnone, hdir, hp⟩ ↦ ⟨hnone, hdir, hsub hp⟩

/-- A directory is never lost. -/
theorem dir (h : Kept t t' above p) (hdir : t.node? p = some .dir) : t'.node? p = some .dir := by
  rcases h with heq | ⟨-, hdir', -⟩
  · rw [heq, hdir]
  · exact hdir'

/-- A new directory where nothing stood. -/
theorem put_dir (h : t.node? q = none) (hq : q ∈ above) (p : Place) :
    Kept t (t.put q .dir) above p := by
  by_cases hp : p = q
  · have hne : t.node? q ≠ some .dir := by rw [h]; exact nofun
    rw [hp]
    exact .inr ⟨h, node?_put_self hne .dir, hq⟩
  · exact .inl (node?_put_of_ne t .dir hp)

end Kept

/-! ## Resolving names -/

theorem eq_foldl_of_walk {steps : List String} (h : t.walk p steps = .ok q) :
    q = steps.foldl Place.follow p := by
  induction steps generalizing p with
  | nil =>
    rw [walk] at h
    exact (Except.ok.inj h).symm
  | cons s rest ih =>
    rw [walk] at h
    split at h
    · exact absurd h nofun
    · exact absurd h nofun
    · split at h
      · exact absurd h nofun
      · exact ih h

theorem eq_placeOf_of_locate (h : t.locate name = .ok p) : p = placeOf name := by
  rw [locate] at h
  split at h
  · exact absurd h nofun
  · split at h
    · exact absurd h nofun
    · exact eq_foldl_of_walk h

/-- A way stays open as long as no directory goes. -/
theorem walk_of_dirs_kept (hdirs : ∀ p, t.node? p = some .dir → t'.node? p = some .dir)
    {steps : List String} (h : t.walk p steps = .ok q) : t'.walk p steps = .ok q := by
  induction steps generalizing p with
  | nil => exact h
  | cons s rest ih =>
    rw [walk] at h ⊢
    cases hp : t.node? p with
    | none => simp [hp] at h
    | some n =>
      cases n with
      | file c => simp [hp] at h
      | dir =>
        rw [hdirs p hp]
        rw [hp] at h
        dsimp only at h ⊢
        split at h
        · exact absurd h nofun
        · next hshort =>
          rw [if_neg hshort]
          exact ih h

theorem locate_of_dirs_kept (hdirs : ∀ p, t.node? p = some .dir → t'.node? p = some .dir)
    (h : t.locate name = .ok p) : t'.locate name = .ok p := by
  rw [locate] at h ⊢
  split at h
  · exact absurd h nofun
  · split at h
    · exact absurd h nofun
    · next hnonempty _ hspelt =>
      rw [if_neg hnonempty]
      exact walk_of_dirs_kept hdirs h

theorem resolve_of_locate (h : t.locate name = .ok p) (hending : Path.ending name = .plain) :
    t.resolve name = .ok p := by
  rw [resolve, h]
  dsimp only
  split
  · rw [if_pos hending]
  · rfl

theorem read_of_locate (h : t.locate name = .ok p) (hending : Path.ending name = .plain)
    (hfile : t.node? p = some (.file c)) : t.read name = .ok c := by
  rw [read, lookup, resolve_of_locate h hending]
  dsimp only
  rw [hfile]

/-! ## Creating directories -/

/-- Creating directories keeps every place, whether or not all of them can be created. -/
theorem kept_makeDirsFrom {place : Place} {steps : List String} {made : Bool}
    (h : t.makeDirsFrom place steps made = .ok t' ∨
      ∃ e, t.makeDirsFrom place steps made = .error (e, t')) (p : Place) :
    Kept t t' (place.along steps) p := by
  induction steps generalizing t place made with
  | nil =>
    rcases h with h | ⟨e, h⟩
    · exact Except.ok.inj h ▸ .refl t _ p
    · exact absurd h nofun
  | cons s rest ih =>
    rw [makeDirsFrom] at h
    split at h
    · rcases h with h | ⟨e, h⟩
      · exact absurd h nofun
      · exact (Prod.mk.inj (Except.error.inj h)).2 ▸ .refl t _ p
    · dsimp only at h
      split at h
      · -- nothing stands here: a directory is put, and it stays even if a later one is refused
        next hnone =>
        exact (Kept.put_dir hnone List.mem_cons_self p).trans
          ((ih h).mono (List.subset_cons_self _ _))
      · exact (ih h).mono (List.subset_cons_self _ _)
      · rcases h with h | ⟨e, h⟩
        · exact absurd h nofun
        · exact (Prod.mk.inj (Except.error.inj h)).2 ▸ .refl t _ p

theorem kept_makeParents
    (h : t.makeParents name = .ok t' ∨ ∃ e, t.makeParents name = .error (e, t')) (p : Place) :
    Kept t t' (placesAbove name) p := by
  rw [makeParents, makeDirs] at h
  split at h
  · rcases h with h | ⟨e, h⟩
    · exact absurd h nofun
    · exact (Prod.mk.inj (Except.error.inj h)).2 ▸ .refl t _ p
  · exact kept_makeDirsFrom h p

/-! ## Writing, renaming, removing -/

theorem write_eq_ok (h : t.write name c = .ok t') :
    ∃ p, t.locate name = .ok p ∧ Path.ending name = .plain ∧ t.node? p ≠ some .dir ∧
      t' = t.put p (.file c) := by
  rw [write, modify] at h
  split at h
  · exact absurd h nofun
  · next p hlocate =>
    split at h
    · exact absurd h nofun
    · exact absurd h nofun
    · exact absurd h nofun
    · exact absurd h nofun
    · next hending hnone =>
      exact ⟨p, hlocate, hending, by rw [hnone]; exact nofun, (Except.ok.inj h).symm⟩
    · next hending hfile =>
      exact ⟨p, hlocate, hending, by rw [hfile]; exact nofun, (Except.ok.inj h).symm⟩

theorem rename_eq_ok {source target : String} (h : t.rename source target = .ok t') :
    ∃ p c q, t.read source = .ok c ∧ t.resolve source = .ok p ∧ t.locate target = .ok q ∧
      Path.ending target = .plain ∧ t.node? q ≠ some .dir ∧ t' = (t.drop p).put q (.file c) := by
  rw [rename] at h
  split at h
  · exact absurd h nofun
  · exact absurd h nofun
  · next c p hread hresolve =>
    split at h
    · exact absurd h nofun
    · next q hlocate =>
      split at h
      · exact absurd h nofun
      · exact absurd h nofun
      · exact absurd h nofun
      · exact absurd h nofun
      · exact absurd h nofun
      · next hending hdir =>
        exact ⟨p, c, q, hread, hresolve, hlocate, hending, hdir, (Except.ok.inj h).symm⟩

theorem remove_eq (hread : t.read name = .ok c) (hresolve : t.resolve name = .ok p) :
    t.remove name = .ok (t.drop p) := by
  rw [remove, hread, hresolve]

end Tree

end Interleave
