import Interleave.Proofs.Files.Names

/-!
# The directories above a name

Creating the directories above a name is something that can be done again: if it succeeded, they are
there (`Tree.makeParents_of_sameDirs`), and if it was refused, it is refused in the same tree
(`Tree.makeParents_again`). Once they are there, where the name leads depends on nothing but which
places are directories (`Tree.locate_of_sameDirs`).

For most names a reader does not notice whether the directories above are there: what is missing is
missing either way (`Tree.looksAs_prepared`). This is not so for a name that goes up again from a
directory that is yet to be created, or has a step that no directory can hold.
-/

namespace Interleave

theorem Place.length_follow_le (p : Place) (s : String) : (p.follow s).length ≤ p.length + 1 := by
  rw [follow, above]
  split
  · split
    · exact Nat.le_succ _
    · rw [List.length_dropLast]
      omega
  · exact Nat.le_of_eq List.length_append

theorem Place.length_le_of_mem_along {p q : Place} {steps : List String} (h : q ∈ p.along steps) :
    q.length ≤ p.length + steps.length := by
  induction steps generalizing p with
  | nil => exact absurd h List.not_mem_nil
  | cons s rest ih =>
    have hfollow := p.length_follow_le s
    rw [List.length_cons]
    rcases List.mem_cons.mp h with rfl | h
    · omega
    · have := ih h
      omega

namespace Tree

variable {t t' : Tree} {p q place : Place} {steps : List String} {made made' : Bool}
  {name s : String} {e : OsError}

/-! ## Where a name leads -/

/-- The same places are directories. -/
def SameDirs (t t' : Tree) : Prop := ∀ p, t'.node? p = some .dir ↔ t.node? p = some .dir

theorem SameDirs.refl (t : Tree) : t.SameDirs t := fun _ ↦ .rfl

theorem node?_start (t : Tree) (name : String) : t.node? (start name) = some .dir := by
  rw [start]
  split <;> rfl

/-- Along directories nothing but the last step can be refused. -/
theorem walk_of_dirs (hplace : t.node? place = some .dir)
    (hdirs : ∀ p ∈ place.along steps, t.node? p = some .dir)
    (hshort : ∀ s ∈ steps, s.utf8ByteSize ≤ stepLimit) (s : String) :
    t.walk place (steps ++ [s]) =
      if stepLimit < s.utf8ByteSize then .error .nameTooLong
      else .ok ((steps.foldl Place.follow place).follow s) := by
  induction steps generalizing place with
  | nil =>
    rw [List.nil_append, walk, hplace]
    rfl
  | cons next rest ih =>
    obtain ⟨hnext, hrest⟩ := List.forall_mem_cons.mp hdirs
    obtain ⟨hfirst, hshort⟩ := List.forall_mem_cons.mp hshort
    rw [List.cons_append, walk, hplace]
    dsimp only
    rw [if_neg (Nat.not_lt.mpr hfirst), ih hnext hrest hshort, List.foldl_cons]

/-- A name is refused in every tree, or it is a matter of its steps. -/
theorem locate_cases (name : String) :
    (∃ e, ∀ t : Tree, t.locate name = .error e) ∨
      ∀ t : Tree, t.locate name = t.walk (start name) (Path.steps name) := by
  by_cases hempty : name.isEmpty = true
  · exact .inl ⟨.notFound, fun t ↦ if_pos hempty⟩
  · cases hspelt : misspelt? name with
    | some e => exact .inl ⟨e, fun t ↦ by rw [locate, if_neg hempty, hspelt]⟩
    | none => exact .inr fun t ↦ by rw [locate, if_neg hempty, hspelt]

theorem eq_placeOf_of_resolve (h : t.resolve name = .ok p) : p = placeOf name := by
  rw [resolve] at h
  split at h
  · contradiction
  · next q hlocate =>
    obtain rfl := eq_placeOf_of_locate hlocate
    split at h
    · split at h
      · exact (Except.ok.inj h).symm
      · contradiction
    · exact (Except.ok.inj h).symm

theorem resolve_congr (hlocate : t'.locate name = t.locate name)
    (hnode : t'.node? (placeOf name) = t.node? (placeOf name)) :
    t'.resolve name = t.resolve name := by
  rw [resolve, resolve, hlocate]
  cases h : t.locate name with
  | error e => rfl
  | ok p =>
    obtain rfl := eq_placeOf_of_locate h
    dsimp only
    rw [hnode]

theorem read_congr (hlocate : t'.locate name = t.locate name)
    (hnode : t'.node? (placeOf name) = t.node? (placeOf name)) : t'.read name = t.read name := by
  rw [read, read, lookup, lookup, resolve_congr hlocate hnode]
  cases h : t.resolve name with
  | error e => rfl
  | ok p =>
    obtain rfl := eq_placeOf_of_resolve h
    dsimp only
    rw [hnode]

theorem node?_of_read {c : Content} (h : t.read name = .ok c) :
    t.node? (placeOf name) = some (.file c) := by
  rw [read, lookup] at h
  cases hresolve : t.resolve name with
  | error e =>
    rw [hresolve] at h
    contradiction
  | ok p =>
    obtain rfl := eq_placeOf_of_resolve hresolve
    rw [hresolve] at h
    dsimp only at h
    cases hnode : t.node? (placeOf name) with
    | none =>
      rw [hnode] at h
      contradiction
    | some n =>
      rw [hnode] at h
      cases n with
      | dir => contradiction
      | file c' => exact congrArg _ (congrArg _ (Except.ok.inj h))

theorem read_of_locate_error (h : t.locate name = .error e) : t.read name = .error e := by
  rw [read, lookup, resolve, h]

theorem read_of_node?_none (h : t.locate name = .ok p) (hnone : t.node? p = none) :
    t.read name = .error .notFound := by
  rw [read, lookup, resolve, h]
  dsimp only
  rw [hnone]
  dsimp only
  rw [hnone]

/-! ## Creating directories -/

theorem makeParents_eq (h : misspelt? (Path.parent name) = none) :
    t.makeParents name =
      t.makeDirsFrom (start (Path.parent name)) (Path.steps (Path.parent name)) := by
  rw [makeParents, makeDirs, h]

section

variable {rest : List String}

theorem makeDirsFrom_of_none (hs : s.utf8ByteSize ≤ stepLimit)
    (h : t.node? (place.follow s) = none) : t.makeDirsFrom place (s :: rest) made =
      (t.put (place.follow s) .dir).makeDirsFrom (place.follow s) rest true := by
  rw [makeDirsFrom, if_neg (Nat.not_lt.mpr hs)]
  dsimp only
  rw [h]

theorem makeDirsFrom_of_dir (hs : s.utf8ByteSize ≤ stepLimit)
    (h : t.node? (place.follow s) = some .dir) :
    t.makeDirsFrom place (s :: rest) made = t.makeDirsFrom (place.follow s) rest made := by
  rw [makeDirsFrom, if_neg (Nat.not_lt.mpr hs)]
  dsimp only
  rw [h]

theorem makeDirsFrom_of_file {c : Content} (hs : s.utf8ByteSize ≤ stepLimit)
    (h : t.node? (place.follow s) = some (.file c)) :
    ∃ e, t.makeDirsFrom place (s :: rest) made = .error (e, t) := by
  rw [makeDirsFrom, if_neg (Nat.not_lt.mpr hs)]
  dsimp only
  rw [h]
  exact ⟨_, rfl⟩

end

theorem dirs_of_makeDirsFrom (h : t.makeDirsFrom place steps made = .ok t') :
    (∀ p ∈ place.along steps, t'.node? p = some .dir) ∧
      ∀ s ∈ steps, s.utf8ByteSize ≤ stepLimit := by
  induction steps generalizing t place made with
  | nil => exact ⟨List.forall_mem_nil _, List.forall_mem_nil _⟩
  | cons s rest ih =>
    rw [makeDirsFrom] at h
    split at h
    · contradiction
    · next hshort =>
      have hs := Nat.not_lt.mp hshort
      dsimp only at h
      split at h
      · next hnone =>
        obtain ⟨hdirs, hrest⟩ := ih h
        have hput : (t.put (place.follow s) .dir).node? (place.follow s) = some .dir :=
          node?_put_self (by simp [hnone]) .dir
        -- the new directory is still there when those below it have been created
        have hfirst := (kept_makeDirsFrom (.inl h) (place.follow s)).dir hput
        exact ⟨List.forall_mem_cons.mpr ⟨hfirst, hdirs⟩, List.forall_mem_cons.mpr ⟨hs, hrest⟩⟩
      · next hdir =>
        obtain ⟨hdirs, hrest⟩ := ih h
        have hfirst := (kept_makeDirsFrom (.inl h) (place.follow s)).dir hdir
        exact ⟨List.forall_mem_cons.mpr ⟨hfirst, hdirs⟩, List.forall_mem_cons.mpr ⟨hs, hrest⟩⟩
      · contradiction

theorem makeDirsFrom_of_dirs (hdirs : ∀ p ∈ place.along steps, t.node? p = some .dir)
    (hshort : ∀ s ∈ steps, s.utf8ByteSize ≤ stepLimit) :
    t.makeDirsFrom place steps made = .ok t := by
  induction steps generalizing place made with
  | nil => rfl
  | cons s rest ih =>
    obtain ⟨hfirst, hdirs⟩ := List.forall_mem_cons.mp hdirs
    obtain ⟨hs, hshort⟩ := List.forall_mem_cons.mp hshort
    rw [makeDirsFrom_of_dir hs hfirst]
    exact ih hdirs hshort

/-- What stood in the way still does. -/
theorem makeDirsFrom_again (h : t.makeDirsFrom place steps made = .error (e, t')) :
    ∃ e', t'.makeDirsFrom place steps made' = .error (e', t') := by
  induction steps generalizing t place made made' with
  | nil => contradiction
  | cons s rest ih =>
    rw [makeDirsFrom] at h ⊢
    split at h
    · next hlong =>
      obtain ⟨-, rfl⟩ := Prod.mk.inj (Except.error.inj h)
      exact ⟨_, if_pos hlong⟩
    · next hshort =>
      rw [if_neg hshort]
      dsimp only at h ⊢
      split at h
      · next hnone =>
        have hput : (t.put (place.follow s) .dir).node? (place.follow s) = some .dir :=
          node?_put_self (by simp [hnone]) .dir
        rw [(kept_makeDirsFrom (.inr ⟨e, h⟩) (place.follow s)).dir hput]
        exact ih h
      · next hdir =>
        rw [(kept_makeDirsFrom (.inr ⟨e, h⟩) (place.follow s)).dir hdir]
        exact ih h
      · next hfile =>
        obtain ⟨-, rfl⟩ := Prod.mk.inj (Except.error.inj h)
        rw [hfile]
        exact ⟨_, rfl⟩

theorem dirs_of_makeParents (h : t.makeParents name = .ok t') :
    misspelt? (Path.parent name) = none ∧ (∀ p ∈ placesAbove name, t'.node? p = some .dir) ∧
      ∀ s ∈ Path.steps (Path.parent name), s.utf8ByteSize ≤ stepLimit := by
  rw [makeParents, makeDirs] at h
  split at h
  · contradiction
  · next hspelt => exact ⟨hspelt, dirs_of_makeDirsFrom h⟩

theorem makeParents_of_sameDirs (h : t.makeParents name = .ok t') {u : Tree}
    (hdirs : t'.SameDirs u) : u.makeParents name = .ok u := by
  obtain ⟨hspelt, habove, hshort⟩ := dirs_of_makeParents h
  rw [makeParents_eq hspelt]
  exact makeDirsFrom_of_dirs (fun p hp ↦ (hdirs p).mpr (habove p hp)) hshort

theorem makeParents_again (h : t.makeParents name = .error (e, t')) :
    ∃ e', t'.makeParents name = .error (e', t') := by
  rw [makeParents, makeDirs] at h ⊢
  split at h
  · obtain ⟨-, rfl⟩ := Prod.mk.inj (Except.error.inj h)
    exact ⟨_, rfl⟩
  · exact makeDirsFrom_again h

/-- Once the directories above a name are there, it leads to the same place in all trees that have
the same directories. -/
theorem locate_of_sameDirs (h : t.makeParents name = .ok t') {u : Tree} (hdirs : t'.SameDirs u) :
    u.locate name = t'.locate name := by
  obtain ⟨-, habove, hshort⟩ := dirs_of_makeParents h
  have hwalk : u.walk (start name) (Path.steps name) = t'.walk (start name) (Path.steps name) := by
    rcases List.eq_nil_or_concat (Path.steps name) with hsteps | ⟨init, last, hsteps⟩
    · rw [hsteps]
      rfl
    · rw [List.concat_eq_append] at hsteps
      have hstart : start (Path.parent name) = start name := start_parent (by simp [hsteps])
      rw [placesAbove, hstart, Path.steps_parent, hsteps, List.dropLast_concat] at habove
      rw [Path.steps_parent, hsteps, List.dropLast_concat] at hshort
      rw [hsteps, walk_of_dirs (node?_start t' name) habove hshort,
        walk_of_dirs (node?_start u name) (fun p hp ↦ (hdirs p).mpr (habove p hp)) hshort]
  rcases locate_cases name with ⟨e, hrefused⟩ | hsteps
  · rw [hrefused u, hrefused t']
  · rw [hsteps u, hsteps t', hwalk]

/-! ## What a reader notices -/

/-- The tree with the directories above a name, as far as they can be created. -/
def prepared (t : Tree) (name : String) : Tree :=
  match t.makeParents name with
  | .ok t' => t'
  | .error (_, t') => t'

/-- A name reads the same in both trees, and what stands at its place is the same. -/
structure LooksAs (name : String) (t t' : Tree) : Prop where
  read : t'.read name = t.read name
  node? : t'.node? (placeOf name) = t.node? (placeOf name)

theorem LooksAs.refl (name : String) (t : Tree) : LooksAs name t t := ⟨rfl, rfl⟩

theorem LooksAs.trans {u : Tree} (h : LooksAs name t t') (h' : LooksAs name t' u) :
    LooksAs name t u := ⟨h'.read.trans h.read, h'.node?.trans h.node?⟩

/-- Whatever stands in the tree stands in a directory. -/
def Closed (t : Tree) : Prop := ∀ p ∈ t.nodes.keys, t.node? p.dropLast = some .dir

instance (t : Tree) : Decidable t.Closed := inferInstanceAs (Decidable (∀ p ∈ t.nodes.keys, _))

/-- A name whose steps all go down, and are short enough to do so; or one above which all
directories are there. -/
def Ordinary (t : Tree) (name : String) : Prop :=
  (∀ s ∈ Path.steps name, s ≠ ".." ∧ s.utf8ByteSize ≤ stepLimit) ∨ t.makeParents name = .ok t

/-- Nothing stands below the place. -/
def Bare (t : Tree) (p : Place) : Prop := ∀ q ≠ [], t.node? (p ++ q) = none

theorem Closed.dropLast (h : t.Closed) (hp : t.node? p ≠ none) :
    t.node? p.dropLast = some .dir := by
  cases hbase : p.isBase with
  | true =>
    rw [Place.isBase, Bool.or_eq_true, beq_iff_eq, beq_iff_eq] at hbase
    rcases hbase with rfl | rfl <;> rfl
  | false =>
    refine h p (SortedMap.mem_keys_iff.mpr ?_)
    rw [node?, hbase] at hp
    exact Option.isSome_iff_ne_none.mpr hp

theorem Closed.bare (h : t.Closed) (hp : t.node? p ≠ some .dir) : t.Bare p := by
  intro q
  induction q using List.reverseRecOn with
  | nil => exact fun h ↦ absurd rfl h
  | append_singleton q s ih =>
    intro _
    by_contra hnode
    have hdir := h.dropLast hnode
    rw [← List.append_assoc, List.dropLast_concat] at hdir
    by_cases hq : q = []
    · rw [hq, List.append_nil] at hdir
      exact hp hdir
    · rw [ih hq] at hdir
      exact absurd hdir nofun

theorem Bare.put_dir (h : t.Bare p) : (t.put p .dir).Bare p := by
  intro q hq
  have hne : p ++ q ≠ p := fun heq ↦ hq (List.append_right_eq_self.mp heq)
  rw [node?_put_of_ne t .dir hne, h q hq]

theorem Bare.follow (h : t.Bare p) (s : String) : t.Bare (p ++ [s]) := by
  intro q _
  rw [List.append_assoc]
  exact h _ (List.append_ne_nil_of_left_ne_nil (List.cons_ne_nil s []) q)

/-- Below a new directory nothing is in the way. -/
theorem exists_makeDirsFrom_of_bare (hbare : t.Bare place)
    (hsteps : ∀ s ∈ steps, s ≠ ".." ∧ s.utf8ByteSize ≤ stepLimit) :
    ∃ t', t.makeDirsFrom place steps made = .ok t' := by
  induction steps generalizing t place made with
  | nil => exact ⟨t, rfl⟩
  | cons s rest ih =>
    obtain ⟨⟨hdown, hshort⟩, hrest⟩ := List.forall_mem_cons.mp hsteps
    have hfollow : place.follow s = place ++ [s] := if_neg hdown
    have hnone : t.node? (place.follow s) = none := hfollow ▸ hbare [s] (List.cons_ne_nil s [])
    rw [makeDirsFrom_of_none hshort hnone, hfollow]
    exact ih (hbare.follow s).put_dir hrest

theorem foldl_follow_eq (hsteps : ∀ s ∈ steps, s ≠ "..") (place : Place) :
    steps.foldl Place.follow place = place ++ steps := by
  induction steps generalizing place with
  | nil => exact (List.append_nil place).symm
  | cons s rest ih =>
    obtain ⟨hdown, hrest⟩ := List.forall_mem_cons.mp hsteps
    rw [List.foldl_cons, ih hrest, Place.follow, if_neg hdown, List.append_assoc,
      List.singleton_append]

theorem node?_eq_none_of_kept (h : Kept t t' (place.along steps) q) (hnone : t.node? q = none)
    (hlength : place.length + steps.length < q.length) : t'.node? q = none := by
  rcases h with heq | ⟨-, -, hq⟩
  · rw [heq, hnone]
  · exact absurd (Place.length_le_of_mem_along hq) (Nat.not_le.mpr hlength)

/-- Where a directory is missing there is nothing to be found, and nothing once all directories are
there. -/
theorem walk_of_missing {next : String} {rest : List String} (hclosed : t.Closed)
    (hsteps : ∀ x ∈ next :: rest ++ [s], x ≠ ".." ∧ x.utf8ByteSize ≤ stepLimit)
    (hplace : t.node? place = some .dir) (hmissing : t.node? (place ++ [next]) = none)
    (h : t.makeDirsFrom place (next :: rest) made = .ok t') :
    t.walk place (next :: rest ++ [s]) = .error .notFound ∧
      t'.walk place (next :: rest ++ [s]) = .ok (place ++ (next :: rest ++ [s])) ∧
      t.node? (place ++ (next :: rest ++ [s])) = none ∧
      t'.node? (place ++ (next :: rest ++ [s])) = none := by
  obtain ⟨hdirs, hshort⟩ := dirs_of_makeDirsFrom h
  have hnone : t.node? (place ++ (next :: rest ++ [s])) = none := by
    have hbare : t.Bare (place ++ [next]) := hclosed.bare (by rw [hmissing]; exact nofun)
    have := hbare (rest ++ [s]) (List.append_ne_nil_of_right_ne_nil _ (List.cons_ne_nil s []))
    rwa [List.append_assoc] at this
  refine ⟨?_, ?_, hnone, ?_⟩
  · have hnext : t.walk (place ++ [next]) (rest ++ [s]) = .error .notFound := by
      match rest with
      | [] => rw [List.nil_append, walk, hmissing]
      | _ :: _ => rw [List.cons_append, walk, hmissing]
    rw [List.cons_append, walk, hplace]
    dsimp only
    rw [if_neg (Nat.not_lt.mpr (hshort next List.mem_cons_self)), Place.follow,
      if_neg (hsteps next List.mem_cons_self).1, hnext]
  · have hlast := hsteps s (List.mem_append_right _ List.mem_cons_self)
    have hplace' := (kept_makeDirsFrom (.inl h) place).dir hplace
    rw [walk_of_dirs hplace' hdirs hshort, if_neg (Nat.not_lt.mpr hlast.2),
      foldl_follow_eq fun x hx ↦ (hsteps x (List.mem_append_left _ hx)).1, Place.follow,
      if_neg hlast.1, List.append_assoc]
  · refine node?_eq_none_of_kept (kept_makeDirsFrom (.inl h) _) hnone ?_
    simp

/-- Either no directory is created, or all of them are, and what could not be found because of
them is not there either. -/
theorem walk_makeDirsFrom (hclosed : t.Closed)
    (hsteps : ∀ x ∈ steps ++ [s], x ≠ ".." ∧ x.utf8ByteSize ≤ stepLimit)
    (hplace : t.node? place = some .dir)
    (h : t.makeDirsFrom place steps made = .ok t' ∨
      ∃ e, t.makeDirsFrom place steps made = .error (e, t')) :
    t' = t ∨
      t.walk place (steps ++ [s]) = .error .notFound ∧
        t'.walk place (steps ++ [s]) = .ok (place ++ (steps ++ [s])) ∧
        t.node? (place ++ (steps ++ [s])) = none ∧
        t'.node? (place ++ (steps ++ [s])) = none := by
  induction steps generalizing place made with
  | nil =>
    rcases h with h | ⟨e, h⟩
    · exact .inl (Except.ok.inj h).symm
    · contradiction
  | cons next rest ih =>
    obtain ⟨⟨hdown, hshort⟩, hrest⟩ := List.forall_mem_cons.mp hsteps
    have hfollow : place.follow next = place ++ [next] := if_neg hdown
    cases hnode : t.node? (place ++ [next]) with
    | none =>
      have hbare : t.Bare (place ++ [next]) := hclosed.bare (by simp [hnode])
      have hbelow : ∀ s ∈ rest, s ≠ ".." ∧ s.utf8ByteSize ≤ stepLimit := fun s hs ↦
        hrest s (List.mem_append_left _ hs)
      have hmade : ∃ t₁, t.makeDirsFrom place (next :: rest) made = .ok t₁ := by
        rw [makeDirsFrom_of_none hshort (hfollow.symm ▸ hnode), hfollow]
        exact exists_makeDirsFrom_of_bare hbare.put_dir hbelow
      obtain ⟨t₁, hmade⟩ := hmade
      have hok : t.makeDirsFrom place (next :: rest) made = .ok t' := by
        rcases h with h | ⟨e, h⟩
        · exact h
        · rw [hmade] at h
          contradiction
      exact .inr (walk_of_missing hclosed hsteps hplace hnode hok)
    | some n =>
      cases n with
      | dir =>
        rw [makeDirsFrom_of_dir hshort (hfollow.symm ▸ hnode), hfollow] at h
        have hwalk (u : Tree) (hu : u.node? place = some .dir) :
            u.walk place (next :: rest ++ [s]) = u.walk (place ++ [next]) (rest ++ [s]) := by
          rw [List.cons_append, walk, hu]
          dsimp only
          rw [if_neg (Nat.not_lt.mpr hshort), hfollow]
        have hplace' := (kept_makeDirsFrom h place).dir hplace
        have hassoc : place ++ (next :: rest ++ [s]) = place ++ [next] ++ (rest ++ [s]) := by
          simp
        rw [hwalk t hplace, hwalk t' hplace', hassoc]
        exact ih hrest hnode h
      | file c =>
        obtain ⟨refused, hrefused⟩ : ∃ e, t.makeDirsFrom place (next :: rest) made =
            .error (e, t) := makeDirsFrom_of_file hshort (hfollow.symm ▸ hnode)
        rw [hrefused] at h
        rcases h with h | ⟨e, h⟩
        · contradiction
        · exact .inl (Prod.mk.inj (Except.error.inj h)).2.symm

theorem prepared_cases (t : Tree) (name : String) :
    t.makeParents name = .ok (t.prepared name) ∨
      ∃ e, t.makeParents name = .error (e, t.prepared name) := by
  rw [prepared]
  split
  · next h => exact .inl h
  · next e _ h => exact .inr ⟨e, h⟩

theorem looksAs_of_makeParents (hclosed : t.Closed)
    (hsteps : ∀ s ∈ Path.steps name, s ≠ ".." ∧ s.utf8ByteSize ≤ stepLimit)
    (h : t.makeParents name = .ok t' ∨ ∃ e, t.makeParents name = .error (e, t')) :
    LooksAs name t t' := by
  rw [makeParents, makeDirs] at h
  split at h
  · rcases h with h | ⟨e, h⟩
    · contradiction
    · exact (Prod.mk.inj (Except.error.inj h)).2 ▸ .refl name t
  · rw [Path.steps_parent] at h
    rcases List.eq_nil_or_concat (Path.steps name) with hnil | ⟨init, last, hconcat⟩
    · rw [hnil, List.dropLast_nil] at h
      rcases h with h | ⟨e, h⟩
      · exact Except.ok.inj h ▸ .refl name t
      · contradiction
    · rw [List.concat_eq_append] at hconcat
      rw [start_parent (by simp [hconcat]), hconcat, List.dropLast_concat] at h
      rw [hconcat] at hsteps
      rcases walk_makeDirsFrom hclosed hsteps (node?_start t name) h with
        rfl | ⟨hwalk, hwalk', hnone, hnone'⟩
      · exact .refl name t'
      · have hplace : placeOf name = start name ++ (init ++ [last]) := by
          rw [placeOf, hconcat, foldl_follow_eq fun x hx ↦ (hsteps x hx).1]
        refine ⟨?_, by rw [hplace, hnone, hnone']⟩
        rcases locate_cases name with ⟨e, hrefused⟩ | hlocate
        · rw [read_of_locate_error (hrefused t), read_of_locate_error (hrefused t')]
        · have hlocated := hlocate t
          have hlocated' := hlocate t'
          rw [hconcat, hwalk] at hlocated
          rw [hconcat, hwalk'] at hlocated'
          rw [read_of_locate_error hlocated, read_of_node?_none hlocated' hnone']

/-- Creating the directories above an ordinary name goes unnoticed by its readers. -/
theorem looksAs_prepared (hclosed : t.Closed) (h : t.Ordinary name) :
    LooksAs name t (t.prepared name) := by
  rcases h with hsteps | hmade
  · exact looksAs_of_makeParents hclosed hsteps (t.prepared_cases name)
  · rw [prepared, hmade]
    exact .refl name t

end Tree

end Interleave
