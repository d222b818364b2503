import Interleave.Proofs.Files.Parents
import Mathlib.Logic.Function.Iterate

/-!
# Files that several calls replace at once

A call that replaces a file takes four steps: it creates the directories, writes the temporary file,
gives it the name of the file and, if that is refused, removes it. Taken one after the other the
steps are `Snapshot.replace` (`Snapshot.replace_eq_next`). Here any number of calls on one file take
their steps in any order. The text arrives in the temporary file piece by piece, and the system may
refuse any step for reasons of its own.

## The invariant

Up to the first call that creates all directories, no temporary file is written, and the tree is the
one at the start, with or without directories above the file (`Snapshot.Course.unopened`). From then
on the directories stay as they are. Each call then changes the tree at two places only: at that of
its own temporary file, which holds the text of the call once that is written, and, when the file is
replaced, at that of the file. The temporary files are different ones if the tags are
(`Snapshot.placeOf_tempName_ne`), so what is moved to the place of the file is a complete text
(`Snapshot.Opened`).
-/

namespace Interleave.Snapshot

open Interleave.Tree

/-! ## Calls and their steps -/

/-- A call that replaces a file: the tag of its temporary file, and the new text. -/
structure Call where
  tag : String
  text : String

/-- How far a call has got. -/
inductive Stage where
  | called
  /-- The directories are there. -/
  | writing
  /-- The temporary file holds the text. -/
  | written
  /-- The temporary file could not take the name of the file. -/
  | refused (e : OsError)
  | ended (failure : Option Failure)
  deriving DecidableEq

/-- The next step of a call, if the system does its part. -/
def Call.next (c : Call) (path : String) : Tree × Stage → Tree × Stage
  | (t, .called) =>
    match t.makeParents path with
    | .ok t => (t, .writing)
    | .error (e, t) => (t, .ended (some (refusal path e)))
  | (t, .writing) =>
    match t.write (tempName path c.tag) (.text c.text) with
    | .ok t => (t, .written)
    | .error e => (t, .ended (some (refusal (tempName path c.tag) e)))
  | (t, .written) =>
    match t.rename (tempName path c.tag) path with
    | .ok t => (t, .ended none)
    | .error e => (t, .refused e)
  | (t, .refused e) =>
    ((t.remove (tempName path c.tag)).toOption.getD t, .ended (some (refusal path e)))
  | (t, .ended failure) => (t, .ended failure)

theorem Call.next_called (c : Call) (path : String) (t : Tree) :
    c.next path (t, .called) =
      match t.makeParents path with
      | .ok t => (t, .writing)
      | .error (e, t) => (t, .ended (some (refusal path e))) := (rfl)

theorem Call.next_writing (c : Call) (path : String) (t : Tree) :
    c.next path (t, .writing) =
      match t.write (tempName path c.tag) (.text c.text) with
      | .ok t => (t, .written)
      | .error e => (t, .ended (some (refusal (tempName path c.tag) e))) := (rfl)

theorem Call.next_written (c : Call) (path : String) (t : Tree) :
    c.next path (t, .written) =
      match t.rename (tempName path c.tag) path with
      | .ok t => (t, .ended none)
      | .error e => (t, .refused e) := (rfl)

theorem Call.next_refused (c : Call) (path : String) (t : Tree) (e : OsError) :
    c.next path (t, .refused e) =
      ((t.remove (tempName path c.tag)).toOption.getD t, .ended (some (refusal path e))) := (rfl)

theorem iterate_next_ended (c : Call) (path : String) (t : Tree) (failure : Option Failure)
    (n : Nat) : (c.next path)^[n] (t, .ended failure) = (t, .ended failure) :=
  Function.iterate_fixed rfl n

/-- Four steps without interruption replace the file. -/
theorem replace_eq_next (c : Call) (path : String) (t : Tree) :
    (c.next path)^[4] (t, .called) =
      ((replace t path c.tag c.text).1, .ended (replace t path c.tag c.text).2) := by
  rw [Function.iterate_succ_apply, Call.next_called, replace]
  cases t.makeParents path with
  | error refused => exact iterate_next_ended c path _ _ 3
  | ok t =>
    dsimp only
    rw [Function.iterate_succ_apply, Call.next_writing]
    cases t.write (tempName path c.tag) (.text c.text) with
    | error e => exact iterate_next_ended c path _ _ 2
    | ok t =>
      dsimp only
      rw [Function.iterate_succ_apply, Call.next_written, publish]
      cases t.rename (tempName path c.tag) path with
      | error e => rfl
      | ok t => rfl

/-- What a call may do at a stage: its next step, a piece of the text into the temporary file, or
nothing, if the system refuses the step. -/
inductive Call.Moves (c : Call) (path : String) : Tree → Stage → Tree → Stage → Prop where
  | next (t : Tree) (stage : Stage) :
    c.Moves path t stage (c.next path (t, stage)).1 (c.next path (t, stage)).2
  | piece {t t' : Tree} {content : Content} :
    t.write (tempName path c.tag) content = .ok t' → c.Moves path t .writing t' .writing
  | noParents {t : Tree} {failure : Failure} :
    c.Moves path t .called t (.ended (some failure))
  | notWritten {t : Tree} {failure : Failure} :
    c.Moves path t .writing t (.ended (some failure))
  | notPublished {t : Tree} {e : OsError} : c.Moves path t .written t (.refused e)
  | notRemoved {t : Tree} {e : OsError} :
    c.Moves path t (.refused e) t (.ended (some (refusal path e)))

variable {ι : Type} [DecidableEq ι] {path : String} {calls : ι → Call} {t₀ t₁ t t' : Tree}
  {stages : ι → Stage} {stage' : Stage} {i : ι}

/-- The tree and the stages of the calls after some of their steps, in any order. -/
inductive Reached (path : String) (calls : ι → Call) (t₀ : Tree) :
    Tree → (ι → Stage) → Prop where
  | start : Reached path calls t₀ t₀ fun _ ↦ .called
  | move {t t' : Tree} {stages : ι → Stage} {stage' : Stage} (i : ι) :
    Reached path calls t₀ t stages → (calls i).Moves path t (stages i) t' stage' →
    Reached path calls t₀ t' (Function.update stages i stage')

/-- The next step of one of the calls. -/
def turn (path : String) (calls : ι → Call) (s : Tree × (ι → Stage)) (i : ι) :
    Tree × (ι → Stage) :=
  (((calls i).next path (s.1, s.2 i)).1,
    Function.update s.2 i ((calls i).next path (s.1, s.2 i)).2)

/-- The calls may take turns in any order. -/
theorem Reached.turns (path : String) (calls : ι → Call) (t₀ : Tree) (is : List ι) :
    Reached path calls t₀ (is.foldl (turn path calls) (t₀, fun _ ↦ .called)).1
      (is.foldl (turn path calls) (t₀, fun _ ↦ .called)).2 := by
  induction is using List.reverseRecOn with
  | nil => exact .start
  | append_singleton is i ih =>
    rw [List.foldl_append, List.foldl_cons, List.foldl_nil]
    exact ih.move i (.next _ _)

/-! ## Changes at one place -/

/-- The trees differ at most at one place, and in nothing that concerns directories. -/
structure DiffersAt (p : Place) (t t' : Tree) : Prop where
  dirs : t.SameDirs t'
  elsewhere : ∀ q, q ≠ p → t'.node? q = t.node? q

theorem DiffersAt.refl (p : Place) (t : Tree) : DiffersAt p t t := ⟨.refl t, fun _ _ ↦ rfl⟩

/-- What stands at the place is no directory before and after. -/
theorem DiffersAt.of_ne_dir {p : Place} (hp : t.node? p ≠ some .dir) (hp' : t'.node? p ≠ some .dir)
    (helsewhere : ∀ q, q ≠ p → t'.node? q = t.node? q) : DiffersAt p t t' := by
  refine ⟨fun q ↦ ?_, helsewhere⟩
  by_cases hq : q = p
  · rw [hq]
    exact iff_of_false hp' hp
  · rw [helsewhere q hq]

theorem DiffersAt.put {p : Place} (hp : t.node? p ≠ some .dir) (c : Content) :
    DiffersAt p t (t.put p (.file c)) :=
  .of_ne_dir hp (by rw [node?_put_self hp]; exact nofun) fun _ hq ↦ node?_put_of_ne t _ hq

theorem DiffersAt.drop {p : Place} (hp : t.node? p ≠ some .dir) : DiffersAt p t (t.drop p) :=
  .of_ne_dir hp (by rw [node?_drop_self hp]; exact nofun) fun _ hq ↦ node?_drop_of_ne t hq

theorem differsAt_write {name : String} {c : Content} (h : t.write name c = .ok t') :
    DiffersAt (placeOf name) t t' ∧ t'.node? (placeOf name) = some (.file c) := by
  obtain ⟨p, hlocate, -, hdir, rfl⟩ := write_eq_ok h
  obtain rfl := eq_placeOf_of_locate hlocate
  exact ⟨.put hdir c, node?_put_self hdir _⟩

theorem differsAt_remove {name : String} (h : t.remove name = .ok t') :
    DiffersAt (placeOf name) t t' := by
  rw [remove] at h
  split at h
  · contradiction
  · contradiction
  · next c p hread hresolve =>
    obtain rfl := eq_placeOf_of_resolve hresolve
    obtain rfl := Except.ok.inj h
    exact .drop (by simp [node?_of_read hread])

/-! ## The invariant -/

/-- No call has got beyond creating directories. -/
def Idle (stages : ι → Stage) : Prop :=
  ∀ i, stages i = .called ∨ ∃ failure, stages i = .ended (some failure)

/-- What stands at the place of the file is what stood there when the directories had been created,
or the text of a call that has succeeded. -/
def Holds (path : String) (calls : ι → Call) (t₁ t : Tree) (stages : ι → Stage) : Prop :=
  (∀ i, stages i ≠ .ended none) ∧ t.node? (placeOf path) = t₁.node? (placeOf path) ∨
    ∃ i, stages i = .ended none ∧ t.locate path = .ok (placeOf path) ∧
      Path.ending path = .plain ∧ t.node? (placeOf path) = some (.file (.text (calls i).text))

/-- The state once the directories have been created, which gave `t₁`. -/
structure Opened (path : String) (calls : ι → Call) (t₁ t : Tree) (stages : ι → Stage) : Prop where
  dirs : t₁.SameDirs t
  written : ∀ i, stages i = .written →
    t.node? (placeOf (tempName path (calls i).tag)) = some (.file (.text (calls i).text))
  holds : Holds path calls t₁ t stages

/-- How far the calls have got: no directories have been created, they cannot be created, or they
have been. -/
inductive Course (path : String) (calls : ι → Call) (t₀ : Tree) : Tree → (ι → Stage) → Prop where
  | unopened {stages : ι → Stage} : Idle stages → Course path calls t₀ t₀ stages
  | closed {t₁ : Tree} {e : OsError} {stages : ι → Stage} :
    t₀.makeParents path = .error (e, t₁) → Idle stages → Course path calls t₀ t₁ stages
  | opened {t₁ t : Tree} {stages : ι → Stage} :
    t₀.makeParents path = .ok t₁ → Opened path calls t₁ t stages → Course path calls t₀ t stages

omit [DecidableEq ι] in
theorem Idle.ne_ended_none (h : Idle stages) (i : ι) : stages i ≠ .ended none := by
  rcases h i with hi | ⟨_, hi⟩ <;> rw [hi] <;> exact nofun

theorem Idle.update (h : Idle stages) {failure : Failure} (i : ι) :
    Idle (Function.update stages i (.ended (some failure))) := by
  intro j
  by_cases hj : j = i
  · rw [hj, Function.update_self]
    exact .inr ⟨_, rfl⟩
  · rw [Function.update_of_ne hj]
    exact h j

/-- When the first call has created the directories, it is the only one that is writing. -/
theorem Idle.opened (h : Idle stages) (i : ι) :
    Opened path calls t₁ t₁ (Function.update stages i .writing) := by
  refine ⟨.refl t₁, fun j hj ↦ ?_, .inl ⟨fun j ↦ ?_, rfl⟩⟩
  · by_cases hji : j = i
    · rw [hji, Function.update_self] at hj
      exact absurd hj nofun
    · rw [Function.update_of_ne hji] at hj
      rcases h j with hidle | ⟨_, hidle⟩ <;> exact absurd (hidle.symm.trans hj) nofun
  · by_cases hji : j = i
    · rw [hji, Function.update_self]
      exact nofun
    · rw [Function.update_of_ne hji]
      exact h.ne_ended_none j

/-! ## Steps after the directories -/

/-- The temporary files of the calls are different files, and none is the file itself. -/
structure Apart (path : String) (calls : ι → Call) : Prop where
  solid : ∀ i, Path.Solid (calls i).tag
  tags : ∀ i j, (calls i).tag = (calls j).tag → i = j

omit [DecidableEq ι] in
theorem Apart.temp_ne (h : Apart path calls) {i j : ι} (hij : i ≠ j) :
    placeOf (tempName path (calls i).tag) ≠ placeOf (tempName path (calls j).tag) :=
  placeOf_tempName_ne path (h.solid i) (h.solid j) fun heq ↦ hij (h.tags i j heq)

omit [DecidableEq ι] in
theorem Apart.temp_ne_path (h : Apart path calls) (i : ι) :
    placeOf (tempName path (calls i).tag) ≠ placeOf path :=
  placeOf_tempName_ne_placeOf path (h.solid i)

/-- A step at the temporary file of a call. -/
theorem Opened.atTemp (h : Opened path calls t₁ t stages) (hapart : Apart path calls)
    (hdiffers : DiffersAt (placeOf (tempName path (calls i).tag)) t t')
    (hstage : stages i ≠ .ended none) (hstage' : stage' ≠ .ended none)
    (hwritten : stage' = .written →
      t'.node? (placeOf (tempName path (calls i).tag)) = some (.file (.text (calls i).text))) :
    Opened path calls t₁ t' (Function.update stages i stage') := by
  have hpath : t'.node? (placeOf path) = t.node? (placeOf path) :=
    hdiffers.elsewhere _ (hapart.temp_ne_path i).symm
  refine ⟨fun p ↦ (hdiffers.dirs p).trans (h.dirs p), fun j hj ↦ ?_, ?_⟩
  · by_cases hji : j = i
    · rw [hji, Function.update_self] at hj
      rw [hji]
      exact hwritten hj
    · rw [Function.update_of_ne hji] at hj
      rw [hdiffers.elsewhere _ (hapart.temp_ne hji), h.written j hj]
  · rcases h.holds with ⟨hnone, hnode⟩ | ⟨j, hj, hlocate, hending, hnode⟩
    · refine .inl ⟨fun j ↦ ?_, hpath.trans hnode⟩
      by_cases hji : j = i
      · rwa [hji, Function.update_self]
      · rw [Function.update_of_ne hji]
        exact hnone j
    · have hji : j ≠ i := fun heq ↦ hstage (heq ▸ hj)
      refine .inr ⟨j, ?_, locate_of_dirs_kept (fun p ↦ (hdiffers.dirs p).mpr) hlocate, hending,
        hpath.trans hnode⟩
      rw [Function.update_of_ne hji, hj]

/-- A step that the system refuses. -/
theorem Opened.still (h : Opened path calls t₁ t stages) (hapart : Apart path calls)
    (hstage : stages i ≠ .ended none) (hstage' : stage' ≠ .ended none)
    (hwritten : stage' ≠ .written) :
    Opened path calls t₁ t (Function.update stages i stage') :=
  h.atTemp hapart (.refl _ t) hstage hstage' fun heq ↦ absurd heq hwritten

/-- A complete text is moved to the place of the file. -/
theorem Opened.publish (h : Opened path calls t₁ t stages) (hapart : Apart path calls)
    (hstage : stages i = .written)
    (hrename : t.rename (tempName path (calls i).tag) path = .ok t') :
    Opened path calls t₁ t' (Function.update stages i (.ended none)) := by
  obtain ⟨p, c, q, hread, hresolve, hlocate, hending, hdir, rfl⟩ := rename_eq_ok hrename
  obtain rfl := eq_placeOf_of_resolve hresolve
  obtain rfl := eq_placeOf_of_locate hlocate
  have hfile := node?_of_read hread
  obtain rfl : c = .text (calls i).text := by
    have hcontent := hfile.symm.trans (h.written i hstage)
    exact Node.file.inj (Option.some.inj hcontent)
  have hdrop := DiffersAt.drop (t := t) (by rw [hfile]; exact nofun)
  have hdir' : (t.drop (placeOf (tempName path (calls i).tag))).node? (placeOf path) ≠
      some .dir := by
    rwa [hdrop.elsewhere _ (hapart.temp_ne_path i).symm]
  have hput := DiffersAt.put hdir' (.text (calls i).text)
  have hdirs : t.SameDirs _ := fun p ↦ (hput.dirs p).trans (hdrop.dirs p)
  refine ⟨fun p ↦ (hdirs p).trans (h.dirs p), fun j hj ↦ ?_, .inr ⟨i, ?_, ?_, hending, ?_⟩⟩
  · by_cases hji : j = i
    · rw [hji, Function.update_self] at hj
      exact absurd hj nofun
    · rw [Function.update_of_ne hji] at hj
      rw [hput.elsewhere _ (hapart.temp_ne_path j), hdrop.elsewhere _ (hapart.temp_ne hji),
        h.written j hj]
  · rw [Function.update_self]
  · exact locate_of_dirs_kept (fun p ↦ (hdirs p).mpr) hlocate
  · exact node?_put_self hdir' _

theorem Opened.next (h : Opened path calls t₁ t stages) (hapart : Apart path calls)
    (hparents : t₀.makeParents path = .ok t₁) (i : ι) :
    Opened path calls t₁ ((calls i).next path (t, stages i)).1
      (Function.update stages i ((calls i).next path (t, stages i)).2) := by
  cases hstage : stages i with
  | called =>
    rw [Call.next_called, makeParents_of_sameDirs hparents h.dirs]
    exact h.still hapart (by rw [hstage]; exact nofun) nofun nofun
  | writing =>
    rw [Call.next_writing]
    cases hwrite : t.write (tempName path (calls i).tag) (.text (calls i).text) with
    | error e => exact h.still hapart (by rw [hstage]; exact nofun) nofun nofun
    | ok t' =>
      obtain ⟨hdiffers, hfile⟩ := differsAt_write hwrite
      exact h.atTemp hapart hdiffers (by rw [hstage]; exact nofun) nofun fun _ ↦ hfile
  | written =>
    rw [Call.next_written]
    cases hrename : t.rename (tempName path (calls i).tag) path with
    | error e => exact h.still hapart (by rw [hstage]; exact nofun) nofun nofun
    | ok t' => exact h.publish hapart hstage hrename
  | refused e =>
    rw [Call.next_refused]
    cases hremove : t.remove (tempName path (calls i).tag) with
    | error e => exact h.still hapart (by rw [hstage]; exact nofun) nofun nofun
    | ok t' =>
      exact h.atTemp hapart (differsAt_remove hremove) (by rw [hstage]; exact nofun) nofun nofun
  | ended failure =>
    have hnext : (calls i).next path (t, .ended failure) = (t, stages i) := by
      rw [hstage]
      rfl
    rw [hnext, Function.update_eq_self]
    exact h

theorem Opened.move (h : Opened path calls t₁ t stages) (hapart : Apart path calls)
    (hparents : t₀.makeParents path = .ok t₁)
    (hmove : (calls i).Moves path t (stages i) t' stage') :
    Opened path calls t₁ t' (Function.update stages i stage') := by
  generalize hstage : stages i = stage at hmove
  cases hmove with
  | next => exact hstage ▸ h.next hapart hparents i
  | piece hwrite =>
    exact h.atTemp hapart (differsAt_write hwrite).1 (by rw [hstage]; exact nofun) nofun nofun
  | noParents | notWritten | notPublished | notRemoved =>
    exact h.still hapart (by rw [hstage]; exact nofun) nofun nofun

/-! ## Steps before the directories -/

/-- What a call that is idle may do in a tree where the outcome of creating the directories is
known: end, or go on in the tree with the directories. -/
theorem Idle.move (h : Idle stages) (hmove : (calls i).Moves path t (stages i) t' stage') :
    t.makeParents path = .ok t' ∧ stage' = .writing ∨
      (t' = t ∨ ∃ e, t.makeParents path = .error (e, t')) ∧
        Idle (Function.update stages i stage') := by
  have hi := h i
  generalize hstage : stages i = stage at hmove hi
  cases hmove with
  | next =>
    rcases hi with rfl | ⟨failure, rfl⟩
    · rw [Call.next_called]
      cases hparents : t.makeParents path with
      | ok t₁ => exact .inl ⟨rfl, rfl⟩
      | error refused => exact .inr ⟨.inr ⟨refused.1, rfl⟩, h.update i⟩
    · have hsame : Function.update stages i (.ended (some failure)) = stages := by
        rw [← hstage, Function.update_eq_self]
      exact .inr ⟨.inl rfl, hsame.symm ▸ h⟩
  | noParents => exact .inr ⟨.inl rfl, h.update i⟩
  | piece | notWritten | notPublished | notRemoved =>
    rcases hi with hi | ⟨_, hi⟩ <;> exact absurd hi nofun

theorem Course.move (h : Course path calls t₀ t stages) (hapart : Apart path calls)
    (hmove : (calls i).Moves path t (stages i) t' stage') :
    Course path calls t₀ t' (Function.update stages i stage') := by
  cases h with
  | unopened hidle =>
    rcases hidle.move hmove with ⟨hparents, rfl⟩ | ⟨rfl | ⟨e, hparents⟩, hidle'⟩
    · exact .opened hparents (hidle.opened i)
    · exact .unopened hidle'
    · exact .closed hparents hidle'
  | closed hparents hidle =>
    -- the directories cannot be created this time either
    obtain ⟨e', hagain⟩ := makeParents_again hparents
    rcases hidle.move hmove with ⟨hparents', -⟩ | ⟨rfl | ⟨e, hparents'⟩, hidle'⟩
    · exact absurd (hagain.symm.trans hparents') nofun
    · exact .closed hparents hidle'
    · obtain ⟨-, rfl⟩ := Prod.mk.inj (Except.error.inj (hagain.symm.trans hparents'))
      exact .closed hparents hidle'
  | opened hparents hopened => exact .opened hparents (hopened.move hapart hparents hmove)

theorem Reached.course (h : Reached path calls t₀ t stages) (hapart : Apart path calls) :
    Course path calls t₀ t stages := by
  induction h with
  | start => exact .unopened fun _ ↦ .inl rfl
  | move i _ hmove ih => exact ih.move hapart hmove

/-! ## What readers see -/

omit [DecidableEq ι] in
/-- As long as no call has succeeded, the file looks as at the start or as it does when the
directories above it have been created. -/
theorem Course.looks (h : Course path calls t₀ t stages) :
    (∀ i, stages i ≠ .ended none) ∧ (LooksAs path t₀ t ∨ LooksAs path (t₀.prepared path) t) ∨
      ∃ i, stages i = .ended none ∧ t.read path = .ok (.text (calls i).text) ∧
        t.node? (placeOf path) = some (.file (.text (calls i).text)) := by
  rcases h with hidle | ⟨hparents, hidle⟩ | ⟨hparents, hopened⟩
  · exact .inl ⟨hidle.ne_ended_none, .inl (.refl path t₀)⟩
  · rw [prepared, hparents]
    exact .inl ⟨hidle.ne_ended_none, .inr (.refl path t)⟩
  · rw [prepared, hparents]
    rcases hopened.holds with ⟨hnone, hnode⟩ | ⟨i, hi, hlocate, hending, hnode⟩
    · have hread := read_congr (locate_of_sameDirs hparents hopened.dirs) hnode
      exact .inl ⟨hnone, .inr ⟨hread, hnode⟩⟩
    · exact .inr ⟨i, hi, read_of_locate hlocate hending hnode, hnode⟩

/-- **A reader never sees half a file.** In every state that any number of calls on one file can
reach, whatever the order of their steps and whichever of these are refused, the file reads as at
the start, and there stands what stood there at the start, as long as no call has succeeded; from
then on it reads as the complete text of a call that has. Creating the directories does not change
how the name reads, unless it goes up from a directory that was missing or has too long a step. -/
theorem Reached.seen (hclosed : t₀.Closed) (hsolid : ∀ i, Path.Solid (calls i).tag)
    (htags : ∀ i j, (calls i).tag = (calls j).tag → i = j)
    (h : Reached path calls t₀ t stages) :
    (∀ i, stages i ≠ .ended none) ∧
        (LooksAs path t₀ t ∨ ¬t₀.Ordinary path ∧ LooksAs path (t₀.prepared path) t) ∨
      ∃ i, stages i = .ended none ∧ t.read path = .ok (.text (calls i).text) ∧
        t.node? (placeOf path) = some (.file (.text (calls i).text)) := by
  rcases (h.course ⟨hsolid, htags⟩).looks with ⟨hnone, hlooks⟩ | hdone
  · refine .inl ⟨hnone, ?_⟩
    by_cases hordinary : t₀.Ordinary path
    · have hunnoticed := looksAs_prepared hclosed hordinary
      exact .inl (hlooks.elim id hunnoticed.trans)
    · exact hlooks.imp id fun hlooks ↦ ⟨hordinary, hlooks⟩
  · exact .inr hdone

/-- Two calls on a file whose directory is missing, of which one overtakes the other. -/
theorem Reached.seen_overtaken :
    ∃ (calls : Bool → Call) (t : Tree) (stages : Bool → Stage),
      Reached "out/memo.json" calls {} t stages ∧ stages false = .written ∧
        ∃ i, stages i = .ended none ∧ t.read "out/memo.json" = .ok (.text (calls i).text) := by
  let calls : Bool → Call := fun i ↦ if i then ⟨"a", "1"⟩ else ⟨"b", "2"⟩
  have hreached := Reached.turns "out/memo.json" calls {} [true, false, true, false, true]
  refine ⟨calls, _, _, hreached, by decide +kernel, ?_⟩
  rcases hreached.seen (by decide) (by decide) (by decide) with ⟨hnone, -⟩ | ⟨i, hi, hread, -⟩
  · exact absurd (by decide +kernel) (hnone true)
  · exact ⟨i, hi, hread⟩

/-- A name that goes into a missing directory and up again leads nowhere at first. When a call has
created the directory, the call fails, since the name is a directory's by then. -/
theorem Reached.not_seen_upward :
    ∃ (calls : Unit → Call) (t : Tree) (stages : Unit → Stage),
      Tree.Closed {} ∧ (∀ i, Path.Solid (calls i).tag) ∧ Reached "d/../d" calls {} t stages ∧
        ¬(t.read "d/../d" = Tree.read {} "d/../d" ∨
          ∃ i, stages i = .ended none ∧ t.read "d/../d" = .ok (.text (calls i).text)) := by
  let calls : Unit → Call := fun _ ↦ ⟨"a", "1"⟩
  have hreached := Reached.turns "d/../d" calls {} [(), (), (), ()]
  refine ⟨calls, _, _, by decide, fun () ↦ by decide, hreached, ?_⟩
  rintro (hread | ⟨i, hi, -⟩)
  · exact absurd hread (by decide +kernel)
  · cases i
    exact absurd hi (by decide +kernel)

end Interleave.Snapshot
