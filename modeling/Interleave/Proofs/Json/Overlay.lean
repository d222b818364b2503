import Interleave.Data.SortedMap.Lemmas
import Interleave.Json.Value
import Mathlib.Data.Option.Basic

/-!
# Where a value comes from

A path of keys leads from an object to a value inside it. Laying one value over another is decided
path by path: where the upper value has nothing but objects on the way and no object at the end, the
result has what the upper value has there, or else what the lower one has (`Json.at?_overlay`). So a
stack of such layers has at each path the value of the highest layer that has one
(`Json.at?_foldl_overlay`).

The fields of the upper value are laid over the lower ones one by one, so they must not have one key
twice. Whatever is read has its keys in ascending order (`Json.Tidy`), and overlaying keeps it so.
-/

namespace Interleave.Json

variable {a b v w : Json} {fs : List (String × Json)} {k : String} {path : List String}

/-! ## Fields -/

theorem lookup_cons (f : String × Json) (fs : List (String × Json)) (k : String) :
    (f :: fs).lookup k = if k = f.1 then some f.2 else fs.lookup k := by
  rw [List.lookup_cons]
  by_cases h : k = f.1
  · rw [if_pos h, beq_iff_eq.mpr h]
  · rw [if_neg h, beq_eq_false_iff_ne.mpr h]

theorem ne_of_compare {k' : String} (h : compare k k' ≠ .eq) : k ≠ k' :=
  fun heq ↦ h (heq ▸ Std.ReflCmp.compare_self)

theorem lookup_setField (fs : List (String × Json)) (k k' : String) (v : Json) :
    (setField fs k v).lookup k' = if k' = k then some v else fs.lookup k' := by
  induction fs with
  | nil => rw [setField, SortedMap.alterEntries, lookup_cons]
  | cons f fs ih =>
    rw [setField, SortedMap.alterEntries]
    split
    · rw [lookup_cons]
    · next heq =>
      obtain rfl := Std.LawfulEqCmp.eq_of_compare heq
      rw [lookup_cons, lookup_cons]
      by_cases h : k' = f.1
      · rw [if_pos h, if_pos h]
      · rw [if_neg h, if_neg h, if_neg h]
    · next hgt =>
      have hne : k ≠ f.1 := ne_of_compare (by rw [hgt]; decide)
      rw [lookup_cons, lookup_cons, ← setField, ih]
      by_cases h : k' = f.1
      · rw [if_pos h, if_pos h, if_neg (h ▸ hne.symm)]
      · rw [if_neg h, if_neg h]

theorem mem_setField {f : String × Json} (h : f ∈ setField fs k v) : f = (k, v) ∨ f ∈ fs := by
  induction fs with
  | nil => exact .inl (List.mem_singleton.mp h)
  | cons g fs ih =>
    rw [setField, SortedMap.alterEntries] at h
    split at h
    · exact List.mem_cons.mp h
    · exact (List.mem_cons.mp h).imp_right (List.mem_cons_of_mem _)
    · rcases List.mem_cons.mp h with rfl | h
      · exact .inr List.mem_cons_self
      · exact (ih h).imp_right (List.mem_cons_of_mem _)

/-- Of ascending fields no two have one key. -/
theorem lookup_eq_none_of_ascending {f : String × Json} (h : Ascending (f :: fs)) :
    fs.lookup f.1 = none := by
  rw [List.lookup_eq_none_iff]
  intro g hg
  have hlt := (List.pairwise_cons.mp h).1 g hg
  exact bne_iff_ne.mpr (ne_of_compare (by rw [hlt]; decide))

theorem mem_of_lookup (h : fs.lookup k = some v) : (k, v) ∈ fs := by
  obtain ⟨front, back, rfl, -⟩ := List.lookup_eq_some_iff.mp h
  exact List.mem_append_right _ List.mem_cons_self

/-- A field of the result is the upper field laid over the lower one of its name. -/
theorem lookup_overFields (h : Ascending fs) (lower : List (String × Json)) (k : String) :
    (overlay.overFields lower fs).lookup k =
      match fs.lookup k with
      | some v => some (overlay ((lower.lookup k).getD .null) v)
      | none => lower.lookup k := by
  induction fs generalizing lower with
  | nil => rw [overlay.overFields, List.lookup_nil]
  | cons f fs ih =>
    rw [overlay.overFields, ih (List.pairwise_cons.mp h).2, lookup_cons, lookup_setField]
    by_cases hk : k = f.1
    · rw [if_pos hk, if_pos hk, hk, lookup_eq_none_of_ascending h]
    · rw [if_neg hk, if_neg hk]

/-! ## Tidy values -/

/-- A value without fields of its own. -/
def IsLeaf (v : Json) : Prop := ∀ fs, v ≠ .object fs

@[simp] theorem isLeaf_null : IsLeaf .null := nofun

@[simp] theorem isLeaf_bool (b : Bool) : IsLeaf (.bool b) := nofun

@[simp] theorem isLeaf_number (n : Number) : IsLeaf (.number n) := nofun

@[simp] theorem isLeaf_text (s : String) : IsLeaf (.text s) := nofun

@[simp] theorem isLeaf_list (vs : List Json) : IsLeaf (.list vs) := nofun

theorem overlay_of_isLeaf (a : Json) (h : v.IsLeaf) : a.overlay v = v := by
  cases v with
  | object fs => exact absurd rfl (h fs)
  | _ => rfl

theorem overlay_object (a : Json) (fs : List (String × Json)) :
    a.overlay (.object fs) = .object (overlay.overFields a.fields fs) := by
  rw [overlay]

instance : DecidablePred IsLeaf := fun v ↦
  match v with
  | .object fs => .isFalse fun h ↦ h fs rfl
  | .null => .isTrue isLeaf_null
  | .bool b => .isTrue (isLeaf_bool b)
  | .number n => .isTrue (isLeaf_number n)
  | .text s => .isTrue (isLeaf_text s)
  | .list vs => .isTrue (isLeaf_list vs)

/-- All objects in a value, but for those in lists, have their keys in ascending order. -/
inductive Tidy : Json → Prop
  | object {fs : List (String × Json)} (ascending : Ascending fs) (fields : ∀ f ∈ fs, Tidy f.2) :
      Tidy (.object fs)
  | leaf {v : Json} (h : v.IsLeaf) : Tidy v

theorem tidy_empty : (object []).Tidy := .object .nil (List.forall_mem_nil _)

theorem tidy_object_iff :
    (object fs).Tidy ↔ Ascending fs ∧ ∀ f ∈ fs, f.2.Tidy := by
  constructor
  · intro h
    cases h with
    | object ascending fields => exact ⟨ascending, fields⟩
    | leaf h => exact absurd rfl (h fs)
  · exact fun ⟨ascending, fields⟩ ↦ .object ascending fields

theorem Tidy.fields (h : v.Tidy) : Ascending v.fields ∧ ∀ f ∈ v.fields, f.2.Tidy := by
  cases v with
  | object fs => exact tidy_object_iff.mp h
  | _ => exact ⟨.nil, List.forall_mem_nil _⟩

theorem tidy_getD_lookup (h : ∀ f ∈ fs, f.2.Tidy) (k : String) :
    ((fs.lookup k).getD .null).Tidy := by
  cases hlookup : fs.lookup k with
  | none => exact .leaf isLeaf_null
  | some v => exact h (k, v) (mem_of_lookup hlookup)

/-- Setting fields one by one keeps tidy fields tidy, if laying over each of them does. -/
theorem tidy_overFields {lower : List (String × Json)}
    (hfs : ∀ f ∈ fs, ∀ a : Json, a.Tidy → (a.overlay f.2).Tidy) (hlower : (object lower).Tidy) :
    (object (overlay.overFields lower fs)).Tidy := by
  induction fs generalizing lower with
  | nil => exact hlower
  | cons f fs ih =>
    obtain ⟨hf, hfs⟩ := List.forall_mem_cons.mp hfs
    obtain ⟨hascending, hfields⟩ := tidy_object_iff.mp hlower
    refine ih hfs (.object (SortedMap.ascending_alterEntries _ _ hascending) fun g hg ↦ ?_)
    rcases mem_setField hg with rfl | hg
    · exact hf _ (tidy_getD_lookup hfields f.1)
    · exact hfields g hg

theorem Tidy.overlay (ha : a.Tidy) (hb : b.Tidy) : (a.overlay b).Tidy := by
  induction hb generalizing a with
  | leaf h =>
    rw [overlay_of_isLeaf a h]
    exact .leaf h
  | object _ _ ih =>
    rw [overlay_object]
    exact tidy_overFields (fun f hf a ha ↦ ih f hf ha) (tidy_object_iff.mpr ha.fields)

theorem tidy_nest (path : List String) (h : v.Tidy) : (nest path v).Tidy := by
  induction path with
  | nil => exact h
  | cons k path ih =>
    exact .object (List.pairwise_singleton _ _) (List.forall_mem_singleton.mpr ih)

/-- A map of entries is tidy if its values are. -/
theorem tidy_ofList {entries : List (String × Json)} (h : ∀ e ∈ entries, e.2.Tidy) :
    (object (SortedMap.ofList entries).entries).Tidy := by
  refine .object (SortedMap.ofList entries).ascending fun e he ↦ ?_
  have hlookup := SortedMap.get?_ofList entries e.1
  rw [SortedMap.mem_entries_iff.mp he] at hlookup
  exact h e (List.mem_reverse.mp (SortedMap.mem_of_lookup hlookup.symm))

/-! ## Paths -/

/-- What a path of keys leads to. -/
def at? (v : Json) : List String → Option Json
  | [] => some v
  | k :: path => (v.fields.lookup k).bind fun w ↦ w.at? path

/-- Along a path there is nothing but objects, and what it leads to, if it leads anywhere, satisfies
`P`. -/
def Along (P : Json → Prop) (v : Json) : List String → Prop
  | [] => P v
  | k :: path => (∃ fs, v = object fs) ∧ ∀ w, v.fields.lookup k = some w → w.Along P path

instance decidableAlong (P : Json → Prop) [DecidablePred P] :
    (v : Json) → (path : List String) → Decidable (v.Along P path)
  | v, [] => inferInstanceAs (Decidable (P v))
  | .object fs, k :: path =>
    match h : fs.lookup k with
    | none => .isTrue ⟨⟨fs, rfl⟩, fun _ hw ↦ nomatch h.symm.trans hw⟩
    | some w =>
      have := decidableAlong P w path
      decidable_of_iff (w.Along P path)
        ⟨fun hw ↦ ⟨⟨fs, rfl⟩, fun _ hw' ↦ Option.some.inj (h.symm.trans hw') ▸ hw⟩,
          fun hv ↦ hv.2 w h⟩
  | .null, _ :: _ | .bool _, _ :: _ | .number _, _ :: _ | .text _, _ :: _ | .list _, _ :: _ =>
    .isFalse fun h ↦ nomatch h.1

theorem at?_append (v : Json) (path path' : List String) :
    v.at? (path ++ path') = (v.at? path).bind fun w ↦ w.at? path' := by
  induction path generalizing v with
  | nil => rfl
  | cons k path ih =>
    rw [List.cons_append, at?, at?, Option.bind_assoc]
    exact congrArg _ (funext ih)

theorem Along.imp {P Q : Json → Prop} (hPQ : ∀ v, P v → Q v) (h : v.Along P path) :
    v.Along Q path := by
  induction path generalizing v with
  | nil => exact hPQ v h
  | cons k path ih => exact ⟨h.1, fun w hw ↦ ih (h.2 w hw)⟩

theorem Along.of_at? {P : Json → Prop} (h : v.Along P path)
    (hw : v.at? path = some w) : P w := by
  induction path generalizing v with
  | nil => exact Option.some.inj hw ▸ h
  | cons k path ih =>
    obtain ⟨u, hu, hw⟩ := Option.bind_eq_some_iff.mp hw
    exact ih (h.2 u hu) hw

/-- What is laid over something hides it, or leaves it as it is. -/
theorem at?_overlay (hb : b.Tidy) (h : b.Along IsLeaf path) :
    (a.overlay b).at? path = (b.at? path).or (a.at? path) := by
  induction path generalizing a b with
  | nil => rw [overlay_of_isLeaf a h, at?, Option.some_or]
  | cons k path ih =>
    obtain ⟨⟨fs, rfl⟩, hinner⟩ := h
    obtain ⟨hascending, hfields⟩ := tidy_object_iff.mp hb
    rw [overlay_object, at?, fields, lookup_overFields hascending, at?, fields]
    cases hk : fs.lookup k with
    | none => rw [Option.bind_none, Option.none_or, at?]
    | some v =>
      have hv : v.Tidy := hfields (k, v) (mem_of_lookup hk)
      rw [Option.bind_some, Option.bind_some, ih hv (hinner v hk), at?]
      cases a.fields.lookup k with
      | some w => rfl
      | none =>
        -- null stands in for the missing lower field, and a path of no keys leads to it
        cases path with
        | nil => rfl
        | cons _ _ => rfl

theorem at?_empty (h : path ≠ []) : (object []).at? path = none := by
  cases path with
  | nil => exact absurd rfl h
  | cons k path => rfl

/-! ## Stacks -/

/-- What the highest layer that has something at a path has there; the lowest layer comes first. -/
def highest? (layers : List Json) (path : List String) : Option Json :=
  layers.reverse.findSome? (·.at? path)

theorem highest?_cons (layer : Json) (layers : List Json) (path : List String) :
    highest? (layer :: layers) path = (highest? layers path).or (layer.at? path) := by
  rw [highest?, List.reverse_cons, List.findSome?_append, List.findSome?_singleton, highest?]

theorem at?_foldl_overlay {layers : List Json}
    (h : ∀ layer ∈ layers, layer.Tidy ∧ layer.Along IsLeaf path) :
    (layers.foldl overlay a).at? path = (highest? layers path).or (a.at? path) := by
  induction layers generalizing a with
  | nil => rw [List.foldl_nil, highest?, List.reverse_nil, List.findSome?_nil, Option.none_or]
  | cons layer layers ih =>
    obtain ⟨⟨htidy, hleaf⟩, h⟩ := List.forall_mem_cons.mp h
    rw [List.foldl_cons, ih h, at?_overlay htidy hleaf, highest?_cons, Option.or_assoc]

theorem exists_of_highest? {layers : List Json} (h : highest? layers path = some v) :
    ∃ layer ∈ layers, layer.at? path = some v := by
  obtain ⟨layer, hlayer, hv⟩ := List.exists_of_findSome?_eq_some h
  exact ⟨layer, List.mem_reverse.mp hlayer, hv⟩

end Interleave.Json
