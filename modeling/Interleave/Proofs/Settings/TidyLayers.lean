import Interleave.Proofs.Json.Overlay
import Interleave.Settings.Load

/-!
# Layers as they are read

A reader should read *tidy* layers, in which objects have their keys in ascending order, at any
depth (`SettingsReader.Tidy`). The standard reader does: in a document as in a value of the
environment a map is made of its entries by `SortedMap.ofList` (`SettingsReader.tidy_standard`).
Lists need no attention, since nothing is laid over what is in them.
-/

namespace Interleave

/-! ## Documents -/

namespace Yaml

variable {node : NodeReader} {ts : List Token} {v : Json}

theorem isLeaf_of_scalar? {l : Lexeme} (h : l.scalar? = some v) : v.IsLeaf := by
  have hplain (s : String) : (plainValue s).IsLeaf := by
    rw [plainValue]
    repeat' split
    all_goals simp
  cases l with
  | plain s => exact Option.some.inj h ▸ hplain s
  | quoted s => exact Option.some.inj h ▸ Json.isLeaf_text s
  | _ => contradiction

/-- Only tidy values are read. -/
def ReadsTidy (node : NodeReader) : Prop := ∀ ts v r, node ts = some (v, r) → v.Tidy

namespace ReadsTidy

theorem flowValue (h : ReadsTidy node) {t : Tail ts} (hv : flowValue node ts = some (v, t)) :
    v.Tidy := by
  rw [Yaml.flowValue] at hv
  split at hv
  · obtain ⟨rfl, -⟩ := Prod.mk.inj (Option.some.inj hv)
    exact .leaf Json.isLeaf_null
  · obtain ⟨⟨w, r⟩, hw, heq⟩ := Option.map_eq_some_iff.mp hv
    obtain ⟨rfl, -⟩ := Prod.mk.inj heq
    exact h ts w r hw

theorem flowEntry (h : ReadsTidy node) {k : Json} {value : Option Json} {r : Rest ts}
    (hk : flowEntry node ts = some ((k, value), r)) : (value.getD .null).Tidy := by
  rw [Yaml.flowEntry] at hk
  split at hk
  · contradiction
  · split at hk
    · obtain ⟨⟨⟩⟩ := hk
      exact .leaf Json.isLeaf_null
    · split at hk
      · obtain ⟨⟨w, q⟩, hw, ⟨⟩⟩ := Option.map_eq_some_iff.mp hk
        exact h.flowValue hw
      · obtain ⟨⟨⟩⟩ := hk
        exact .leaf Json.isLeaf_null

theorem flowEntries (h : ReadsTidy node) {close : Lexeme} {entries : List (String × Json)}
    {r : Rest ts} (hentries : flowEntries node close mapEntry ts = some (entries, r)) :
    ∀ e ∈ entries, e.2.Tidy := by
  fun_induction Yaml.flowEntries node close mapEntry ts generalizing entries with
  | case1 => contradiction
  | case2 =>
    obtain ⟨⟨⟩⟩ := hentries
    exact List.forall_mem_nil _
  | case4 t rest _ k value r hentry e c q _ hmake =>
    obtain ⟨⟨⟩⟩ := hentries
    obtain ⟨key, -, rfl⟩ := Option.map_eq_some_iff.mp hmake
    exact List.forall_mem_singleton.mpr (h.flowEntry hentry)
  | case5 t rest _ k value r hentry e c q _ hmake _ _ _ ih =>
    obtain ⟨⟨es, q'⟩, hes, ⟨⟩⟩ := Option.map_eq_some_iff.mp hentries
    obtain ⟨key, -, rfl⟩ := Option.map_eq_some_iff.mp hmake
    exact List.forall_mem_cons.mpr ⟨h.flowEntry hentry, ih hes⟩
  | _ => contradiction

theorem optionalNode (h : ReadsTidy node) {has : Token → Bool} {t : Tail ts}
    (hv : optionalNode node has ts = some (v, t)) : v.Tidy := by
  rw [Yaml.optionalNode] at hv
  split at hv
  · obtain ⟨⟨_, r⟩, hnode, ⟨⟩⟩ := Option.map_eq_some_iff.mp hv
    exact h ts v r hnode
  · obtain ⟨⟨⟩⟩ := hv
    exact .leaf Json.isLeaf_null

theorem blockEntries (h : ReadsTidy node) {column : ℕ} {entries : List (String × Json)}
    {t : Tail ts} (hentries : blockEntries node column ts = some (entries, t)) :
    ∀ e ∈ entries, e.2.Tidy := by
  fun_induction Yaml.blockEntries node column ts generalizing entries with
  | case1 | case2 | case7 =>
    obtain ⟨⟨⟩⟩ := hentries
    exact List.forall_mem_nil _
  | case6 _ _ _ _ k v r hnode =>
    rename_i ih
    obtain ⟨⟨es, q⟩, hes, ⟨⟩⟩ := Option.map_eq_some_iff.mp hentries
    exact List.forall_mem_cons.mpr ⟨h.optionalNode hnode, ih hes⟩
  | _ => contradiction

end ReadsTidy

theorem tidy_mapOf {entries : List (String × Json)} (h : ∀ e ∈ entries, e.2.Tidy) :
    (mapOf entries).Tidy := Json.tidy_ofList h

/-- Behind a bracket there are entries, or else there is nothing over which something is laid. -/
theorem flowNode_cases {depth : ℕ} {r : Rest ts} (h : flowNode depth ts = some (v, r)) :
    v.IsLeaf ∨ ∃ inner rest entries, ∃ q : Rest rest, depth = inner + 1 ∧
      flowEntries (flowNode inner) .closeMap mapEntry rest = some (entries, q) ∧
        v = mapOf entries := by
  cases ts with
  | nil =>
    rw [flowNode] at h
    contradiction
  | cons t rest =>
    cases hscalar : t.lexeme.scalar? with
    | some w =>
      rw [flowNode.eq_2 _ _ _ _ hscalar] at h
      obtain ⟨⟨⟩⟩ := h
      exact .inl (isLeaf_of_scalar? hscalar)
    | none =>
      cases depth with
      | zero =>
        rw [flowNode.eq_3 _ _ hscalar] at h
        contradiction
      | succ inner =>
        unfold flowNode at h
        simp only [hscalar] at h
        split at h
        · obtain ⟨⟨vs, q⟩, -, ⟨⟩⟩ := Option.map_eq_some_iff.mp h
          exact .inl (Json.isLeaf_list vs)
        · obtain ⟨⟨entries, q⟩, hentries, ⟨⟩⟩ := Option.map_eq_some_iff.mp h
          exact .inr ⟨inner, rest, entries, q, rfl, hentries, rfl⟩
        · contradiction

theorem readsTidy_flowNode (depth : ℕ) : ReadsTidy (flowNode depth) := by
  induction depth with
  | zero =>
    intro ts v r h
    rcases flowNode_cases h with h | ⟨_, _, _, _, hdepth, -, -⟩
    · exact .leaf h
    · contradiction
  | succ depth ih =>
    intro ts v r h
    rcases flowNode_cases h with h | ⟨_, _, _, _, ⟨⟩, hentries, rfl⟩
    · exact .leaf h
    · exact tidy_mapOf (ih.flowEntries hentries)

theorem readsTidy_blockNode (depth : ℕ) : ReadsTidy (blockNode depth) := by
  induction depth with
  | zero =>
    intro ts v r h
    cases ts with
    | nil => contradiction
    | cons t rest =>
      rw [blockNode] at h
      · split at h
        · contradiction
        · exact readsTidy_flowNode 0 _ _ _ h
      · exact List.cons_ne_nil t rest
  | succ depth ih =>
    intro ts v r h
    cases ts with
    | nil => contradiction
    | cons t rest =>
      rw [blockNode] at h
      split at h
      · split at h
        · obtain ⟨q, -, ⟨⟩⟩ := Option.map_eq_some_iff.mp h
          exact .leaf (Json.isLeaf_list _)
        · contradiction
      · split at h
        · split at h
          · next hentries =>
            obtain ⟨q, -, ⟨⟩⟩ := Option.map_eq_some_iff.mp h
            exact tidy_mapOf (ih.blockEntries hentries)
          · contradiction
        · exact readsTidy_flowNode _ _ _ _ h

theorem tidy_of_read? {s : String} (h : read? s = some v) : v.Tidy := by
  obtain ⟨ts, -, hread⟩ := Option.bind_eq_some_iff.mp h
  rw [ofTokens?] at hread
  split at hread
  · obtain ⟨⟨⟩⟩ := hread
    exact Json.tidy_empty
  · split at hread
    · next hnode =>
      split at hread
      · obtain ⟨⟨⟩⟩ := hread
        exact readsTidy_blockNode _ _ _ _ hnode
      · contradiction
    · contradiction

end Yaml

/-! ## Variables -/

namespace Environment

variable {s : List Char} {v : Json}

/-- Only tidy values are read. -/
def ReadsTidy (value : ValueReader Json) : Prop := ∀ s v t, value s = some (v, t) → v.Tidy

/-- What holds of each item holds of all. -/
theorem forall_of_readItems {α : Type} {P : α → Prop} {item : ValueReader α} {close : Char}
    (hitem : ∀ s a t, item s = some (a, t) → P a) {as : List α} {t : Tail s}
    (h : readItems item close s = some (as, t)) : ∀ a ∈ as, P a := by
  fun_induction readItems item close s generalizing as with
  | case2 =>
    obtain ⟨⟨⟩⟩ := h
    exact List.forall_mem_nil _
  | case5 c s _ a q hread =>
    rename_i ih
    obtain ⟨⟨rest, q'⟩, hrest, ⟨⟩⟩ := Option.map_eq_some_iff.mp h
    exact List.forall_mem_cons.mpr ⟨hitem _ _ _ hread, ih hrest⟩
  | case6 c s _ a q hread =>
    obtain ⟨⟨⟩⟩ := h
    exact List.forall_mem_singleton.mpr (hitem _ _ _ hread)
  | _ => contradiction

theorem ReadsTidy.readEntry {value : ValueReader Json} (h : ReadsTidy value) (s : List Char)
    (e : String × Json) (t : Tail s) (he : readEntry value s = some (e, t)) : e.2.Tidy := by
  rw [Environment.readEntry] at he
  split at he
  · contradiction
  · split at he
    · next hvalue =>
      obtain ⟨⟨v, q⟩, hvalue, ⟨⟩⟩ := Option.map_eq_some_iff.mp he
      exact h _ _ _ hvalue
    · contradiction

theorem isLeaf_bareValue (s : List Char) : (bareValue s).IsLeaf := by
  rw [bareValue]
  repeat' split
  all_goals simp

theorem ReadsTidy.readValueAt {value : ValueReader Json} (h : ReadsTidy value) :
    ReadsTidy (readValueAt value) := by
  intro s v t hv
  fun_cases Environment.readValueAt value s with
  | case1 =>
    obtain ⟨⟨fs, q⟩, hfs, ⟨⟩⟩ := Option.map_eq_some_iff.mp hv
    exact Json.tidy_ofList (forall_of_readItems h.readEntry hfs)
  | case2 =>
    obtain ⟨⟨vs, q⟩, -, ⟨⟩⟩ := Option.map_eq_some_iff.mp hv
    exact .leaf (Json.isLeaf_list _)
  | case3 =>
    obtain ⟨⟨text, q⟩, -, ⟨⟩⟩ := Option.map_eq_some_iff.mp hv
    exact .leaf (Json.isLeaf_text _)
  | case4 =>
    obtain ⟨⟨⟩⟩ := hv
    exact .leaf (Json.isLeaf_text _)
  | case5 s hquote =>
    rw [Environment.readValueAt] at hv
    · contradiction
    · exact hquote
  | case6 s hmap hlist htext hquote =>
    rw [Environment.readValueAt] at hv
    · obtain ⟨⟨⟩⟩ := hv
      exact .leaf (isLeaf_bareValue _)
    · exact hmap
    · exact hlist
    · exact htext
    · exact hquote

theorem readsTidy_readValue (depth : ℕ) : ReadsTidy (readValue depth) := by
  induction depth with
  | zero =>
    intro s v t h
    rw [readValue] at h
    contradiction
  | succ depth ih =>
    intro s v t h
    rw [readValue] at h
    obtain ⟨⟨w, q⟩, hread, ⟨⟩⟩ := Option.map_eq_some_iff.mp h
    split at hread
    · obtain ⟨⟨⟩⟩ := hread
      exact .leaf (Json.isLeaf_bool _)
    · split at hread
      · obtain ⟨⟨⟩⟩ := hread
        exact .leaf (Json.isLeaf_bool _)
      · exact ih.readValueAt _ _ _ hread

theorem tidy_value (s : String) : (value s).Tidy := by
  rw [value]
  split
  · next h =>
    split
    · exact readsTidy_readValue _ _ _ _ h
    · exact .leaf (Json.isLeaf_text _)
  · exact .leaf (Json.isLeaf_text _)

theorem tidy_settings (mark between : String) (env : Environment) :
    (settings mark between env).Tidy := by
  rw [settings]
  refine List.foldlRecOn env _ (Json.tidy_empty) fun layer hlayer entry _ ↦ ?_
  obtain ⟨name, text⟩ := entry
  dsimp only
  split
  · exact hlayer.overlay (Json.tidy_nest _ (tidy_value text))
  · exact hlayer

end Environment

/-! ## Readers -/

namespace SettingsReader

/-- Whatever is read has each key of an object once, in ascending order. -/
structure Tidy (reader : SettingsReader) : Prop where
  document : ∀ {c : Content} {v : Json}, reader.document c = some v → v.Tidy
  environment : ∀ mark between env, (reader.environment mark between env).Tidy

theorem tidy_standard : standard.Tidy where
  document {c _} h := by
    cases c with
    | text s => exact Yaml.tidy_of_read? h
    | raw _ => contradiction
  environment := Environment.tidy_settings

variable {reader : SettingsReader} {t t' : Tree} {file file' : String}

theorem file?_congr (h : (t'.read file').toOption = (t.read file).toOption) :
    reader.file? t' file' = reader.file? t file := by
  rw [file?, file?, h]

theorem file?_of_missing (h : ∀ c, t.read file ≠ .ok c) :
    reader.file? t file = some (.object []) := by
  rw [file?]
  cases hread : t.read file with
  | error e => rfl
  | ok c => exact absurd hread (h c)

theorem file?_of_read {c : Content} {fs : List (String × Json)} (hread : t.read file = .ok c)
    (hfields : reader.document c = some (.object fs)) :
    reader.file? t file = some (.object fs) := by
  rw [file?, hread]
  exact Option.filter_eq_some_iff.mpr ⟨hfields, rfl⟩

theorem Tidy.of_file? (hreader : reader.Tidy) {layer : Json}
    (h : reader.file? t file = some layer) : layer.Tidy := by
  rw [file?] at h
  split at h
  · exact Option.some.inj h ▸ Json.tidy_empty
  · exact hreader.document (Option.filter_eq_some_iff.mp h).1

end SettingsReader

end Interleave
