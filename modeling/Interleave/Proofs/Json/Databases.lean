import Interleave.Databases
import Interleave.Proofs.Json.Records

/-!
# Every database is read back from its text

Six types of value are kept in files: the snapshots of the registry, the catalog, the memo, the
races and the history, and the progress of a search. Their texts decode to the values they were made
of, on one line as in the indented form. Each shape is put together from those of numbers, texts,
flags and constants, so each proof goes down the fields of its record and asks for nothing but
different names.

An optional field has two ways to be without a value, left out or null. Only the first is written,
and both are read as no value; so the values of such a field must not be written as null themselves.
-/

namespace Interleave

theorem Id.readsBack {k : Kind} (id : Id k) : Id.shape.ReadsBack id :=
  (Shape.readsBack_word32 id.val).iso rfl

theorem Id.readsBack_list {k : Kind} (ids : List (Id k)) : (Shape.list Id.shape).ReadsBack ids :=
  .list fun id _ ↦ id.readsBack

/-- A flag that is left out if it is not known. -/
theorem Field.readsBack_flag (name : String) (o : Option Bool) :
    if (omittable name Shape.bool).hidden o then (omittable name Shape.bool).absent = some o
    else (omittable name Shape.bool).shape.ReadsBack o :=
  readsBack_omittable name fun b _ ↦ ⟨Shape.readsBack_bool b, nofun⟩

/-! ## The registry -/

theorem Image.readsBack (i : Image) : Image.shape.ReadsBack i :=
  Shape.readsBack_record (by decide) ⟨i.id.readsBack, Shape.readsBack_textAs _ i.name, trivial⟩ rfl

theorem SourceLine.readsBack (d : SourceLine) : SourceLine.shape.ReadsBack d :=
  Shape.readsBack_record (by decide)
    ⟨Shape.readsBack_textAs _ d.file, Shape.readsBack_word32 d.line, trivial⟩ rfl

theorem Inst.readsBack (i : Inst) : Inst.shape.ReadsBack i :=
  Shape.readsBack_record (by decide)
    ⟨i.id.readsBack, i.image.readsBack, Shape.readsBack_word64 i.offset,
      Field.readsBack_omittable "debug_info" fun d _ ↦ ⟨d.readsBack, nofun⟩, trivial⟩ rfl

theorem Registry.Snapshot.readsBack (s : Snapshot) : Snapshot.shape.ReadsBack s :=
  Shape.readsBack_record (by decide)
    ⟨.list fun i _ ↦ i.readsBack, .list fun i _ ↦ i.readsBack, trivial⟩ rfl

/-! ## The catalog -/

theorem EventKind.readsBack (k : EventKind) : EventKind.shape.ReadsBack k := by
  refine Shape.readsBack_choice (by cases k <;> decide) fun k' _ ↦ ?_
  cases k' <;> cases k <;> decide

theorem Idiom.readsBack (i : Idiom) : Idiom.shape.ReadsBack i := by
  refine Shape.readsBack_choice (by cases i <;> decide) fun i' _ ↦ ?_
  cases i' <;> cases i <;> decide

theorem Event.readsBack (e : Event) : Event.shape.ReadsBack e :=
  Shape.readsBack_record (by decide)
    ⟨e.id.readsBack, e.inst.readsBack, e.kind.readsBack, trivial⟩ rfl

theorem IRoot.readsBack (r : IRoot) : IRoot.shape.ReadsBack r :=
  Shape.readsBack_record (by decide)
    ⟨r.id.readsBack, r.idiom.readsBack, Id.readsBack_list r.events, trivial⟩ rfl

theorem Catalog.Snapshot.readsBack (s : Snapshot) : Snapshot.shape.ReadsBack s :=
  Shape.readsBack_record (by decide)
    ⟨.list fun e _ ↦ e.readsBack, .list fun r _ ↦ r.readsBack, trivial⟩ rfl

/-! ## The memo -/

theorem Evidence.readsBack (e : Evidence) : Evidence.shape.ReadsBack e :=
  Shape.readsBack_record (by decide)
    ⟨e.iroot.readsBack, Shape.readsBack_word32 e.runs, Field.readsBack_flag "is_async" e.isAsync,
      trivial⟩ rfl

namespace Memo

theorem CandidateRecord.readsBack (r : CandidateRecord) : CandidateRecord.shape.ReadsBack r :=
  Shape.readsBack_record (by decide)
    ⟨r.iroot.readsBack, Shape.readsBack_word32 r.runs, trivial⟩ rfl

theorem Snapshot.readsBack (s : Snapshot) : Snapshot.shape.ReadsBack s :=
  Shape.readsBack_record (by decide)
    ⟨.list fun r _ ↦ r.readsBack, Id.readsBack_list s.exposed, Id.readsBack_list s.failed,
      Id.readsBack_list s.predicted, Id.readsBack_list s.shadowExposed, .list fun r _ ↦ r.readsBack,
      trivial⟩ rfl

end Memo

/-! ## Races, history, search -/

theorem RaceEvent.readsBack (e : RaceEvent) : RaceEvent.shape.ReadsBack e :=
  Shape.readsBack_record (by decide)
    ⟨Shape.readsBack_word32 e.id, e.inst.readsBack, e.kind.readsBack, trivial⟩ rfl

theorem Race.readsBack (r : Race) : Race.shape.ReadsBack r :=
  Shape.readsBack_record (by decide)
    ⟨Shape.readsBack_word32 r.id, .list fun e _ ↦ Shape.readsBack_word32 e, trivial⟩ rfl

theorem RaceDb.Snapshot.readsBack (s : Snapshot) : Snapshot.shape.ReadsBack s :=
  Shape.readsBack_record (by decide)
    ⟨.list fun e _ ↦ e.readsBack, .list fun r _ ↦ r.readsBack, Id.readsBack_list s.racyInsts,
      trivial⟩ rfl

theorem HistoryEntry.readsBack (e : HistoryEntry) : HistoryEntry.shape.ReadsBack e :=
  Shape.readsBack_record (by decide)
    ⟨e.iroot.readsBack, Shape.readsBack_word64 e.seed, Field.readsBack_flag "success" e.success,
      trivial⟩ rfl

theorem History.Snapshot.readsBack (s : Snapshot) : Snapshot.shape.ReadsBack s :=
  Shape.readsBack_record (by decide) ⟨.list fun e _ ↦ e.readsBack, trivial⟩ rfl

theorem SearchInfo.readsBack (s : SearchInfo) : SearchInfo.shape.ReadsBack s :=
  Shape.readsBack_record (by decide)
    ⟨Shape.readsBack_bool s.done, Shape.readsBack_word64 s.runs, trivial⟩ rfl

/-! ## Texts -/

/-- Every value is the one that its text decodes to, on one line and in the indented form. -/
def Shape.RoundTrips {α : Type} (s : Shape α) : Prop :=
  ∀ a, s.decodeText (s.compact a) = .ok a ∧ s.decodeText (s.pretty a) = .ok a

theorem Shape.RoundTrips.of_readsBack {α : Type} {s : Shape α} (h : ∀ a, s.ReadsBack a) :
    s.RoundTrips := fun a ↦ ⟨(h a).decodeText_compact, (h a).decodeText_pretty⟩

/-- **Decoding undoes encoding.** All that is kept in files is read back from its text as it was:
whatever the numbers and texts in it, however long its lists, whichever of its optional fields have
a value. -/
theorem databases_roundTrip :
    Registry.Snapshot.shape.RoundTrips ∧ Catalog.Snapshot.shape.RoundTrips ∧
      Memo.Snapshot.shape.RoundTrips ∧ RaceDb.Snapshot.shape.RoundTrips ∧
      History.Snapshot.shape.RoundTrips ∧ SearchInfo.shape.RoundTrips :=
  ⟨.of_readsBack Registry.Snapshot.readsBack, .of_readsBack Catalog.Snapshot.readsBack,
    .of_readsBack Memo.Snapshot.readsBack, .of_readsBack RaceDb.Snapshot.readsBack,
    .of_readsBack History.Snapshot.readsBack, .of_readsBack SearchInfo.readsBack⟩

/-- A field without a value is not written. -/
example : History.Snapshot.shape.compact ⟨[⟨⟨1⟩, 2, none⟩, ⟨⟨3⟩, 4, some true⟩]⟩ =
    "\x7b\"history\":[\x7b\"iroot_id\":1,\"seed\":2\x7d," ++
      "\x7b\"iroot_id\":3,\"seed\":4,\"success\":true\x7d]\x7d" := by
  rfl

/-- Of a text only quotes, backslashes and control characters are escaped. -/
example : Registry.Snapshot.shape.pretty ⟨[⟨⟨0⟩, "/a \"\\\n𝔸"⟩], []⟩ =
    "\x7b\n  \"images\": [\n    \x7b\n      \"id\": 0,\n      \"name\": \"/a \\\"\\\\\\n𝔸\"\n" ++
      "    \x7d\n  ],\n  \"insts\": []\n\x7d" := by
  rfl

end Interleave
