import Interleave.Data.SortedMap
import Interleave.Json.Shape

/-!
# Records

A record is an object with known fields, each with a shape of its own. It is written with its
fields in their declared order. It is read from an object in any order, unknown fields being
skipped, or from a list of the field values in declared order.

A field says separately what it is worth if an object has no such field (`absent`), and if a list
ends before it (`short`); a field without a value there has to be given. While an object is read,
the fields seen so far stand in slots, one for each field. A field given twice is a fault as soon as
its second name has been read; a missing one, when the object ends.
-/

namespace Interleave

/-- One field of a record. -/
structure Field (α : Type) where
  name : String
  shape : Shape α
  absent : Option α := none
  short : Option α := absent
  /-- Values with which the field is not written at all. -/
  hidden : α → Bool := fun _ ↦ false

/-- The fields of a record, indexed by the tuple of their types. -/
inductive Fields : Type → Type 1 where
  | nil : Fields Unit
  | cons {α β : Type} (f : Field α) (rest : Fields β) : Fields (α × β)

namespace Field

variable {α : Type}

/-- A field that has to be given. -/
def required (name : String) (s : Shape α) : Field α := { name, shape := s }

/-- A field with a default value. -/
def withDefault (name : String) (s : Shape α) (a : α) : Field α :=
  { name, shape := s, absent := some a }

/-- A field that may be null; an object may leave it out, a list may not end before it. -/
def nullable (name : String) (s : Shape α) : Field (Option α) :=
  { name, shape := s.optional, absent := some none, short := none }

/-- A field that may be left out, and is not written if it is. -/
def omittable (name : String) (s : Shape α) : Field (Option α) :=
  { name, shape := s.optional, absent := some none, hidden := Option.isNone }

end Field

namespace Fields

open Json

/-- Room for the values of the fields seen so far. -/
def Slots : {τ : Type} → Fields τ → Type
  | _, .nil => Unit
  | _, @cons α _ _ rest => Option α × rest.Slots

def noSlots : {τ : Type} → (fs : Fields τ) → fs.Slots
  | _, .nil => ()
  | _, .cons _ rest => (none, rest.noSlots)

def names : {τ : Type} → Fields τ → List String
  | _, .nil => []
  | _, .cons f rest => f.name :: rest.names

def size {τ : Type} (fs : Fields τ) : Nat := fs.names.length

def write : {τ : Type} → Fields τ → τ → List (String × Json)
  | _, .nil, _ => []
  | _, .cons f rest, (a, as) =>
    if f.hidden a then rest.write as else (f.name, f.shape.write a) :: rest.write as

/-- What to do with the value of a named field. -/
inductive Entry (σ : Type) where
  | unknown
  | duplicate
  | value (read : Reader σ)

/-- What to do where the state is part of a larger one. -/
def Entry.map {σ σ' : Type} (f : σ → σ') : Entry σ → Entry σ'
  | .unknown => .unknown
  | .duplicate => .duplicate
  | .value read => .value fun s ↦ (read s).map fun (a, r) ↦ (f a, r)

/-- The field of a given name, together with the slots. -/
def entry : {τ : Type} → (fs : Fields τ) → String → fs.Slots → Entry fs.Slots
  | _, .nil, _, _ => .unknown
  | _, @cons α _ f rest, key, filled =>
    let (slot, slots) : Option α × rest.Slots := filled
    if key = f.name then
      match slot with
      | some _ => .duplicate
      | none => .value fun s ↦ (f.shape.read s).map fun (a, r) ↦ ((some a, slots), r)
    else (rest.entry key slots).map fun slots ↦ (slot, slots)

/-- What a key means: its field is read into its slot. Unknown fields are skipped, or refused if the
record is closed. -/
def enter {τ : Type} (fs : Fields τ) (closed : Bool) (key : String) (slots : fs.Slots) :
    Except Fault (Reader fs.Slots) :=
  match fs.entry key slots with
  | .value read => .ok read
  | .duplicate => .error (.duplicateField key)
  | .unknown =>
    if closed then .error (.unknownField key fs.names)
    else .ok fun s ↦ (skipValue s).map fun (_, r) ↦ (slots, r)

/-- The record of filled slots; the first field without a value is missing. -/
def finish : {τ : Type} → (fs : Fields τ) → fs.Slots → Except Fault τ
  | _, .nil, _ => .ok ()
  | _, @cons α _ f rest, filled =>
    let (slot, slots) : Option α × rest.Slots := filled
    match slot.or f.absent with
    | none => .error (.missingField f.name)
    | some a => (rest.finish slots).map fun as ↦ (a, as)

/-- Reads the fields from the items of a list. `index` counts the fields before. -/
def readInOrder : {τ : Type} → Fields τ → (wanted : String) → (index : Nat) → (first : Bool) →
    TailReader τ
  | _, .nil, _, _, _, s => .ok ((), .all s)
  | _, .cons f rest, wanted, index, first, s =>
    match nextItem first s with
    | .error e => .error e
    | .ok (false, t) =>
      match f.short with
      | none => .error (.invalidLength index wanted)
      | some a =>
        (rest.readInOrder wanted (index + 1) first t.left).map fun (as, q) ↦
          ((a, as), t.andTail q)
    | .ok (true, t) =>
      match f.shape.read t.left with
      | .error e => .error e
      | .ok (a, r) =>
        (rest.readInOrder wanted (index + 1) false r.left).map fun (as, q) ↦
          ((a, as), ((t.andThen r).andTail q).toTail)

/-- Takes the fields out of the fields of an object. -/
def adoptFields : {τ : Type} → Fields τ → List (String × Json) → Option τ
  | _, .nil, _ => some ()
  | _, .cons f rest, given => do
    let a ← match given.lookup f.name with
      | some v => f.shape.adopt v
      | none => f.absent
    let as ← rest.adoptFields given
    return (a, as)

/-- Takes the fields out of the items of a list. -/
def adoptInOrder : {τ : Type} → Fields τ → List Json → Option τ
  | _, .nil, _ => some ()
  | _, .cons f rest, [] => do
    let a ← f.short
    let as ← rest.adoptInOrder []
    return (a, as)
  | _, .cons f rest, v :: vs => do
    let a ← f.shape.adopt v
    let as ← rest.adoptInOrder vs
    return (a, as)

end Fields

namespace Json

/-! ## Objects -/

/-- What comes next in an object. -/
inductive Key (s : List Char) where
  | close (rest : Rest s)
  | name (key : String) (rest : Rest s)

/-- Reads the next key of an object, over the comma if fields precede it, or the closing brace. -/
def readKey (first : Bool) (s : List Char) : Except Fault (Key s) :=
  match front s with
  | none => .error (.endOfText .object)
  | some (c, rest) =>
    let named := fun (q : Rest s) ↦
      (readText q.left).map fun (key, r) ↦ Key.name key (q.andThen r)
    if c = '\x7d' then .ok (.close rest)
    else if c = ',' ∧ !first then
      match front rest.left with
      | none => .error (.endOfText .value)
      | some (d, r) =>
        if d = '"' then named (rest.andThen r)
        else .error (if d = '\x7d' then .trailingComma else .keyNotString)
    else if first then
      if c = '"' then named rest else .error .keyNotString
    else .error .expectedObjectEnd

/-- Reads the colon behind a key. -/
def readColon : Reader Unit := fun s ↦
  match front s with
  | none => .error (.endOfText .object)
  | some (c, rest) => if c = ':' then .ok ((), rest) else .error .expectedColon

/-- Reads the fields of an object into a state. `enter` says what a key means. -/
def readObject {σ : Type} (enter : String → σ → Except Fault (Reader σ)) (state : σ) (first : Bool)
    (s : List Char) : Except Fault (σ × Rest s) :=
  match readKey first s with
  | .error e => .error e
  | .ok (.close r) => .ok (state, r)
  | .ok (.name key k) =>
    match enter key state with
    | .error e => .error e
    | .ok read =>
      match readColon k.left with
      | .error e => .error e
      | .ok (_, c) =>
        match read c.left with
        | .error e => .error e
        | .ok (state, v) =>
          let left := (k.andThen c).andThen v
          have := left.shorter
          match readObject enter state false left.left with
          | .error e => .error e
          | .ok (state, q) => .ok (state, left.andThen q)
termination_by s.length
decreasing_by exact this

end Json

/-- Reads a record behind its brace, by the names of the fields. `into` may refuse the values. -/
def Fields.readByName {α τ : Type} (fs : Fields τ) (closed : Bool) (into : τ → Except Fault α) :
    Reader α := fun s ↦
  match Json.readObject (fs.enter closed) fs.noSlots true s with
  | .error e => .error e
  | .ok (slots, r) =>
    match fs.finish slots with
    | .error e => .error e
    | .ok as => (into as).map fun a ↦ (a, r)

namespace Shape

open Json

variable {α τ : Type}

/-- A record with `name` in messages. If `closed`, unknown fields are refused; `lengthWanted` is
what messages expect in place of a list that is too short; `into` may refuse the values. -/
def recordWith (name lengthWanted : String) (closed : Bool) (fs : Fields τ) (out : α → τ)
    (into : τ → Except Fault α) : Shape α where
  write a := .object (fs.write (out a))
  read := readBy name fun c rest ↦
    if c = '[' then
      some (match fs.readInOrder lengthWanted 0 true rest with
        | .error e => .error e
        | .ok (as, t) =>
          match into as with
          | .error e => .error e
          | .ok a => (endList t.left).map fun (_, r) ↦
            (a, (t.andThen r).toTail))
    else if c = '\x7b' then
      some ((fs.readByName closed into rest).map fun (a, r) ↦ (a, r.toTail))
    else none
  adopt
    | .object given => (fs.adoptFields given).bind fun as ↦ (into as).toOption
    | .list vs => (fs.adoptInOrder vs).bind fun as ↦ (into as).toOption
    | _ => none

/-- A record of a named type, whose values correspond to the tuples of its fields. -/
def record (name : String) (fs : Fields τ) (out : α → τ) (into : τ → α) : Shape α :=
  let elements := if fs.size = 1 then " element" else " elements"
  recordWith ("struct " ++ name)
    ("struct " ++ name ++ " with " ++ toString fs.size ++ elements) false fs out
    fun as ↦ .ok (into as)

/-- An object that maps texts to texts; of two fields with one name the later counts. -/
def table : Shape (SortedMap String String) where
  write m := .object (m.entries.map fun (k, v) ↦ (k, .text v))
  read := readBy "a map" fun c rest ↦
    if c = '\x7b' then
      let enter := fun (key : String) (m : SortedMap String String) ↦
        (Except.ok fun s ↦ (readString "a string" s).map fun (v, r) ↦ (m.insert key v, r) :
          Except Fault (Reader (SortedMap String String)))
      some ((readObject enter ∅ true rest).map fun (m, r) ↦ (m, r.toTail))
    else none
  adopt
    | .object fields => do
      let entries ← fields.mapM fun (k, v) ↦ (text.adopt v).map fun v ↦ (k, v)
      return .ofList entries
    | _ => none

end Shape

/-!
## Values of no particular shape

Reads any JSON value as it stands. Values are nested at most as deep as the text is long, which
bounds the recursion. `sorted` puts the fields of all objects into ascending order of key, as some
outputs require.
-/

namespace Json

/-- Reads a value that is nested at most `depth` deep. -/
def readNested : (depth : Nat) → Reader Json
  | 0, _ => .error .expectedValue
  | depth + 1, s =>
    match front s with
    | none => .error (.endOfText .value)
    | some (c, rest) =>
      let whole := fun {α : Type} (f : α → Json) (r : Except Fault (α × Tail rest.left)) ↦
        r.map fun (a, t) ↦ (f a, rest.andTail t)
      match c with
      | 'n' => whole (fun _ ↦ .null) (takeWord ['u', 'l', 'l'] rest.left)
      | 't' => whole (fun _ ↦ .bool true) (takeWord ['r', 'u', 'e'] rest.left)
      | 'f' => whole (fun _ ↦ .bool false) (takeWord ['a', 'l', 's', 'e'] rest.left)
      | '"' => whole .text ((readText rest.left).map fun (t, r) ↦ (t, r.toTail))
      | '[' => whole .list
          ((readItems (readNested depth) true rest.left).map fun (vs, r) ↦ (vs, r.toTail))
      | '\x7b' =>
        let enter := fun (key : String) (fields : List (String × Json)) ↦
          (Except.ok fun s ↦ (readNested depth s).map fun (v, r) ↦ ((key, v) :: fields, r) :
            Except Fault (Reader (List (String × Json))))
        whole (fun fields ↦ .object fields.reverse)
          ((readObject enter [] true rest.left).map fun (fs, r) ↦ (fs, r.toTail))
      | c =>
        if c = '-' ∨ c.isDigit then
          whole .number ((readNumber (c :: rest.left)).map fun (n, r) ↦ (n, r.ofCons))
        else .error .expectedValue

/-- Any value, as it stands. -/
def any : Shape Json where
  write := id
  read s := readNested (s.length + 1) s
  adopt := some

/-- The value with the fields of every object in ascending order of key; of two fields with one
key the later stays. -/
def sorted : Json → Json
  | .list vs => .list (sortedItems vs)
  | .object fs => .object (SortedMap.ofList (sortedFields fs)).entries
  | v => v
where
  sortedItems : List Json → List Json
    | [] => []
    | v :: vs => sorted v :: sortedItems vs
  sortedFields : List (String × Json) → List (String × Json)
    | [] => []
    | (k, v) :: fs => (k, sorted v) :: sortedFields fs

/-- The value of a field of an object; the last of that name. -/
def field? : Json → String → Option Json
  | .object fs, k => fs.reverse.lookup k
  | _, _ => none

end Json

end Interleave
