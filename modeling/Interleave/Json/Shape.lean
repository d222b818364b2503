import Interleave.Json.Text

/-!
# Shapes

A shape says how the values of a type are laid out as JSON. It has three readings of the same
layout: `write` makes the JSON value, `read` takes a value off the front of a text, and `adopt`
takes it out of a JSON value that is there already, as when settings come from several places.

This module holds the shapes of simple values; records and choices have modules of their own.
-/

namespace Interleave

/-- The JSON layout of a type. -/
structure Shape (α : Type) where
  write : α → Json
  read : Reader α
  adopt : Json → Option α

namespace Json

/-- The fault of a value of the wrong type, given by its first character and what follows. The
value itself is looked at first, so a fault inside it wins. -/
def wrongType (wanted : String) (c : Char) (rest : List Char) : Fault :=
  let word := fun (w : List Char) (found : Found) ↦
    match takeWord w rest with
    | .ok _ => Fault.invalidType found wanted
    | .error e => e
  match c with
  | 'n' => word ['u', 'l', 'l'] .null
  | 't' => word ['r', 'u', 'e'] (.bool true)
  | 'f' => word ['a', 'l', 's', 'e'] (.bool false)
  | '"' =>
    match readText rest with
    | .ok (s, _) => .invalidType (.string s) wanted
    | .error e => e
  | '[' => .invalidType .sequence wanted
  | '\x7b' => .invalidType .map wanted
  | c =>
    if c = '-' ∨ c.isDigit then
      match readNumber (c :: rest) with
      | .ok (x, _) => .invalidType x.found wanted
      | .error e => e
    else .expectedValue

/-- Reads a value by its first character; `none` says that the character begins no value of the
wanted type. -/
def readBy {α : Type} (wanted : String)
    (f : (c : Char) → (rest : List Char) → Option (Except Fault (α × Tail rest))) : Reader α :=
  fun s ↦
    match front s with
    | none => .error (.endOfText .value)
    | some (c, rest) =>
      match f c rest.left with
      | some r => r.map fun (a, t) ↦ (a, rest.andTail t)
      | none => .error (wrongType wanted c rest.left)

/-! ## Words, texts, numbers -/

def readNull (wanted : String) : Reader Unit :=
  readBy wanted fun c rest ↦
    if c = 'n' then some (takeWord ['u', 'l', 'l'] rest) else none

def readBool : Reader Bool :=
  readBy "a boolean" fun c rest ↦
    if c = 't' then some ((takeWord ['r', 'u', 'e'] rest).map fun (_, t) ↦ (true, t))
    else if c = 'f' then some ((takeWord ['a', 'l', 's', 'e'] rest).map fun (_, t) ↦ (false, t))
    else none

def readString (wanted : String) : Reader String :=
  readBy wanted fun c rest ↦
    if c = '"' then some ((readText rest).map fun (s, r) ↦ (s, r.toTail)) else none

/-- A natural number below `bound`. -/
def readNat (wanted : String) (bound : Nat) : Reader Nat := fun s ↦
  match front s with
  | none => .error (.endOfText .value)
  | some (c, rest) =>
    if c = '-' ∨ c.isDigit then
      match readNumber (c :: rest.left) with
      | .error e => .error e
      | .ok (.natural n, r) =>
        if n.toNat < bound then .ok (n.toNat, rest.andTail r.ofCons)
        else .error (.invalidValue (.integer n.toNat) wanted)
      | .ok (.negative m, _) => .error (.invalidValue (.integer (-m)) wanted)
      | .ok (.float x, _) => .error (.invalidType (.float x) wanted)
    else .error (wrongType wanted c rest.left)

end Json

namespace Shape

open Json

variable {α β : Type}

/-- The same layout for values that correspond one to one. -/
def iso (s : Shape α) (out : β → α) (into : α → β) : Shape β where
  write b := s.write (out b)
  read t := (s.read t).map fun (a, r) ↦ (into a, r)
  adopt v := (s.adopt v).map into

def bool : Shape Bool where
  write := .bool
  read := readBool
  adopt
    | .bool b => some b
    | _ => none

/-- A text; `wanted` is what a message calls it. -/
def textAs (wanted : String) : Shape String where
  write := .text
  read := readString wanted
  adopt
    | .text s => some s
    | _ => none

def text : Shape String := textAs "a string"

def path : Shape String := textAs "path string"

/-- A natural number below `bound`, which is at most `UInt64.size`. -/
def natBelow (wanted : String) (bound : Nat) : Shape Nat where
  write n := .nat n
  read := readNat wanted bound
  adopt
    | .number (.natural n) => if n.toNat < bound then some n.toNat else none
    | _ => none

def word32 : Shape UInt32 := (natBelow "u32" UInt32.size).iso UInt32.toNat UInt32.ofNat

def word64 : Shape UInt64 := (natBelow "u64" UInt64.size).iso UInt64.toNat UInt64.ofNat

/-- A count. -/
def count : Shape Nat := natBelow "usize" UInt64.size

/-- A value, or null in its place. -/
def optional (s : Shape α) : Shape (Option α) where
  write := nullable s.write
  read t :=
    match front t with
    | some ('n', rest) =>
      (takeWord ['u', 'l', 'l'] rest.left).map fun (_, r) ↦ (none, rest.andTail r)
    | _ => (s.read t).map fun (a, r) ↦ (some a, r)
  adopt
    | .null => some none
    | v => (s.adopt v).map some

end Shape

namespace Json

/-! ## Lists -/

/-- Moves to the next item of a list, over the comma if items precede it; `false` if the list ends
here, whose bracket is left in place. -/
def nextItem (first : Bool) : TailReader Bool := fun s ↦
  match front s with
  | none => .error (.endOfText .list)
  | some (c, rest) =>
    if c = ']' then .ok (false, .all s)
    else if c = ',' ∧ !first then
      match front rest.left with
      | none => .error (.endOfText .value)
      | some (d, _) => if d = ']' then .error .trailingComma else .ok (true, rest.toTail)
    else if first then .ok (true, .all s)
    else .error .expectedListEnd

/-- Reads the bracket that ends a list. -/
def endList : Reader Unit := fun s ↦
  match front s with
  | none => .error (.endOfText .list)
  | some (c, rest) =>
    if c = ']' then .ok ((), rest)
    else if c = ',' then
      match front rest.left with
      | some (']', _) => .error .trailingComma
      | _ => .error .trailingCharacters
    else .error .trailingCharacters

variable {α : Type}

/-- Reads items up to the end of the list. -/
def readItems (item : Reader α) (first : Bool) (s : List Char) :
    Except Fault (List α × Rest s) :=
  match nextItem first s with
  | .error e => .error e
  | .ok (false, t) => (endList t.left).map fun (_, r) ↦ ([], t.andThen r)
  | .ok (true, t) =>
    match item t.left with
    | .error e => .error e
    | .ok (a, r) =>
      let r := t.andThen r
      have := r.shorter
      match readItems item false r.left with
      | .error e => .error e
      | .ok (as, q) => .ok (a :: as, r.andThen q)
termination_by s.length
decreasing_by exact this

/-- Reads exactly `n` items. `index` counts those before. -/
def readRow (item : Reader α) (wanted : String) (index : Nat) (first : Bool) :
    (n : Nat) → TailReader { l : List α // l.length = n }
  | 0, s => .ok (⟨[], rfl⟩, .all s)
  | n + 1, s =>
    match nextItem first s with
    | .error e => .error e
    | .ok (false, _) => .error (.invalidLength index wanted)
    | .ok (true, t) =>
      match item t.left with
      | .error e => .error e
      | .ok (a, r) =>
        match readRow item wanted (index + 1) false n r.left with
        | .error e => .error e
        | .ok (⟨as, h⟩, q) =>
          .ok (⟨a :: as, congrArg Nat.succ h⟩, ((t.andThen r).andTail q).toTail)

end Json

namespace Shape

open Json

variable {α : Type}

def list (s : Shape α) : Shape (List α) where
  write items := .list (items.map s.write)
  read := readBy "a sequence" fun c rest ↦
    if c = '[' then some ((readItems s.read true rest).map fun (as, r) ↦ (as, r.toTail)) else none
  adopt
    | .list vs => vs.mapM s.adopt
    | _ => none

/-- A list of exactly `n` items. -/
def row (n : Nat) (s : Shape α) : Shape { l : List α // l.length = n } where
  write items := .list (items.1.map s.write)
  read :=
    let wanted := "an array of length " ++ toString n
    readBy wanted fun c rest ↦
      if c = '[' then
        some (match readRow s.read wanted 0 true n rest with
          | .error e => .error e
          | .ok (as, t) => (endList t.left).map fun (_, r) ↦
              (as, (t.andThen r).toTail))
      else none
  adopt
    | .list vs => do
      let as ← vs.mapM s.adopt
      if h : as.length = n then some ⟨as, h⟩ else none
    | _ => none

/-! ## Documents -/

/-- The value that a whole text holds. -/
def decode (s : Shape α) (t : List Char) : Except Fault α :=
  match s.read t with
  | .error e => .error e
  | .ok (a, r) => if (afterBlank r.left).left.isEmpty then .ok a else .error .trailingCharacters

def decodeText (s : Shape α) (t : String) : Except Fault α := s.decode t.toList

def compact (s : Shape α) (a : α) : String := (s.write a).compact

def pretty (s : Shape α) (a : α) : String := (s.write a).pretty

end Shape

end Interleave
