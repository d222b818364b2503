import Interleave.Json.Record

/-!
# Choices

A choice is one of several named variants. A variant without contents is written as its name alone,
and may also be read from an object that maps the name to null; one with contents is an object that
maps its name to them.
-/

namespace Interleave

/-- One alternative: its name, its value if it has no contents, and how its contents are read. -/
structure Variant (α : Type) where
  name : String
  bare : Option α
  contents : Reader α

namespace Variant

variable {α β : Type}

/-- An alternative without contents. -/
def constant (name : String) (a : α) : Variant α where
  name
  bare := some a
  contents s := (Json.readNull "unit" s).map fun (_, r) ↦ (a, r)

/-- An alternative with contents of a given shape. -/
def holding (name : String) (s : Shape β) (f : β → α) : Variant α where
  name
  bare := none
  contents t := (s.read t).map fun (b, r) ↦ (f b, r)

/-- The variant of a given name. -/
def find (all : List (Variant α)) (name : String) : Except Fault (Variant α) :=
  match all.find? fun v ↦ v.name == name with
  | some v => .ok v
  | none => .error (.unknownVariant name (all.map (·.name)))

end Variant

namespace Json

variable {α : Type}

/-- A variant that stands as its bare name. -/
def readBare (all : List (Variant α)) (s : List Char) : Except Fault (α × Tail s) :=
  match readText s with
  | .error e => .error e
  | .ok (name, r) =>
    match Variant.find all name with
    | .error e => .error e
    | .ok v =>
      match v.bare with
      | some a => .ok (a, r.toTail)
      | none => .error (.invalidType .unitVariant "newtype variant")

/-- A variant in an object, whose opening brace has been read. -/
def readTagged (all : List (Variant α)) : Reader α := fun s ↦
  match readString "variant identifier" s with
  | .error e => .error e
  | .ok (name, n) =>
    match Variant.find all name with
    | .error e => .error e
    | .ok v =>
      match readColon n.left with
      | .error e => .error e
      | .ok (_, c) =>
        match v.contents c.left with
        | .error e => .error e
        | .ok (a, r) =>
          let left := (n.andThen c).andThen r
          match front left.left with
          | none => .error (.endOfText .object)
          | some (d, rest) =>
            if d = '\x7d' then .ok (a, left.andThen rest) else .error .expectedValue

def readChoice (all : List (Variant α)) : Reader α := fun s ↦
  match front s with
  | none => .error (.endOfText .value)
  | some (c, rest) =>
    if c = '"' then (readBare all rest.left).map fun (a, t) ↦ (a, rest.andTail t)
    else if c = '\x7b' then
      (readTagged all rest.left).map fun (a, r) ↦ (a, rest.andThen r)
    else .error .expectedValue

end Json

namespace Shape

variable {α : Type}

/-- A choice among variants, written as `write` says. -/
def variants (all : List (Variant α)) (write : α → Json) (adopt : Json → Option α) : Shape α where
  write
  read := Json.readChoice all
  adopt

/-- A choice among constants with names. A settings value may also give the position of the
constant in the list. -/
def choice (all : List α) (name : α → String) : Shape α :=
  let named := fun (s : String) ↦ all.find? fun a ↦ name a == s
  variants (all.map fun a ↦ .constant (name a) a) (fun a ↦ .text (name a)) fun
    | .text s => named s
    | .number (.natural n) => all[n.toNat]?
    | .object ((s, .null) :: _) => named s
    | _ => none

end Shape

end Interleave
