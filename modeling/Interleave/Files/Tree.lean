import Interleave.Basic
import Interleave.Data.SortedMap
import Interleave.Json.Shape
import Interleave.Text.Basic

/-!
# Files

Path names, the tree of files below a working directory and how it changes, and the files in which
databases are kept.
-/

namespace Interleave

/-!
## Path names

A path name is a list of steps between slashes. Empty steps count for nothing, and neither does a
single dot. How a name ends still matters: a slash or a dot at the end says that the name is a
directory's.
-/

namespace Path

/-- What stands between the slashes. -/
def parts (p : String) : List String := (splitAt '/' p.toList).map String.ofList

/-- Whether a part leads somewhere. -/
def isStep (s : String) : Bool := s ≠ "" ∧ s ≠ "."

/-- The steps of a path name that lead somewhere. -/
def steps (p : String) : List String := (parts p).filter isStep

def isAbsolute (p : String) : Bool := p.toList.head? == some '/'

/-- The last step, if it names something: neither missing nor a step upwards. -/
def baseName? (p : String) : Option String :=
  match (steps p).getLast? with
  | some s => if s = ".." then none else some s
  | none => none

/-- The last step of a path name, or all of it if that names nothing. -/
def baseName (p : String) : String := (baseName? p).getD p

/-! ### Names above and below -/

/-- Parts without those at the end that lead nowhere. -/
def trimEnd (parts : List String) : List String :=
  (parts.reverse.dropWhile fun s ↦ !isStep s).reverse

/-- The name of what stands above the last step; empty if the name has nothing before it. -/
def parent (p : String) : String :=
  match parts p with
  | [] => ""
  | first :: rest =>
    match trimEnd rest with
    | [] => ""
    | trimmed =>
      match trimEnd trimmed.dropLast with
      | [] => if first = "" then "/" else first
      | between => "/".intercalate (first :: between)

/-- A name with a step behind it. -/
def below (p step : String) : String :=
  if p = "" ∨ p.toList.getLast? = some '/' then p ++ step else p ++ "/" ++ step

/-! ### How a name ends -/

/-- The end of a path name. -/
inductive Ending where
  /-- A step. -/
  | plain
  /-- A step and slashes behind it. -/
  | slash
  /-- One dot, two dots, or nothing but slashes. -/
  | dots
  deriving DecidableEq, Repr

def ending (p : String) : Ending :=
  match (parts p).reverse with
  | [] => .dots
  | last :: before =>
    match (last :: before).dropWhile (· = "") with
    | [] => .dots
    | s :: _ => if s = "." ∨ s = ".." then .dots else if last = "" then .slash else .plain

end Path

/-!
## A tree of files

The files of a working directory, as one map from places to files and directories. A place is the
list of steps that leads to it; the working directory itself is the empty list, and absolute names
lie below a step of their own. Nothing is known of what stands above the working directory, so a
step up from it leads nowhere. A file holds a text, or bytes that are no text.

Every operation either succeeds or refuses, and leaves the tree as it was if it refuses; only
directories that were created one by one stay when the next is refused. Names are resolved step by
step, so that a missing directory and a file in the place of one are told apart.
-/

/-- What a file holds. -/
inductive Content where
  | text (s : String)
  /-- Bytes that are no UTF-8. -/
  | raw (bytes : List UInt8)
  deriving DecidableEq

/-- What a file of these bytes holds: the text they encode if they encode one. -/
def Content.ofBytes (bytes : List UInt8) : Content :=
  match String.fromUTF8? ⟨bytes.toArray⟩ with
  | some s => .text s
  | none => .raw bytes

def Content.bytes : Content → ByteArray
  | text s => s.toUTF8
  | raw bytes => ⟨bytes.toArray⟩

/-- What stands at a place. -/
inductive Node where
  | file (c : Content)
  | dir
  deriving DecidableEq

/-- The steps from the working directory. -/
abbrev Place := List String

namespace Place

/-- The step under which absolute names lie. -/
def rootStep : String := "/"

/-- Whether a place is the working directory or the root, which are always there. -/
def isBase (p : Place) : Bool := p == [] || p == [rootStep]

/-- The place one step up; there is none above the working directory and the root. -/
def above (p : Place) : Place := if p.isBase then p else p.dropLast

/-- The place that a step leads to. -/
def follow (p : Place) (s : String) : Place := if s = ".." then p.above else p ++ [s]

end Place

structure Tree where
  nodes : SortedMap Place Node := ∅
  deriving DecidableEq

namespace Tree

def empty : Tree := {}

instance : Inhabited Tree := ⟨empty⟩

/-- What stands at a place. -/
def node? (t : Tree) (p : Place) : Option Node :=
  if p.isBase then some .dir else t.nodes.get? p

/-! ### Resolving names -/

/-- The place from which a name is resolved. -/
def start (name : String) : Place := if Path.isAbsolute name then [Place.rootStep] else []

/-- The greatest number of bytes in a step. -/
def stepLimit : Nat := 255

/-- The greatest number of bytes in a name. -/
def nameLimit : Nat := 4095

/-- What is wrong with a name by itself. -/
def misspelt? (name : String) : Option OsError :=
  if name.toList.contains '\x00' then some .nulInName
  else if nameLimit < name.utf8ByteSize then some .nameTooLong
  else none

/-- Follows steps down from a place. All but the last have to lead to directories. -/
def walk (t : Tree) (place : Place) : List String → Except OsError Place
  | [] => .ok place
  | s :: rest =>
    match t.node? place with
    | none => .error .notFound
    | some (.file _) => .error .notDirectory
    | some .dir =>
      if stepLimit < s.utf8ByteSize then .error .nameTooLong else walk t (place.follow s) rest

/-- The place of a name, whatever stands there and however the name ends. -/
def locate (t : Tree) (name : String) : Except OsError Place :=
  if name.isEmpty then .error .notFound
  else
    match misspelt? name with
    | some e => .error e
    | none => t.walk (start name) (Path.steps name)

/-- The place of a name, at which there may be nothing. -/
def resolve (t : Tree) (name : String) : Except OsError Place :=
  match t.locate name with
  | .error e => .error e
  | .ok p =>
    match t.node? p with
    | some (.file _) => if Path.ending name = .plain then .ok p else .error .notDirectory
    | _ => .ok p

/-- What a name leads to. -/
def lookup (t : Tree) (name : String) : Except OsError Node :=
  match t.resolve name with
  | .error e => .error e
  | .ok p =>
    match t.node? p with
    | some n => .ok n
    | none => .error .notFound

/-! ### Reading -/

def read (t : Tree) (name : String) : Except OsError Content :=
  match t.lookup name with
  | .error e => .error e
  | .ok .dir => .error .isDirectory
  | .ok (.file c) => .ok c

/-- The text of a file, if there is such a file and it holds a text. -/
def text? (t : Tree) (name : String) : Option String :=
  match t.read name with
  | .ok (.text s) => some s
  | _ => none

/-- Whether there is something of that name; a refusal other than absence is passed on. -/
def «exists» (t : Tree) (name : String) : Except OsError Bool :=
  match t.lookup name with
  | .ok _ => .ok true
  | .error .notFound => .ok false
  | .error e => .error e

/-- The names in a directory. -/
def list (t : Tree) (name : String) : Except OsError (List String) :=
  match t.resolve name with
  | .error e => .error e
  | .ok p =>
    match t.node? p with
    | none => .error .notFound
    | some (.file _) => .error .notDirectory
    | some .dir => .ok (t.nodes.keys.filterMap fun q ↦
        if q.dropLast = p ∧ !q.isBase then q.getLast? else none)

/-! ### Changing -/

def put (t : Tree) (p : Place) (n : Node) : Tree := ⟨t.nodes.insert p n⟩

def drop (t : Tree) (p : Place) : Tree := ⟨t.nodes.erase p⟩

/-- Creates the directories that are missing along some steps. A refusal comes with the directories
created before it; `made` says whether there were any before these steps. -/
def makeDirsFrom (t : Tree) (place : Place) (steps : List String) (made : Bool := false) :
    Except (OsError × Tree) Tree :=
  match steps with
  | [] => .ok t
  | s :: rest =>
    if stepLimit < s.utf8ByteSize then .error (.nameTooLong, t)
    else
      let p := place.follow s
      match t.node? p with
      | none => makeDirsFrom (t.put p .dir) p rest true
      | some .dir => makeDirsFrom t p rest made
      | some (.file _) => .error (if rest.isEmpty || made then .fileExists else .notDirectory, t)

/-- Creates a directory and those above it, as far as they are missing. -/
def makeDirs (t : Tree) (name : String) : Except (OsError × Tree) Tree :=
  match misspelt? name with
  | some e => .error (e, t)
  | none => t.makeDirsFrom (start name) (Path.steps name)

/-- Creates the directories above a name. -/
def makeParents (t : Tree) (name : String) : Except (OsError × Tree) Tree :=
  t.makeDirs (Path.parent name)

/-- Makes a file hold what `f` makes of its content; a file that is not there is created. -/
def modify (t : Tree) (name : String) (f : Option Content → Content) : Except OsError Tree :=
  match t.locate name with
  | .error e => .error e
  | .ok p =>
    match Path.ending name, t.node? p with
    | .slash, _ => .error .isDirectory
    | _, some .dir => .error .isDirectory
    | .dots, none => .error .notFound
    | .dots, some (.file _) => .error .notDirectory
    | .plain, none => .ok (t.put p (.file (f none)))
    | .plain, some (.file c) => .ok (t.put p (.file (f (some c))))

/-- Makes a file hold a content, creating it if it is not there. -/
def write (t : Tree) (name : String) (c : Content) : Except OsError Tree := t.modify name fun _ ↦ c

/-- The content with a text behind it. -/
def extend (c : Content) (s : String) : Content :=
  match c with
  | .text t => .text (t ++ s)
  | .raw bytes => .raw (bytes ++ s.toUTF8.toList)

/-- Writes a text behind what a file holds, creating it if it is not there. -/
def append (t : Tree) (name : String) (s : String) : Except OsError Tree :=
  t.modify name fun c ↦ extend (c.getD (.text "")) s

/-- Gives a file a new name, under which it takes the place of another file. -/
def rename (t : Tree) (source target : String) : Except OsError Tree :=
  match t.read source, t.resolve source with
  | .error e, _ => .error e
  | _, .error e => .error e
  | .ok c, .ok p =>
    match t.locate target with
    | .error e => .error e
    | .ok q =>
      match Path.ending target, t.node? q with
      | .slash, _ => .error .notDirectory
      | .dots, none => .error .notFound
      | .dots, some (.file _) => .error .notDirectory
      | .dots, some .dir => .error .busy
      | .plain, some .dir => .error .isDirectory
      | .plain, _ => .ok ((t.drop p).put q (.file c))

/-- Removes a file. -/
def remove (t : Tree) (name : String) : Except OsError Tree :=
  match t.read name, t.resolve name with
  | .error e, _ => .error e
  | _, .error e => .error e
  | .ok _, .ok p => .ok (t.drop p)

end Tree

/-!
## Changes between trees

What it takes to make one tree into another. First everything goes that is no longer there, what is
in a directory before the directory itself; then what is new or different is put in its place,
a directory before what is in it.
-/

namespace Tree

/-- A change at one place. -/
inductive Change where
  /-- The node there goes. -/
  | drop (p : Place) (n : Node)
  /-- A node takes the place of what is there. -/
  | put (p : Place) (n : Node)
  deriving DecidableEq

def Change.apply (t : Tree) : Change → Tree
  | drop p _ => t.drop p
  | put p n => t.put p n

/-- Whether two nodes are both files or both directories. -/
def alike : Node → Node → Bool
  | .file _, .file _ | .dir, .dir => true
  | _, _ => false

/-- What makes a tree into a new one. -/
def changes (t new : Tree) : List Change :=
  let gone := t.nodes.entries.filter fun (p, n) ↦ !(new.nodes.get? p).any (alike n)
  let fresh := new.nodes.entries.filter fun (p, n) ↦ t.nodes.get? p ≠ some n
  gone.reverse.map (fun (p, n) ↦ .drop p n) ++ fresh.map fun (p, n) ↦ .put p n

/-- The path name of a place. -/
def placeName : Place → String
  | [] => "."
  | s :: steps =>
    if s = Place.rootStep then s ++ "/".intercalate steps else "/".intercalate (s :: steps)

end Tree

/-!
## Snapshot files

Each database has a file of its own, which holds one JSON value. A missing file stands for an empty
database. A file is replaced in steps: the directories above it are created, the new text goes to a
temporary file beside it, and the temporary file takes its name. Readers see the old text or the new
one. If the last step is refused, the temporary file is removed again.
-/

namespace Snapshot

def refusal (path : String) (e : OsError) : Failure := .snapshot path (.os e)

/-- Reads and decodes a file; none if it is not there. -/
def read {α : Type} (s : Shape α) (t : Tree) (path : String) : Except Failure (Option α) :=
  match t.read path with
  | .error .notFound => .ok none
  | .error e => .error (refusal path e)
  | .ok (.raw _) => .error (.snapshot path .notUtf8)
  | .ok (.text text) =>
    match s.decodeText text with
    | .ok a => .ok (some a)
    | .error f => .error (.snapshot path (.json f))

/-! ### Replacing a file -/

/-- The name of the temporary file beside a file, made unique by a tag. -/
def tempName (path tag : String) : String :=
  match Path.baseName? path with
  | some s => Path.below (Path.parent path) (s ++ "." ++ tag ++ ".tmp")
  | none => Path.below path ("." ++ tag ++ ".tmp")

/-- Makes the temporary file take the name of the file; it is removed if that is refused. -/
def publish (t : Tree) (path temp : String) : Tree × Option OsError :=
  match t.rename temp path with
  | .ok t => (t, none)
  | .error e => ((t.remove temp).toOption.getD t, some e)

/-- Replaces the text of a file. The tree is given back in any case, as directories may have been
created before a refusal. -/
def replace (t : Tree) (path tag text : String) : Tree × Option Failure :=
  match t.makeParents path with
  | .error (e, t) => (t, some (refusal path e))
  | .ok t =>
    let temp := tempName path tag
    match t.write temp (.text text) with
    | .error e => (t, some (refusal temp e))
    | .ok t =>
      let (t, refused) := publish t path temp
      (t, refused.map (refusal path))

/-- Replaces a file by the indented JSON text of a value. -/
def save (t : Tree) (path tag : String) (v : Json) : Tree × Option Failure :=
  replace t path tag v.pretty

end Snapshot

end Interleave
