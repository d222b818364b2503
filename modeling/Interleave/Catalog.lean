import Interleave.Basic
import Interleave.Files.Tree
import Interleave.Json.Choice
import Interleave.Json.Record
import Interleave.Text.Basic

/-!
# The catalog

What is known of a program from its instrumentation: the images and instructions that it consists
of, and the interleaving root causes that its runs may show.
-/

namespace Interleave

/-!
## The static registry

Code locations are instructions at an offset within a binary image. The registry holds both by
identifier; everything else refers to a location by the identifier of its instruction. It is loaded
from a snapshot, in which every instruction has to lie in a listed image.
-/

/-- A binary image: an executable or a shared library. -/
structure Image where
  id : ImageId
  /-- The path from which it was loaded. -/
  name : String
  deriving DecidableEq

/-- Where an instruction stands in the source. -/
structure SourceLine where
  file : String
  line : UInt32
  deriving DecidableEq

/-- A code location. -/
structure Inst where
  id : InstId
  image : ImageId
  /-- Its distance from the start of the image. -/
  offset : UInt64
  source : Option SourceLine := none
  deriving DecidableEq

namespace Image

def baseName (i : Image) : String := Path.baseName i.name

/-- The base name up to its first dot or its first hyphen, whichever comes earlier. -/
def shortName (i : Image) : String :=
  .ofList (i.baseName.toList.takeWhile fun c ↦ c ≠ '.' ∧ c ≠ '-')

def text (i : Image) : String := padRight 2 i.id.text ++ " " ++ i.name

end Image

namespace Inst

/-- The offset in hexadecimal. -/
def hexOffset (i : Inst) : String := .ofList (hexChars i.offset.toNat)

end Inst

/-! ### Snapshots -/

def Id.shape {k : Kind} : Shape (Id k) := Shape.word32.iso Id.val Id.mk

def Image.shape : Shape Image :=
  .record "Image"
    (.cons (.required "id" Id.shape) <| .cons (.required "name" .text) .nil)
    (fun i ↦ (i.id, i.name, ())) fun (id, name, ()) ↦ ⟨id, name⟩

def SourceLine.shape : Shape SourceLine :=
  .record "DebugInfo"
    (.cons (.required "file_name" .text) <| .cons (.required "line" .word32) .nil)
    (fun d ↦ (d.file, d.line, ())) fun (file, line, ()) ↦ ⟨file, line⟩

def Inst.shape : Shape Inst :=
  .record "Inst"
    (.cons (.required "id" Id.shape) <| .cons (.required "image_id" Id.shape) <|
      .cons (.required "offset" .word64) <| .cons (.omittable "debug_info" SourceLine.shape) .nil)
    (fun i ↦ (i.id, i.image, i.offset, i.source, ()))
    fun (id, image, offset, source, ()) ↦ ⟨id, image, offset, source⟩

/-- Images and instructions by identifier. -/
structure Registry where
  images : SortedMap ImageId Image := ∅
  insts : SortedMap InstId Inst := ∅
  deriving DecidableEq

/-- The persisted form of a registry. -/
structure Registry.Snapshot where
  images : List Image := []
  insts : List Inst := []
  deriving DecidableEq

namespace Registry

def Snapshot.shape : Shape Snapshot :=
  .record "StaticInfoSnapshot"
    (.cons (.withDefault "images" (.list Image.shape) []) <|
      .cons (.withDefault "insts" (.list Inst.shape) []) .nil)
    (fun s ↦ (s.images, s.insts, ())) fun (images, insts, ()) ↦ ⟨images, insts⟩

/-- The registry of a snapshot. Of several entries with one identifier the last stays. -/
def ofSnapshot (s : Snapshot) : Except Failure Registry :=
  let images := SortedMap.ofList (s.images.map fun i ↦ (i.id, i))
  match s.insts.find? fun i ↦ !images.contains i.image with
  | some i => .error (.unknownImage i.image)
  | none => .ok { images, insts := .ofList (s.insts.map fun i ↦ (i.id, i)) }

/-- The registry in order of identifier. -/
def toSnapshot (r : Registry) : Snapshot := ⟨r.images.values, r.insts.values⟩

/-! ### Queries -/

def findImage (r : Registry) (id : ImageId) : Except Failure Image :=
  match r.images.get? id with
  | some i => .ok i
  | none => .error (.unknownImage id)

def findInst (r : Registry) (id : InstId) : Except Failure Inst :=
  match r.insts.get? id with
  | some i => .ok i
  | none => .error (.unknownInst id)

def containsInst (r : Registry) (id : InstId) : Bool := r.insts.contains id

def isEmpty (r : Registry) : Bool := r.images.isEmpty && r.insts.isEmpty

/-- Where an instruction stands in the source: the file without its directories, and the line. -/
def sourceText : Option SourceLine → String
  | none => ""
  | some d => Path.baseName d.file ++ " +" ++ toString d.line.toNat

/-- An instruction with its image, offset and place in the source. -/
def describeInst (r : Registry) (id : InstId) : Except Failure String := do
  let inst ← r.findInst id
  let image ← r.findImage inst.image
  return padRight 5 inst.id.text ++ " " ++ padRight 10 image.shortName ++ " 0x" ++
    padRight 6 inst.hexOffset ++ " " ++ sourceText inst.source

end Registry

/-!
## The catalog of iRoots

An interleaving root cause, iRoot for short, is a sequence of typed events that, when they are
scheduled in this order, may trigger a concurrency bug. The catalog holds events and iRoots by
identifier. It is loaded against a registry: every event stands at a registered instruction, and
every iRoot has as many known events as its idiom requires.
-/

/-- What an event does. -/
inductive EventKind where
  | memRead
  | memWrite
  | mutexLock
  | mutexUnlock
  deriving DecidableEq, Repr, Inhabited

namespace EventKind

def all : List EventKind := [memRead, memWrite, mutexLock, mutexUnlock]

def isMem : EventKind → Bool
  | memRead | memWrite => true
  | mutexLock | mutexUnlock => false

def isSync (k : EventKind) : Bool := !k.isMem

def text : EventKind → String
  | memRead => "READ"
  | memWrite => "WRITE"
  | mutexLock => "LOCK"
  | mutexUnlock => "UNLOCK"

/-- The name in snapshots. -/
def key : EventKind → String
  | memRead => "mem_read"
  | memWrite => "mem_write"
  | mutexLock => "mutex_lock"
  | mutexUnlock => "mutex_unlock"

def shape : Shape EventKind := .choice all key

end EventKind

def Idiom.shape : Shape Idiom := .choice Idiom.all Idiom.key

/-- A typed access at a code location. -/
structure Event where
  id : EventId
  inst : InstId
  kind : EventKind
  deriving DecidableEq

/-- An interleaving candidate: events in the order in which they would have to happen. -/
structure IRoot where
  id : IRootId
  idiom : Idiom
  events : List EventId
  deriving DecidableEq

namespace IRoot

/-- Two iRoots are the same candidate if they have the same identifier, whatever their events. -/
def sameAs (a b : IRoot) : Bool := a.id == b.id

end IRoot

/-! ### Snapshots -/

def Event.shape : Shape Event :=
  .record "IRootEvent"
    (.cons (.required "id" Id.shape) <| .cons (.required "inst_id" Id.shape) <|
      .cons (.required "kind" EventKind.shape) .nil)
    (fun e ↦ (e.id, e.inst, e.kind, ())) fun (id, inst, kind, ()) ↦ ⟨id, inst, kind⟩

def IRoot.shape : Shape IRoot :=
  .record "IRoot"
    (.cons (.required "id" Id.shape) <| .cons (.required "idiom" Idiom.shape) <|
      .cons (.required "event_ids" (.list Id.shape)) .nil)
    (fun r ↦ (r.id, r.idiom, r.events, ())) fun (id, idiom, events, ()) ↦ ⟨id, idiom, events⟩

/-- Events and iRoots by identifier. -/
structure Catalog where
  events : SortedMap EventId Event := ∅
  iroots : SortedMap IRootId IRoot := ∅
  deriving DecidableEq

/-- The persisted form of a catalog. -/
structure Catalog.Snapshot where
  events : List Event := []
  iroots : List IRoot := []
  deriving DecidableEq

namespace Catalog

def Snapshot.shape : Shape Snapshot :=
  .record "IRootDbSnapshot"
    (.cons (.withDefault "events" (.list Event.shape) []) <|
      .cons (.withDefault "iroots" (.list IRoot.shape) []) .nil)
    (fun s ↦ (s.events, s.iroots, ())) fun (events, iroots, ()) ↦ ⟨events, iroots⟩

/-- What is wrong with an iRoot, given the known events: their number before their identity. -/
def fault? (events : SortedMap EventId Event) (r : IRoot) : Option Failure :=
  if r.events.length ≠ r.idiom.arity then
    some (.arityMismatch r.id r.idiom r.events.length)
  else (r.events.find? fun e ↦ !events.contains e).map .unknownEvent

/-- The catalog of a snapshot over a registry. Events are checked before iRoots; of several entries
with one identifier the last stays. -/
def ofSnapshot (s : Snapshot) (registry : Registry) : Except Failure Catalog :=
  match s.events.find? fun e ↦ !registry.containsInst e.inst with
  | some e => .error (.unknownInst e.inst)
  | none =>
    let events := SortedMap.ofList (s.events.map fun e ↦ (e.id, e))
    match s.iroots.findSome? (fault? events) with
    | some failure => .error failure
    | none => .ok { events, iroots := .ofList (s.iroots.map fun r ↦ (r.id, r)) }

/-- The catalog in order of identifier. -/
def toSnapshot (c : Catalog) : Snapshot := ⟨c.events.values, c.iroots.values⟩

/-! ### Queries -/

def findEvent (c : Catalog) (id : EventId) : Except Failure Event :=
  match c.events.get? id with
  | some e => .ok e
  | none => .error (.unknownEvent id)

def findIRoot (c : Catalog) (id : IRootId) : Except Failure IRoot :=
  match c.iroots.get? id with
  | some r => .ok r
  | none => .error (.unknownIRoot id)

def contains (c : Catalog) (id : IRootId) : Bool := c.iroots.contains id

/-- The idiom of a catalogued iRoot. -/
def idiomOf? (c : Catalog) (id : IRootId) : Option Idiom := (c.iroots.get? id).map (·.idiom)

def size (c : Catalog) : Nat := c.iroots.size

def isEmpty (c : Catalog) : Bool := c.iroots.isEmpty

/-- The line of one event of an iRoot, by its position. -/
def describeEvent (c : Catalog) (registry : Registry) (position : Nat) (id : EventId) :
    Except Failure String := do
  let event ← c.findEvent id
  let inst ← registry.describeInst event.inst
  return "\te" ++ toString position ++ ": " ++ padRight 7 event.kind.text ++ " [" ++
    padRight 40 inst ++ "]\n"

/-- An iRoot on one line, and each of its events on a line of its own. -/
def describeIRoot (c : Catalog) (registry : Registry) (id : IRootId) : Except Failure String := do
  let iroot ← c.findIRoot id
  let lines ← iroot.events.zipIdx.mapM fun (e, i) ↦ c.describeEvent registry i e
  return padRight 5 iroot.id.text ++ " " ++ padRight 7 iroot.idiom.text ++ "\n" ++ String.join lines

end Catalog

end Interleave
