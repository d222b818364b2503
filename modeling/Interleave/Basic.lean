import Interleave.Json.Reader
import Interleave.Text.Basic

/-!
# Identifiers, idioms and failures

What all parts of the library speak of: identifiers of four kinds of thing, the idioms of
interleavings, and what can go wrong.
-/

namespace Interleave

/-!
## Identifiers

Four kinds of thing carry a 32-bit number: images, instructions, events, and the interleaving root
causes themselves. The kind is an index of the type, so that an instruction's number cannot be
looked up among the events, while order and printing are defined once for all kinds.
-/

/-- What an identifier identifies. -/
inductive Kind where
  | image
  | inst
  | event
  | iroot
  deriving DecidableEq, Repr

/-- The number of a thing of kind `k`. -/
structure Id (k : Kind) where
  val : UInt32
  deriving DecidableEq, Repr

namespace Id

variable {k : Kind}

instance : Inhabited (Id k) := ⟨⟨0⟩⟩

theorem val_injective {a b : Id k} (h : a.val = b.val) : a = b := by
  cases a; cases b; cases h; rfl

/-- Identifiers compare as their numbers do. -/
instance : Ord (Id k) := ⟨fun a b ↦ compare a.val b.val⟩

instance : Std.TransOrd (Id k) where
  eq_swap {a b} := show compare a.val b.val = (compare b.val a.val).swap from
    Std.OrientedCmp.eq_swap
  isLE_trans {a b c} hab hbc := show (compare a.val c.val).isLE from
    Std.TransCmp.isLE_trans (b := b.val) hab hbc

instance : Std.LawfulEqOrd (Id k) where
  compare_self {a} := show compare a.val a.val = .eq from Std.ReflCmp.compare_self
  eq_of_compare {a b} h :=
    val_injective (Std.LawfulEqCmp.eq_of_compare (show compare a.val b.val = .eq from h))

/-- An identifier is shown as its decimal number. -/
def text (a : Id k) : String := toString a.val.toNat

end Id

abbrev ImageId := Id .image
abbrev InstId := Id .inst
abbrev EventId := Id .event
abbrev IRootId := Id .iroot

/-!
## Idioms

The idiom of an interleaving root cause is its shape: how many events it has and how they conflict.
There are five. An idiom is shown as `IDIOM_1` to `IDIOM_5`. On input only the digit matters; before
it the word may stand any number of times, in any case, and then any number of underscores.
-/

/-- The structural class of an interleaving root cause. -/
inductive Idiom where
  /-- Two conflicting accesses in a specific order. -/
  | idiom1
  /-- Three accesses to one location with a remote access in between. -/
  | idiom2
  /-- Two conflicting pairs on two locations, interleaved. -/
  | idiom3
  /-- Two pairs on two locations, one nested in the other. -/
  | idiom4
  /-- Two pairs on two locations, crossing between threads. -/
  | idiom5
  deriving DecidableEq, Repr, Inhabited

namespace Idiom

/-- Every idiom, in order. -/
def all : List Idiom := [idiom1, idiom2, idiom3, idiom4, idiom5]

/-- The number of events of an interleaving root cause of this shape. -/
def arity : Idiom → Nat
  | idiom1 => 2
  | idiom2 => 3
  | idiom3 | idiom4 | idiom5 => 4

/-- The position among all idioms, from 0. -/
def index : Idiom → Nat
  | idiom1 => 0
  | idiom2 => 1
  | idiom3 => 2
  | idiom4 => 3
  | idiom5 => 4

def text : Idiom → String
  | idiom1 => "IDIOM_1"
  | idiom2 => "IDIOM_2"
  | idiom3 => "IDIOM_3"
  | idiom4 => "IDIOM_4"
  | idiom5 => "IDIOM_5"

/-- The name in snapshots. -/
def key : Idiom → String
  | idiom1 => "idiom1"
  | idiom2 => "idiom2"
  | idiom3 => "idiom3"
  | idiom4 => "idiom4"
  | idiom5 => "idiom5"

/-! ### Reading -/

/-- What is left when all leading copies of the word `w :: ws` are gone. -/
def dropCopies (w : Char) (ws : List Char) (s : List Char) : List Char :=
  if h : (w :: ws).isPrefixOf s then
    dropCopies w ws (s.drop (ws.length + 1))
  else s
termination_by s.length
decreasing_by
  have := List.IsPrefix.length_le (List.isPrefixOf_iff_prefix.mp h)
  simp only [List.length_drop, List.length_cons] at this ⊢
  omega

/-- The idiom of a digit. -/
def ofDigit? : List Char → Option Idiom
  | ['1'] => some idiom1
  | ['2'] => some idiom2
  | ['3'] => some idiom3
  | ['4'] => some idiom4
  | ['5'] => some idiom5
  | _ => none

/-- The idiom that a text without outer blanks and capitals names. -/
def ofChars? (s : List Char) : Option Idiom :=
  ofDigit? ((dropCopies 'i' ['d', 'i', 'o', 'm'] s).dropWhile (· == '_'))

def ofText (s : String) : Except Misnamed Idiom :=
  match ofChars? (lowerChars (trimChars s.toList)) with
  | some i => .ok i
  | none => .error ⟨"idiom", s, " 1-5"⟩

end Idiom

/-! ### One value for each idiom -/

/-- A value for each idiom. -/
abbrev PerIdiom (α : Type) := Idiom → α

namespace PerIdiom

variable {α : Type}

def toList (f : PerIdiom α) : List α := Idiom.all.map f

/-- The values of a list of five, in order. -/
def ofList (l : { l : List α // l.length = 5 }) : PerIdiom α := fun i ↦
  l.1.get ⟨i.index, by rw [l.2]; cases i <;> decide⟩

end PerIdiom

/-!
## Failures

What can go wrong while databases are loaded and saved, memos changed and campaigns run. A failure
is its cause; the wording is in `Failure.message` alone.
-/

/-- A refusal of the file system. -/
inductive OsError where
  | notFound
  | permissionDenied
  | busy
  | fileExists
  | notDirectory
  | isDirectory
  | notExecutable
  | nulInName
  | nameTooLong
  deriving DecidableEq, Repr

def OsError.text : OsError → String
  | .notFound => "No such file or directory (os error 2)"
  | .permissionDenied => "Permission denied (os error 13)"
  | .busy => "Device or resource busy (os error 16)"
  | .fileExists => "File exists (os error 17)"
  | .notDirectory => "Not a directory (os error 20)"
  | .isDirectory => "Is a directory (os error 21)"
  | .notExecutable => "Exec format error (os error 8)"
  | .nulInName => "file name contained an unexpected NUL byte"
  | .nameTooLong => "File name too long (os error 36)"

/-- Why a snapshot could not be read or written. -/
inductive SnapshotFault where
  | os (e : OsError)
  | notUtf8
  | json (f : Fault)
  deriving DecidableEq

def SnapshotFault.text : SnapshotFault → String
  | .os e => e.text
  | .notUtf8 => "stream did not contain valid UTF-8"
  | .json f => f.message

/-- The sets of a memo that may dangle. -/
inductive MemoClass where
  | exposed
  | failed
  | predicted
  | shadowExposed
  | candidates
  deriving DecidableEq, Repr

namespace MemoClass

def all : List MemoClass := [exposed, failed, predicted, shadowExposed, candidates]

/-- The name in snapshots. -/
def key : MemoClass → String
  | exposed => "exposed"
  | failed => "failed"
  | predicted => "predicted"
  | shadowExposed => "shadow_exposed"
  | candidates => "candidates"

/-- The name in reports. -/
def label : MemoClass → String
  | exposed => "exposed"
  | failed => "failed"
  | predicted => "predicted"
  | shadowExposed => "shadow exposed"
  | candidates => "candidates"

end MemoClass

inductive Failure where
  /-- An instruction refers to an image that is not registered. -/
  | unknownImage (id : ImageId)
  | unknownInst (id : InstId)
  | unknownEvent (id : EventId)
  | unknownIRoot (id : IRootId)
  /-- The number of events does not fit the idiom. -/
  | arityMismatch (id : IRootId) (idiom : Idiom) (actual : Nat)
  /-- A class of a memo names an iRoot without runtime info. -/
  | dangling (cls : MemoClass) (id : IRootId)
  | snapshot (path : String) (fault : SnapshotFault)
  /-- The target could not be started or waited for. -/
  | launch (reason : String)
  /-- A line could not be appended to a report. -/
  | report (reason : String)
  deriving DecidableEq

def Failure.message : Failure → String
  | .unknownImage id => "Image not found: " ++ id.text
  | .unknownInst id => "Instruction not found: " ++ id.text
  | .unknownEvent id => "iRoot event not found: " ++ id.text
  | .unknownIRoot id => "iRoot not found: " ++ id.text
  | .arityMismatch id idiom actual =>
    "iRoot " ++ id.text ++ " has " ++ toString actual ++ " events but " ++ idiom.text ++
      " requires " ++ toString idiom.arity
  | .dangling cls id =>
    "Memo integrity violation: " ++ cls.key ++ " references iRoot " ++ id.text ++
      " with no runtime info"
  | .snapshot path fault => "Snapshot I/O error on " ++ path ++ ": " ++ fault.text
  | .launch reason => "Failed to launch target: " ++ reason
  | .report reason => "Reporting sink error: " ++ reason

end Interleave
