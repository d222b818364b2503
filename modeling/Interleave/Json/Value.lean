import Interleave.Data.SortedMap
import Interleave.Number.Binary64

/-!
# JSON values and their text

A JSON value, with the fields of an object in the order in which they are written. There is one
printer; a `Layout` says what it puts between the parts, so that the compact form on one line and
the indented form differ in nothing else.

Only quotes, backslashes and control characters are escaped in a text.
-/

namespace Interleave

/-- A number as read or written: a 64-bit natural number, a negative integer given by its
magnitude, or a double. -/
inductive Number where
  | natural (n : UInt64)
  | negative (magnitude : Nat)
  | float (x : Binary64)
  deriving DecidableEq

inductive Json where
  | null
  | bool (b : Bool)
  | number (n : Number)
  | text (s : String)
  | list (items : List Json)
  | object (fields : List (String × Json))

namespace Json

def nat (n : Nat) : Json := .number (.natural (.ofNat n))

/-! ## Characters of a text -/

/-- The two lower-case hexadecimal digits of a number below 256. -/
def hexByte (n : Nat) : List Char := [Nat.digitChar (n / 16 % 16), Nat.digitChar (n % 16)]

/-- How a character is written inside a text. -/
def escape (c : Char) : List Char :=
  match c with
  | '"' => ['\\', '"']
  | '\\' => ['\\', '\\']
  | '\n' => ['\\', 'n']
  | '\r' => ['\\', 'r']
  | '\t' => ['\\', 't']
  | '\x08' => ['\\', 'b']
  | '\x0c' => ['\\', 'f']
  | c => if c.toNat < 0x20 then ['\\', 'u', '0', '0'] ++ hexByte c.toNat else [c]

/-- A text between its quotes. -/
def textChars (s : String) : List Char := '"' :: s.toList.flatMap escape ++ ['"']

end Json

/-- The numeral of a number. -/
def Number.chars : Number → List Char
  | .natural n => Nat.toDigits 10 n.toNat
  | .negative m => '-' :: Nat.toDigits 10 m
  | .float x => x.chars

namespace Json

/-! ## The printer -/

/-- What stands between the parts of a list or object: `newline d` before an item at depth `d` and
before the closing bracket, `colon` between a key and its value. -/
structure Layout where
  newline : Nat → List Char
  colon : List Char

namespace Layout

/-- No blanks at all. -/
def compact : Layout := ⟨fun _ ↦ [], [':']⟩

/-- One item a line, each level indented by two more spaces. -/
def pretty : Layout := ⟨fun d ↦ '\n' :: List.replicate (2 * d) ' ', [':', ' ']⟩

end Layout

/-- The text of a value that stands at depth `d`. -/
def chars (l : Layout) (d : Nat) : Json → List Char
  | .null => ['n', 'u', 'l', 'l']
  | .bool true => ['t', 'r', 'u', 'e']
  | .bool false => ['f', 'a', 'l', 's', 'e']
  | .number n => n.chars
  | .text s => textChars s
  | .list [] => ['[', ']']
  | .list (v :: vs) => '[' :: l.newline (d + 1) ++ chars l (d + 1) v ++ tailChars l d vs
  | .object [] => ['\x7b', '\x7d']
  | .object ((k, v) :: fs) =>
    '\x7b' :: l.newline (d + 1) ++ textChars k ++ l.colon ++ chars l (d + 1) v ++ fieldChars l d fs
where
  /-- The items after the first, and the closing bracket. -/
  tailChars (l : Layout) (d : Nat) : List Json → List Char
    | [] => l.newline d ++ [']']
    | v :: vs => ',' :: l.newline (d + 1) ++ chars l (d + 1) v ++ tailChars l d vs
  /-- The fields after the first, and the closing brace. -/
  fieldChars (l : Layout) (d : Nat) : List (String × Json) → List Char
    | [] => l.newline d ++ ['\x7d']
    | (k, v) :: fs =>
      ',' :: l.newline (d + 1) ++ textChars k ++ l.colon ++ chars l (d + 1) v ++ fieldChars l d fs

def compact (v : Json) : String := .ofList (v.chars .compact 0)

def pretty (v : Json) : String := .ofList (v.chars .pretty 0)

/-- The number of a 32-bit word. -/
def word (n : UInt32) : Json := .number (.natural n.toUInt64)

/-- A value or null. -/
def nullable {α : Type} (f : α → Json) : Option α → Json
  | none => .null
  | some a => f a

end Json

/-!
## Laying one value over another

Where both values are objects, the result has the fields of both, and a field that both have is
again one laid over the other. In every other case the upper value hides the lower one: lists are
replaced whole, and null is a value like any other.
-/

namespace Json

/-- The fields of an object; nothing else has any. -/
def fields : Json → List (String × Json)
  | .object fs => fs
  | _ => []

/-- Fields with one set to a value, in ascending order of key. -/
def setField (fs : List (String × Json)) (k : String) (v : Json) : List (String × Json) :=
  SortedMap.alterEntries k (fun _ ↦ some v) fs

/-- The upper value laid over the lower one. -/
def overlay (lower : Json) : (upper : Json) → Json
  | .object fs => .object (overFields lower.fields fs)
  | v => v
where
  /-- The upper fields laid over the lower ones. -/
  overFields (lower : List (String × Json)) : List (String × Json) → List (String × Json)
    | [] => lower
    | (k, v) :: fs =>
      overFields (setField lower k (overlay ((lower.lookup k).getD .null) v)) fs

/-- An object in which a path of keys leads to a value. -/
def nest : List String → Json → Json
  | [], v => v
  | k :: ks, v => .object [(k, nest ks v)]

end Json

end Interleave
