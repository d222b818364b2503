import Interleave.Data.Remainder
import Interleave.Number.Binary64
import Interleave.Text.Classes

/-!
# Reading JSON

What can be wrong with a JSON text, and what a reader of such a text is.
-/

namespace Interleave

/-!
## What can be wrong with a JSON text

A text is read from left to right and the first fault ends the reading. Half of the faults are
about the notation, half about what was found in place of what was wanted.
-/

/-- What was being read when the text ended. -/
inductive Within where
  | value
  | list
  | object
  | string
  deriving DecidableEq, Repr

/-- What was found where something else was wanted. -/
inductive Found where
  | null
  | bool (b : Bool)
  | integer (n : Int)
  | float (x : Binary64)
  | string (s : String)
  | sequence
  | map
  | unitVariant
  deriving DecidableEq

/-- The first fault of a text. -/
inductive Fault where
  | endOfText (within : Within)
  | expectedValue
  | expectedIdent
  | expectedColon
  | expectedListEnd
  | expectedObjectEnd
  | keyNotString
  | trailingComma
  | trailingCharacters
  | invalidNumber
  | numberOutOfRange
  | invalidEscape
  | loneSurrogate
  | unfinishedSurrogate
  | controlCharacter
  | invalidType (found : Found) (wanted : String)
  | invalidValue (found : Found) (wanted : String)
  | invalidLength (length : Nat) (wanted : String)
  | missingField (name : String)
  | duplicateField (name : String)
  | unknownField (name : String) (known : List String)
  | unknownVariant (name : String) (known : List String)
  | durationOverflow
  | badInstant
  deriving DecidableEq

def Within.text : Within → String
  | .value => "a value"
  | .list => "a list"
  | .object => "an object"
  | .string => "a string"

def Found.text : Found → String
  | .null => "null"
  | .bool b => "boolean `" ++ toString b ++ "`"
  | .integer n => "integer `" ++ toString n ++ "`"
  | .float x => "floating point `" ++ String.ofList x.chars ++ "`"
  | .string s => "string " ++ quoted s
  | .sequence => "sequence"
  | .map => "map"
  | .unitVariant => "unit variant"

/-- A list of names between backquotes, as alternatives. -/
def alternatives : List String → String
  | [] => ""
  | [a] => "`" ++ a ++ "`"
  | [a, b] => "`" ++ a ++ "` or `" ++ b ++ "`"
  | names => "one of " ++ ", ".intercalate (names.map fun a ↦ "`" ++ a ++ "`")

def Fault.message : Fault → String
  | .endOfText w => "EOF while parsing " ++ w.text
  | .expectedValue => "expected value"
  | .expectedIdent => "expected ident"
  | .expectedColon => "expected `:`"
  | .expectedListEnd => "expected `,` or `]`"
  | .expectedObjectEnd => "expected `,` or `\x7d`"
  | .keyNotString => "key must be a string"
  | .trailingComma => "trailing comma"
  | .trailingCharacters => "trailing characters"
  | .invalidNumber => "invalid number"
  | .numberOutOfRange => "number out of range"
  | .invalidEscape => "invalid escape"
  | .loneSurrogate => "lone leading surrogate in hex escape"
  | .unfinishedSurrogate => "unexpected end of hex escape"
  | .controlCharacter => "control character (\\u0000-\\u001F) found while parsing a string"
  | .invalidType found wanted => "invalid type: " ++ found.text ++ ", expected " ++ wanted
  | .invalidValue found wanted => "invalid value: " ++ found.text ++ ", expected " ++ wanted
  | .invalidLength n wanted => "invalid length " ++ toString n ++ ", expected " ++ wanted
  | .missingField name => "missing field `" ++ name ++ "`"
  | .duplicateField name => "duplicate field `" ++ name ++ "`"
  | .unknownField name known =>
    "unknown field `" ++ name ++ "`, expected " ++ alternatives known
  | .unknownVariant name known =>
    "unknown variant `" ++ name ++ "`, expected " ++ alternatives known
  | .durationOverflow => "overflow deserializing Duration"
  | .badInstant => "invalid instant"

/-!
## Readers

A reader takes the front of a text and says what it read and what is left, or the first fault.
-/

/-- Reads the front of a text. -/
abbrev Reader (α : Type) := ∀ s : List Char, Except Fault (α × Rest s)

/-- The same for a reader that may read nothing. -/
abbrev TailReader (α : Type) := ∀ s : List Char, Except Fault (α × Tail s)

namespace Json

/-! ### Blanks -/

def isBlank (c : Char) : Bool := c == ' ' || c == '\n' || c == '\t' || c == '\r'

def afterBlank (s : List Char) : Tail s := .dropWhile isBlank s

/-- The first character that is no blank, and what stands behind it. -/
def front (s : List Char) : Option (Char × Rest s) := (afterBlank s).next?

/-! ### Words and digits -/

/-- Takes exactly the given characters. -/
def takeWord : List Char → TailReader Unit
  | [], s => .ok ((), .all s)
  | _ :: _, [] => .error (.endOfText .value)
  | w :: ws, c :: s =>
    if c = w then
      match takeWord ws s with
      | .ok (_, t) => .ok ((), (t.behind c).toTail)
      | .error e => .error e
    else .error .expectedIdent

def digits (s : List Char) : List Char := s.takeWhile Char.isDigit

def afterDigits (s : List Char) : Tail s := .dropWhile Char.isDigit s

def digitValue (c : Char) : Nat := c.toNat - 48

end Json

end Interleave
