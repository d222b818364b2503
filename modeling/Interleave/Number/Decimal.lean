import Interleave.Json.Text
import Interleave.Number.Binary64

/-!
# Decimal literals

The literals that settings may give for numbers: wider than those of JSON, for they may have a plus
sign, leading zeros, and nothing on one side of the point.
-/

namespace Interleave

/-- A decimal literal: a whole number times a power of ten. -/
structure Decimal where
  negative : Bool
  significand : Nat
  exponent : Int
  deriving DecidableEq

/-- The value of some digits. -/
def digitsValue (base : Nat) (digits : List Nat) : Nat := digits.foldl (fun n d ↦ n * base + d) 0

/-- The number that digits of a base spell; none if there are no digits or other characters. -/
def natOfDigits? (base : Nat) (s : List Char) : Option Nat :=
  if s.isEmpty then none
  else
    (s.mapM fun c ↦ (Json.hexValue? c).filter (· < base)).map (digitsValue base)

/-- Takes a sign off the front; `true` is minus. -/
def takeSign : List Char → Bool × List Char
  | '-' :: s => (true, s)
  | '+' :: s => (false, s)
  | s => (false, s)

namespace Decimal

/-- The power of ten behind its mark; zero if nothing follows the digits. -/
def exponent? : List Char → Option Int
  | [] => some 0
  | c :: s =>
    if c = 'e' ∨ c = 'E' then
      let (down, s) := takeSign s
      (natOfDigits? 10 s).map fun n ↦ if down then -n else n
    else none

def ofChars? (s : List Char) : Option Decimal :=
  let (negative, s) := takeSign s
  let whole := Json.digits s
  let (fraction, rest) :=
    match s.dropWhile Char.isDigit with
    | '.' :: s => (Json.digits s, s.dropWhile Char.isDigit)
    | s => ([], s)
  match natOfDigits? 10 (whole ++ fraction), exponent? rest with
  | some n, some e => some ⟨negative, n, e - fraction.length⟩
  | _, _ => none

/-- The double nearest to the literal, give or take rounding; none if it is out of range. -/
def toBinary64? (d : Decimal) : Option Binary64 :=
  (Binary64.ofScientific? d.significand d.exponent).map (Binary64.withSign d.negative)

end Decimal

end Interleave
