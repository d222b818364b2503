/-!
# Binary floating point in exact arithmetic

A finite double is a sign and a value `mantissa * 2 ^ exponent`. Every operation here computes the
exact result as a quotient of natural numbers and rounds it once, to nearest with ties to even, so
nothing depends on the machine's floating point unit and every result can be computed in the logic.
-/

namespace Interleave

/-- The quotient rounded to the nearest integer, a tie to the even one. -/
def roundDiv (num den : Nat) : Nat :=
  let q := num / den
  let r := num % den
  if 2 * r < den then q
  else if den < 2 * r then q + 1
  else if q % 2 = 0 then q else q + 1

/-- `num / den * 2 ^ (-e)` as a quotient. -/
def scaleTwo (num den : Nat) (e : Int) : Nat × Nat :=
  if 0 ≤ e then (num, den <<< e.toNat) else (num <<< (-e).toNat, den)

/-- The greatest `e` with `2 ^ e ≤ num / den`, for a positive quotient. -/
def floorLogTwo (num den : Nat) : Int :=
  let e : Int := (Nat.log2 num : Int) - (Nat.log2 den : Int)
  let (n, d) := scaleTwo num den e
  if d ≤ n then e else e - 1

/-- A finite double. -/
structure Binary64 where
  negative : Bool
  mantissa : Nat
  exponent : Int
  deriving DecidableEq, Repr

namespace Binary64

/-- The exponent of the least doubles. -/
def leastExponent : Int := -1074

/-- The exponent of the greatest doubles. -/
def greatestExponent : Int := 971

def zero : Binary64 := ⟨false, 0, leastExponent⟩

/-- The double nearest to `num / den`; none if that is beyond the greatest double. -/
def ofRatio? (num den : Nat) : Option Binary64 :=
  if num = 0 then some zero
  else
    let e := max (floorLogTwo num den - 52) leastExponent
    let (n, d) := scaleTwo num den e
    let m := roundDiv n d
    let (m, e) := if m = Nat.pow 2 53 then (Nat.pow 2 52, e + 1) else (m, e)
    if greatestExponent < e then none else some ⟨false, m, e⟩

/-- The magnitude as a quotient. -/
def ratio (x : Binary64) : Nat × Nat := scaleTwo x.mantissa 1 (-x.exponent)

def isZero (x : Binary64) : Bool := x.mantissa == 0

/-- The magnitude with a given sign. -/
def withSign (negative : Bool) (x : Binary64) : Binary64 := { x with negative }

/-- The nearest double to a natural number below `2 ^ 1024`; greater numbers give zero. -/
def ofNat (n : Nat) : Binary64 := (ofRatio? n 1).getD zero

/-- Product of magnitudes. -/
def mul? (x y : Binary64) : Option Binary64 :=
  ofRatio? (x.ratio.1 * y.ratio.1) (x.ratio.2 * y.ratio.2)

/-- Quotient of magnitudes, by a divisor other than zero. -/
def div? (x y : Binary64) : Option Binary64 :=
  ofRatio? (x.ratio.1 * y.ratio.2) (x.ratio.2 * y.ratio.1)

/-- Sum of magnitudes. -/
def add? (x y : Binary64) : Option Binary64 :=
  ofRatio? (x.ratio.1 * y.ratio.2 + y.ratio.1 * x.ratio.2) (x.ratio.2 * y.ratio.2)

/-- The double nearest to a power of ten. -/
def powTen (n : Nat) : Binary64 := ofNat (Nat.pow 10 n)

/-! ## Decimal scientific notation

A decimal literal is a significand and a power of ten. Its value is computed in two or more
rounding steps, from the significand rounded to a double: one multiplication or division by a
power of ten up to `10 ^ 308`, preceded for smaller numbers by divisions by `10 ^ 308`. So the
result can be off by a few units in the last place, always in the same way. -/

/-- Divides by `10 ^ n`, at most `10 ^ 308` at a time. -/
def divPowTen (x : Binary64) (n : Nat) : Binary64 :=
  if x.isZero then x
  else if n ≤ 308 then (x.div? (powTen n)).getD zero
  else divPowTen ((x.div? (powTen 308)).getD zero) (n - 308)
termination_by n

/-- The double for `significand * 10 ^ exponent`; none if it is out of range. -/
def ofScientific? (significand : Nat) (exponent : Int) : Option Binary64 :=
  let x := ofNat significand
  if exponent < 0 then some (x.divPowTen exponent.natAbs)
  else if exponent ≤ 308 then x.mul? (powTen exponent.toNat)
  else if x.isZero then some x
  else none

end Binary64

/-!
## Fixed decimal places

The exact value of a double, rounded to a number of decimal places; a tie goes to the even digit.
-/

namespace Binary64

/-- The magnitude with `places` digits after the point, for `places` at least 1. -/
def fixed (places : Nat) (x : Binary64) : List Char :=
  let (n, d) := x.ratio
  let units := roundDiv (n * Nat.pow 10 places) d
  let tail := Nat.toDigits 10 (units % Nat.pow 10 places)
  Nat.toDigits 10 (units / Nat.pow 10 places) ++
    '.' :: List.replicate (places - tail.length) '0' ++ tail

end Binary64

/-!
## The fewest digits that read back

A double is written with as few decimal digits as determine it, and of those numerals with the one
nearest to it. The reals that round to `m * 2 ^ e` form an interval around it, whose ends belong to
it exactly if `m` is even. On the grid of numerals with `n` digits only the two neighbours of the
value can be the nearest points of the interval, so it is enough to test these, for `n` from 1 on;
17 digits always suffice.

`NumeralStyle` holds what is left to decide once the digits are known: where the decimal point goes
and when an exponent is written instead.
-/

/-- A decimal numeral `0.d₁d₂… * 10 ^ point`, without trailing zeros. -/
structure Numeral where
  digits : List Char
  point : Int
  deriving DecidableEq, Repr

/-- The greatest `e` with `10 ^ e ≤ num / den`, at or below `e`, searching downwards. -/
def floorLogTenFrom (num den : Nat) (e : Int) : Nat → Int
  | 0 => e
  | fuel + 1 =>
    let below := if 0 ≤ e then den * Nat.pow 10 e.toNat ≤ num else den ≤ num * Nat.pow 10 (-e).toNat
    if below then e else floorLogTenFrom num den (e - 1) fuel

/-- The greatest `e` with `10 ^ e ≤ num / den`, for a positive quotient. The binary logarithm
bounds it from above within two, as `10 ^ 3 > 2 ^ 9` and `log 2 / log 10` is just above
`30102 / 100000`. -/
def floorLogTen (num den : Nat) : Int :=
  floorLogTenFrom num den ((floorLogTwo num den + 1) * 30103 / 100000 + 1) 4

namespace Binary64

/-- Whether the positive real `n / d` rounds to the magnitude of `x`. -/
def roundsTo (x : Binary64) (n d : Nat) : Bool :=
  let m := x.mantissa
  -- all in quarters of the last place; just above a power of two the step below is half as wide
  let below := if m = Nat.pow 2 52 ∧ leastExponent < x.exponent then 4 * m - 1 else 4 * m - 2
  let above := 4 * m + 2
  let (n, d) := scaleTwo n d (x.exponent - 2)
  if m % 2 = 0 then below * d ≤ n && n ≤ above * d else below * d < n && n < above * d

/-- `c * 10 ^ e` as a quotient. -/
def gridPoint (c : Nat) (e : Int) : Nat × Nat :=
  if 0 ≤ e then (c * Nat.pow 10 e.toNat, 1) else (c, Nat.pow 10 (-e).toNat)

/-- The better of the two neighbours of `x` on the grid of multiples of `10 ^ e`, if one of them
rounds to `x`. -/
def onGrid? (x : Binary64) (e : Int) : Option Nat :=
  let (n, d) := x.ratio
  let (n, d) := if 0 ≤ e then (n, d * Nat.pow 10 e.toNat) else (n * Nat.pow 10 (-e).toNat, d)
  let low := n / d
  let hit := fun c ↦ let (a, b) := gridPoint c e; x.roundsTo a b
  let nearest := roundDiv n d
  let other := if nearest = low then low + 1 else low
  if hit nearest then some nearest else if hit other then some other else none

/-- Tries the grids with `17 - k` digits and more. -/
def shortestFrom (x : Binary64) (lead : Int) : Nat → Nat × Int
  | 0 => ((x.onGrid? (lead - 16)).getD 0, lead - 16)
  | k + 1 =>
    let e := lead - (16 - (k + 1) : Nat)
    match x.onGrid? e with
    | some c => (c, e)
    | none => shortestFrom x lead k

/-- The numeral with the fewest digits that reads back as the magnitude of `x`. -/
def shortest (x : Binary64) : Numeral :=
  if x.isZero then ⟨['0'], 1⟩
  else
    let (n, d) := x.ratio
    let (c, e) := shortestFrom x (floorLogTen n d) 16
    let all := Nat.toDigits 10 c
    let digits := (all.reverse.dropWhile (· == '0')).reverse
    ⟨digits, e + all.length⟩

end Binary64

/-- Which numerals are written positionally, by the place of their point. -/
structure NumeralStyle where
  leastPoint : Int
  greatestPoint : Int

/-- Numbers from `0.00001` up to `10 ^ 16` have no exponent. -/
def NumeralStyle.plain : NumeralStyle := ⟨-4, 16⟩

namespace Numeral

def zeros (n : Nat) : List Char := List.replicate n '0'

/-- A whole number ends in `.0`; an exponent always has its sign. -/
def render (style : NumeralStyle) (x : Numeral) : List Char :=
  let size : Int := x.digits.length
  if style.leastPoint ≤ x.point ∧ x.point ≤ style.greatestPoint then
    if size ≤ x.point then x.digits ++ zeros (x.point - size).toNat ++ ['.', '0']
    else if 0 < x.point then
      x.digits.take x.point.toNat ++ '.' :: x.digits.drop x.point.toNat
    else '0' :: '.' :: zeros (-x.point).toNat ++ x.digits
  else
    let e := x.point - 1
    let sign := if e < 0 then '-' else '+'
    let power := 'e' :: sign :: Nat.toDigits 10 e.natAbs
    match x.digits with
    | [] => power
    | [d] => d :: power
    | d :: rest => d :: '.' :: rest ++ power

end Numeral

/-- The text of a double: the fewest digits that read back. -/
def Binary64.chars (x : Binary64) : List Char :=
  let body := x.shortest.render .plain
  if x.negative then '-' :: body else body

end Interleave
