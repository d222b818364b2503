/-!
# Shuffling with a seed

A stream of random words that is determined by a seed, and lists in an order that is drawn from it.
-/

namespace Interleave

/-!
## A stream of random words

The words of a ChaCha key stream with eight rounds, whose key is spread from a 64-bit seed by a
linear congruential generator with a permuted output. A position in the stream is the number of
words drawn so far, so a word is a function of the key and its place.
-/

/-- A source of random 32-bit words. -/
class RandomSource (ρ : Type) where
  next : ρ → UInt32 × ρ

/-- A position in the key stream of a key of eight words. -/
structure WordStream where
  key : List UInt32
  drawn : Nat := 0

namespace WordStream

/-! ### The key -/

def seedMultiplier : UInt64 := 6364136223846793005

def seedIncrement : UInt64 := 11634580027462260723

def rotateRight (x n : UInt32) : UInt32 := (x >>> n) ||| (x <<< ((32 - n) % 32))

/-- The output of a state: some of its high bits, rotated by the five highest. -/
def seedOutput (s : UInt64) : UInt32 :=
  rotateRight (((s >>> 18) ^^^ s) >>> 27).toUInt32 (s >>> 59).toUInt32

/-- The next `n` outputs after a state. -/
def seedWords (s : UInt64) : Nat → List UInt32
  | 0 => []
  | n + 1 =>
    let s := s * seedMultiplier + seedIncrement
    seedOutput s :: seedWords s n

def ofSeed (seed : UInt64) : WordStream := { key := seedWords seed 8 }

/-! ### The stream -/

def rotateLeft (x n : UInt32) : UInt32 := (x <<< n) ||| (x >>> (32 - n))

/-- Four words, to which the quarter round is applied. -/
structure Quarter where
  a : UInt32
  b : UInt32
  c : UInt32
  d : UInt32

def Quarter.round (q : Quarter) : Quarter :=
  let a := q.a + q.b
  let d := rotateLeft (q.d ^^^ a) 16
  let c := q.c + d
  let b := rotateLeft (q.b ^^^ c) 12
  let a := a + b
  let d := rotateLeft (d ^^^ a) 8
  let c := c + d
  let b := rotateLeft (b ^^^ c) 7
  ⟨a, b, c, d⟩

/-- Four rows of four words. -/
structure Block where
  w : Fin 4 → Fin 4 → UInt32

namespace Block

/-- A round down the columns, where row `r` starts `shift * r` columns to the right. -/
def columnRound (shift : Fin 4) (m : Block) : Block :=
  let q := fun (j : Fin 4) ↦
    (Quarter.mk (m.w 0 j) (m.w 1 (j + shift)) (m.w 2 (j + shift * 2)) (m.w 3 (j + shift * 3))).round
  let q0 := q 0
  let q1 := q 1
  let q2 := q 2
  let q3 := q 3
  let pick := fun (j : Fin 4) ↦ match j with
    | 0 => q0
    | 1 => q1
    | 2 => q2
    | 3 => q3
  ⟨fun i j ↦ match i with
    | 0 => (pick j).a
    | 1 => (pick (j - shift)).b
    | 2 => (pick (j - shift * 2)).c
    | 3 => (pick (j - shift * 3)).d⟩

/-- The words row by row. -/
def toList (m : Block) : List UInt32 :=
  [0, 1, 2, 3].flatMap fun i ↦ [0, 1, 2, 3].map fun j ↦ m.w i j

def ofList (l : List UInt32) : Block := ⟨fun i j ↦ l.getD (4 * i.val + j.val) 0⟩

/-- A round of columns and a round of diagonals, on stored words. -/
def doubleRound (m : Block) : Block := ofList (columnRound 1 (columnRound 0 m)).toList

end Block

def constants : List UInt32 := [0x61707865, 0x3320646e, 0x79622d32, 0x6b206574]

/-- The block with a given number, before the rounds. -/
def initial (key : List UInt32) (number : Nat) : Block :=
  .ofList (constants ++ key ++ [.ofNat number, .ofNat (number / UInt32.size), 0, 0])

/-- The sixteen words of a block of the stream. -/
def block (key : List UInt32) (number : Nat) : List UInt32 :=
  let start := initial key number
  let mixed := start.doubleRound.doubleRound.doubleRound.doubleRound
  List.zipWith (· + ·) mixed.toList start.toList

/-- A word of the stream. -/
def word (key : List UInt32) (place : Nat) : UInt32 :=
  (block key (place / 16)).getD (place % 16) 0

instance : RandomSource WordStream :=
  ⟨fun s ↦ (word s.key s.drawn, { s with drawn := s.drawn + 1 })⟩

end WordStream

/-!
## Shuffling

A list is shuffled by exchanging each position, from the last down, with one drawn from those up to
it. A position below `n` is drawn from a random word by multiplication: the high half of the product
with `n` is the position, and words whose low half falls outside a multiple of `n` are refused, so
that all positions are equally likely.
-/

variable {ρ : Type} [RandomSource ρ]

/-- The greatest low half that is accepted: `n` shifted up as far as it goes, less one. -/
def acceptedZone (n : Nat) : Nat := n <<< (31 - Nat.log2 n) - 1

/-- Draws a number below `n`, at most `tries` times more. At least every other word is accepted, so
the last of many tries, which counts in any case, is practically never reached. -/
def drawBelow (n : Nat) : (tries : Nat) → ρ → Nat × ρ
  | 0, r =>
    let (v, r) := RandomSource.next r
    (v.toNat * n / UInt32.size, r)
  | tries + 1, r =>
    let (v, r) := RandomSource.next r
    if v.toNat * n % UInt32.size ≤ acceptedZone n then (v.toNat * n / UInt32.size, r)
    else drawBelow n tries r

/-- The words that are drawn for one position before the next one is taken as it is. -/
def drawTries : Nat := 1000

/-- Exchanges the positions from `i` down to 1. -/
def shuffleFrom {α : Type} : (i : Nat) → Array α → ρ → Array α × ρ
  | 0, a, r => (a, r)
  | i + 1, a, r =>
    let (j, r) := drawBelow (i + 2) drawTries r
    shuffleFrom i (a.swapIfInBounds (i + 1) j) r

def shuffle {α : Type} (l : List α) (r : ρ) : List α × ρ :=
  let (a, r) := shuffleFrom (l.length - 1) l.toArray r
  (a.toList, r)

end Interleave
