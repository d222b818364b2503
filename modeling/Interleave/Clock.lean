import Interleave.Json.Record
import Interleave.Number.Binary64
import Interleave.Text.Basic

/-!
# Time

Dates, lengths of time and points in time, and how they are written and read.
-/

namespace Interleave

/-!
## The Gregorian calendar

Days are numbered from 1 January 1970. To turn dates into numbers the year is taken to begin in
March, so that the leap day is its last day and the months before it have a fixed pattern of lengths
that repeats every five months; 400 years have 146097 days.
-/

/-- A date of the proleptic Gregorian calendar. -/
structure Date where
  year : Int
  month : Nat
  day : Nat
  deriving DecidableEq, Repr

namespace Date

def isLeap (year : Int) : Bool := year % 4 == 0 && (year % 100 != 0 || year % 400 == 0)

def monthLength (year : Int) (month : Nat) : Nat :=
  match month with
  | 2 => if isLeap year then 29 else 28
  | 4 | 6 | 9 | 11 => 30
  | _ => 31

def isValid (d : Date) : Bool :=
  1 ≤ d.month && d.month ≤ 12 && 1 ≤ d.day && d.day ≤ monthLength d.year d.month

/-- Days from 1 March of the year 0 to 1 January 1970. -/
def epoch : Int := 719468

/-- The number of the day. -/
def toDay (d : Date) : Int :=
  let y := if d.month ≤ 2 then d.year - 1 else d.year
  let m : Int := (d.month + 9) % 12
  365 * y + y / 4 - y / 100 + y / 400 + (153 * m + 2) / 5 + (d.day - 1 : Int) - epoch

/-- The date of a day. -/
def ofDay (n : Int) : Date :=
  let n := n + epoch
  let era := n / 146097
  let dayOfEra := n % 146097
  let yearOfEra := (dayOfEra - dayOfEra / 1460 + dayOfEra / 36524 - dayOfEra / 146096) / 365
  let dayOfYear := dayOfEra - (365 * yearOfEra + yearOfEra / 4 - yearOfEra / 100)
  let m := (5 * dayOfYear + 2) / 153
  let day := dayOfYear - (153 * m + 2) / 5 + 1
  let month := if m < 10 then m + 3 else m - 9
  let year := yearOfEra + era * 400
  ⟨if month ≤ 2 then year + 1 else year, month.toNat, day.toNat⟩

end Date

/-!
## Lengths of time

A span is a whole number of nanoseconds. As JSON it is a pair of seconds and nanoseconds; more than
a second's worth of nanoseconds is carried over. As a text it is a number of seconds with some
decimal places, taken from the nearest doubles of its two parts.
-/

/-- A length of time in nanoseconds. -/
structure Span where
  total : Nat
  deriving DecidableEq, Repr

namespace Span

def perSecond : Nat := 1000000000

def zero : Span := ⟨0⟩

def ofSeconds (n : Nat) : Span := ⟨n * perSecond⟩

def ofMillis (n : Nat) : Span := ⟨n * 1000000⟩

def ofParts (secs nanos : Nat) : Span := ⟨secs * perSecond + nanos⟩

/-- The whole seconds. -/
def secs (t : Span) : Nat := t.total / perSecond

/-- The nanoseconds beyond the whole seconds. -/
def nanos (t : Span) : Nat := t.total % perSecond

def add (s t : Span) : Span := ⟨s.total + t.total⟩

/-- The span in seconds, as a double: the sum of the doubles of its two parts. -/
def toBinary64 (t : Span) : Binary64 :=
  let whole := Binary64.ofNat t.secs
  let part := (Binary64.ofRatio? t.nanos perSecond).getD .zero
  (whole.add? part).getD .zero

/-- The seconds with `places` decimal places. -/
def fixed (places : Nat) (t : Span) : String := .ofList (t.toBinary64.fixed places)

/-! ### JSON -/

def fields : Fields (UInt64 × UInt32 × Unit) :=
  .cons (.required "secs" .word64) <| .cons (.required "nanos" .word32) .nil

/-- Spans of 2 ^ 64 seconds and more are refused. -/
def ofFields (a : UInt64 × UInt32 × Unit) : Except Fault Span :=
  let t := ofParts a.1.toNat a.2.1.toNat
  if t.secs < UInt64.size then .ok t else .error .durationOverflow

def shape : Shape Span :=
  .recordWith "struct Duration" "struct Duration" true fields
    (fun t ↦ (.ofNat t.secs, .ofNat t.nanos, ())) ofFields

end Span

/-!
## Points in time

An instant is a day, a second of the day and a fraction of the second, in universal time. In a leap
second the fraction goes on beyond one second, so that the second of the day stays below 86400.
-/

/-- A point in time. -/
structure Instant where
  day : Int
  second : Nat
  /-- Below `10 ^ 9`, or below `2 * 10 ^ 9` in a leap second. -/
  nanos : Nat
  deriving DecidableEq, Repr, Inhabited

namespace Instant

def secondsPerDay : Nat := 86400

/-- The beginning of 1970. -/
def epoch : Instant := ⟨0, 0, 0⟩

/-- The nanoseconds from one instant to another, negative if the second is the earlier one. A leap
second at the earlier of the two times of day counts, as it lies between them. -/
def nanosSince (a b : Instant) : Int :=
  let leap : Int :=
    if b.second < a.second then (if b.nanos ≥ Span.perSecond then 1 else 0)
    else if a.second < b.second then (if a.nanos ≥ Span.perSecond then -1 else 0)
    else 0
  let seconds := (a.day - b.day) * secondsPerDay + (a.second : Int) - b.second + leap
  seconds * Span.perSecond + ((a.nanos : Int) - b.nanos)

/-- The time from `b` to `a`; zero if `a` is the earlier one. -/
def since (a b : Instant) : Span := ⟨(a.nanosSince b).toNat⟩

/-- The instant a span later, outside leap seconds. -/
def after (a : Instant) (t : Span) : Instant :=
  let nanos := a.nanos + t.total
  let second := a.second + nanos / Span.perSecond
  ⟨a.day + (second / secondsPerDay : Nat), second % secondsPerDay, nanos % Span.perSecond⟩

end Instant

/-!
## Time stamps

An instant is written as a date and a time in universal time, with as few groups of three fraction
digits as it needs. It is read more freely: fields may be shorter and have blanks before them, the
separator may be a space, and the time may be given with its distance from universal time.
-/

namespace Timestamp

/-! ### Writing -/

/-- The decimal digits with zeros in front, at least `width` characters. -/
def padZero (width n : Nat) : List Char :=
  let ds := Nat.toDigits 10 n
  List.replicate (width - ds.length) '0' ++ ds

/-- Years from 0 to 9999 have four digits, all others a sign and at least four. -/
def yearChars (y : Int) : List Char :=
  if 0 ≤ y ∧ y ≤ 9999 then padZero 4 y.toNat
  else (if y < 0 then '-' else '+') :: padZero 4 y.natAbs

/-- No fraction, or three, six or nine digits. -/
def fractionChars (nanos : Nat) : List Char :=
  if nanos = 0 then []
  else if nanos % 1000000 = 0 then '.' :: padZero 3 (nanos / 1000000)
  else if nanos % 1000 = 0 then '.' :: padZero 6 (nanos / 1000)
  else '.' :: padZero 9 nanos

def chars (t : Instant) : List Char :=
  let d := Date.ofDay t.day
  let leap := t.nanos / Span.perSecond
  yearChars d.year ++ '-' :: padZero 2 d.month ++ '-' :: padZero 2 d.day ++
    'T' :: padZero 2 (t.second / 3600) ++ ':' :: padZero 2 (t.second / 60 % 60) ++
    ':' :: padZero 2 (t.second % 60 + leap) ++ fractionChars (t.nanos % Span.perSecond) ++ ['Z']

/-! ### Reading -/

/-- At least one and at most `most` digits; without a bound if that is none. -/
def readDigits (most : Option Nat) (s : List Char) : Option (Nat × List Char) :=
  let run := s.takeWhile Char.isDigit
  let ds := (most.map run.take).getD run
  if ds.isEmpty then none else some (Nat.ofDigitChars 10 ds 0, s.drop ds.length)

/-- A number of at most two digits, after blanks. -/
def readTwo (s : List Char) : Option (Nat × List Char) := readDigits (some 2) (dropBlank s)

/-- A year of at most four digits, or of any number of digits after a sign. -/
def readYear (s : List Char) : Option (Int × List Char) :=
  match dropBlank s with
  | '-' :: s => (readDigits none s).map fun (n, r) ↦ (-(n : Int), r)
  | '+' :: s => (readDigits none s).map fun (n, r) ↦ ((n : Int), r)
  | s => (readDigits (some 4) s).map fun (n, r) ↦ ((n : Int), r)

/-- A given character, after blanks. -/
def readMark (c : Char) (s : List Char) : Option (List Char) :=
  match dropBlank s with
  | d :: s => if d = c then some s else none
  | [] => none

/-- The nanoseconds of a fraction, if there is one. Digits beyond the ninth count for nothing. -/
def readFraction (s : List Char) : Option (Nat × List Char) :=
  match s with
  | '.' :: s =>
    let ds := (s.takeWhile Char.isDigit).take 9
    if ds.isEmpty then none
    else some (Nat.ofDigitChars 10 ds 0 * Nat.pow 10 (9 - ds.length), s.dropWhile Char.isDigit)
  | s => some (0, s)

/-- Exactly two digits. -/
def readPair (s : List Char) : Option (Nat × List Char) :=
  match s with
  | a :: b :: s =>
    if a.isDigit && b.isDigit then some (Nat.ofDigitChars 10 [a, b] 0, s) else none
  | _ => none

/-- Hours and minutes behind a sign, in seconds. -/
def readOffset (s : List Char) : Option (Nat × List Char) := do
  let (hours, s) ← readPair s
  let (minutes, s) ← readPair (s.dropWhile fun c ↦ c == ':' || isBlank c)
  if minutes < 60 then some (hours * 3600 + minutes * 60, s) else none

/-- The distance from universal time in seconds: `Z`, `UTC`, or a signed number of hours and
minutes. -/
def readZone (s : List Char) : Option (Int × List Char) :=
  if (s.take 3).map Char.toUpper = ['U', 'T', 'C'] then some (0, s.drop 3)
  else
    match s with
    | 'Z' :: s => some (0, s)
    | 'z' :: s => some (0, s)
    | '+' :: s => (readOffset s).map fun (n, r) ↦ ((n : Int), r)
    | '-' :: s => (readOffset s).map fun (n, r) ↦ (-(n : Int), r)
    | '\u2212' :: s => (readOffset s).map fun (n, r) ↦ (-(n : Int), r)
    | _ => none

def leastYear : Int := -262143

def greatestYear : Int := 262142

/-- The instant of a date, a time of day in seconds and nanoseconds, and a zone. -/
def assemble? (d : Date) (hour minute second nanos : Nat) (zone : Int) : Option Instant :=
  let dateOk := d.isValid && leastYear ≤ d.year && d.year ≤ greatestYear
  if dateOk && hour < 24 && minute < 60 && second ≤ 60 && zone.natAbs < Instant.secondsPerDay then
    let (second, nanos) := if second = 60 then (59, nanos + Span.perSecond) else (second, nanos)
    let moment : Int := hour * 3600 + minute * 60 + second - zone
    let day := d.toDay + moment / Instant.secondsPerDay
    let year := (Date.ofDay day).year
    if leastYear ≤ year ∧ year ≤ greatestYear then
      some ⟨day, (moment % Instant.secondsPerDay).toNat, nanos⟩
    else none
  else none

/-- The instant that a text denotes. -/
def ofChars? (s : List Char) : Option Instant := do
  let (year, s) ← readYear s
  let s ← readMark '-' s
  let (month, s) ← readTwo s
  let s ← readMark '-' s
  let (day, s) ← readTwo s
  let s ← match s with
    | c :: s => if c = 't' ∨ c = 'T' ∨ c = ' ' then some s else none
    | [] => none
  let (hour, s) ← readTwo s
  let s ← readMark ':' s
  let (minute, s) ← readTwo s
  let s ← readMark ':' s
  let (second, s) ← readTwo s
  let (nanos, s) ← readFraction s
  let (zone, s) ← readZone (dropBlank s)
  if (dropBlank s).isEmpty then assemble? ⟨year, month, day⟩ hour minute second nanos zone else none

end Timestamp

/-- An instant is a text with its time stamp. -/
def Instant.shape : Shape Instant where
  write t := .text (.ofList (Timestamp.chars t))
  read s :=
    match Shape.text.read s with
    | .error e => .error e
    | .ok (t, r) =>
      match Timestamp.ofChars? t.toList with
      | some i => .ok (i, r)
      | none => .error .badInstant
  adopt
    | .text t => Timestamp.ofChars? t.toList
    | _ => none

end Interleave
