import Interleave.Json.Reader
import Interleave.Json.Value

/-!
# Scanning JSON texts

Readers for the parts of a JSON text: strings, numbers, and whole values that are skipped.
-/

namespace Interleave

/-!
## Reading texts

A text stands between quotes. Inside, a backslash begins an escape, and control characters have to
be escaped. A character beyond 16 bits may be escaped as a surrogate pair; half a pair is refused.

`skipText` reads a text that nobody wants. It checks the escapes but not the pairing of surrogates.
-/

namespace Json

def hexValue? (c : Char) : Option Nat :=
  if c.isDigit then some (c.toNat - 48)
  else if 'a' ≤ c ∧ c ≤ 'f' then some (c.toNat - 87)
  else if 'A' ≤ c ∧ c ≤ 'F' then some (c.toNat - 55)
  else none

def utf8Length (s : List Char) : Nat := s.foldl (fun n c ↦ n + c.utf8Size) 0

/-- The number of four hexadecimal digits. The text has ended if less than four bytes are left. -/
def readHex : TailReader Nat := fun s ↦
  if utf8Length (s.take 4) < 4 then .error (.endOfText .string)
  else
    match s with
    | a :: b :: c :: d :: rest =>
      match hexValue? a, hexValue? b, hexValue? c, hexValue? d with
      | some a, some b, some c, some d =>
        .ok (((a * 16 + b) * 16 + c) * 16 + d,
          ⟨rest, by simp only [List.length_cons]; omega⟩)
      | _, _, _, _ => .error .invalidEscape
    | _ => .error .invalidEscape

def isLeading (n : Nat) : Bool := 0xD800 ≤ n && n ≤ 0xDBFF

def isTrailing (n : Nat) : Bool := 0xDC00 ≤ n && n ≤ 0xDFFF

/-- The second half of a surrogate pair, whose first half is `lead`. -/
def readTrailing (lead : Nat) : TailReader Char
  | [] => .error (.endOfText .string)
  | c :: s =>
    if c ≠ '\\' then .error .unfinishedSurrogate
    else
      match s with
      | [] => .error (.endOfText .string)
      | d :: s =>
        if d ≠ 'u' then .error .unfinishedSurrogate
        else
          match readHex s with
          | .error e => .error e
          | .ok (n, t) =>
            if isTrailing n then
              .ok (Char.ofNat (0x10000 + (lead - 0xD800) * 0x400 + (n - 0xDC00)),
                ((t.behind d).behind c).toTail)
            else .error .loneSurrogate

/-- The characters that a one-letter escape may name. -/
def shortEscape? : Char → Option Char
  | '"' => some '"'
  | '\\' => some '\\'
  | '/' => some '/'
  | 'b' => some '\x08'
  | 'f' => some '\x0c'
  | 'n' => some '\n'
  | 'r' => some '\r'
  | 't' => some '\t'
  | _ => none

/-- The character that an escape stands for; the backslash has been read. -/
def readEscape : Reader Char
  | [] => .error (.endOfText .string)
  | c :: s =>
    match shortEscape? c with
    | some d => .ok (d, (Tail.all s).behind c)
    | none =>
      if c ≠ 'u' then .error .invalidEscape
      else
        match readHex s with
        | .error e => .error e
        | .ok (n, t) =>
          if isTrailing n then .error .loneSurrogate
          else if isLeading n then
            match readTrailing n t.left with
            | .error e => .error e
            | .ok (d, q) => .ok (d, (t.andTail q).behind c)
          else .ok (Char.ofNat n, t.behind c)

/-- Reads an escape without asking what it stands for. -/
def skipEscape : Reader Unit
  | [] => .error (.endOfText .string)
  | c :: s =>
    match shortEscape? c with
    | some _ => .ok ((), (Tail.all s).behind c)
    | none =>
      if c ≠ 'u' then .error .invalidEscape
      else (readHex s).map fun (_, t) ↦ ((), t.behind c)

/-- The characters up to the closing quote, which is read too. -/
def readTextChars (s : List Char) : Except Fault (List Char × Rest s) :=
  match s with
  | [] => .error (.endOfText .string)
  | c :: s =>
    if c = '"' then .ok ([], (Tail.all s).behind c)
    else if c = '\\' then
      match readEscape s with
      | .error e => .error e
      | .ok (d, r) =>
        have := r.shorter
        match readTextChars r.left with
        | .error e => .error e
        | .ok (ds, q) => .ok (d :: ds, (r.andThen q).behind c)
    else if c.toNat < 0x20 then .error .controlCharacter
    else
      match readTextChars s with
      | .error e => .error e
      | .ok (cs, r) => .ok (c :: cs, r.behind c)
termination_by s.length
decreasing_by
  · simp only [List.length_cons]; omega
  · simp

/-- Reads up to the closing quote, keeping nothing. -/
def skipText (s : List Char) : Except Fault (Unit × Rest s) :=
  match s with
  | [] => .error (.endOfText .string)
  | c :: s =>
    if c = '"' then .ok ((), (Tail.all s).behind c)
    else if c = '\\' then
      match skipEscape s with
      | .error e => .error e
      | .ok (_, r) =>
        have := r.shorter
        match skipText r.left with
        | .error e => .error e
        | .ok (_, q) => .ok ((), (r.andThen q).behind c)
    else if c.toNat < 0x20 then .error .controlCharacter
    else
      match skipText s with
      | .error e => .error e
      | .ok (_, r) => .ok ((), r.behind c)
termination_by s.length
decreasing_by
  · simp only [List.length_cons]; omega
  · simp

/-- A text whose opening quote has been read. -/
def readText : Reader String := fun s ↦
  (readTextChars s).map fun (cs, r) ↦ (.ofList cs, r)

end Json

/-!
## Reading numbers

A numeral without point and exponent is an integer if it fits into 64 bits; all others are doubles,
and so are `-0` and integers that do not fit. A double is computed from the first digits that fit
into 64 bits and a power of ten; digits after these count only by their place.

A field of a fixed type says which integers it takes. Everything else is the wrong type, or the
right type with a value out of range.
-/

namespace Json

def maxWord64 : Nat := UInt64.size - 1

/-- Appends digits to a significand as long as it fits into 64 bits; also how many were appended. -/
def absorb (significand : Nat) : List Char → Nat × Nat
  | [] => (significand, 0)
  | c :: cs =>
    let next := significand * 10 + digitValue c
    if maxWord64 < next then (significand, 0)
    else let (n, k) := absorb next cs; (n, k + 1)

/-- The double of a significand and a power of ten. -/
def toFloat (negative : Bool) (significand : Nat) (exponent : Int) : Except Fault Number :=
  match Binary64.ofScientific? significand exponent with
  | some x => .ok (.float (x.withSign negative))
  | none => .error .numberOutOfRange

/-- An integer that fits into 64 bits, from its sign and magnitude. -/
def toInteger (negative : Bool) (magnitude : Nat) : Number :=
  if !negative then .natural (.ofNat magnitude)
  else if magnitude = 0 ∨ UInt64.size / 2 < magnitude then
    .float ((Binary64.ofNat magnitude).withSign true)
  else .negative magnitude

/-- The greatest power of ten that an exponent may name before it counts as overflowing. -/
def maxExponent : Nat := UInt32.size / 2 - 1

/-- The sign of an exponent, which may be left out. -/
def exponentSign : (s : List Char) → Bool × Tail s
  | '-' :: s => (true, (Tail.all s).behind '-' |>.toTail)
  | '+' :: s => (false, (Tail.all s).behind '+' |>.toTail)
  | s => (false, .all s)

/-- Reads the exponent behind its mark. -/
def readExponent (negative : Bool) (significand : Nat) (exponent : Int) : TailReader Number :=
  fun s ↦
    let (down, r) := exponentSign s
    match r.left with
    | [] => .error (.endOfText .value)
    | c :: _ =>
      if !c.isDigit then .error .invalidNumber
      else
        let e := Nat.ofDigitChars 10 (digits r.left) 0
        let left := r.andTail (afterDigits r.left)
        if maxExponent < e then
          if significand ≠ 0 ∧ !down then .error .numberOutOfRange
          else .ok (.float (Binary64.zero.withSign negative), left)
        else (toFloat negative significand (if down then exponent - e else exponent + e)).map
          fun x ↦ (x, left)

/-- Reads an exponent, if there is one. `whole` says that there was neither a fraction nor a digit
too many. -/
def readScale (negative : Bool) (significand : Nat) (exponent : Int) (whole : Bool) :
    TailReader Number
  | 'e' :: s =>
    (readExponent negative significand exponent s).map fun (x, t) ↦ (x, (t.behind 'e').toTail)
  | 'E' :: s =>
    (readExponent negative significand exponent s).map fun (x, t) ↦ (x, (t.behind 'E').toTail)
  | s =>
    if whole then .ok (toInteger negative significand, .all s)
    else (toFloat negative significand exponent).map fun x ↦ (x, .all s)

/-- Reads a fraction, if there is one, and then the exponent. -/
def readFraction (negative : Bool) (significand dropped : Nat) : TailReader Number
  | '.' :: s =>
    let r := afterDigits s
    if (digits s).isEmpty then
      .error (if r.left.isEmpty then .endOfText .value else .invalidNumber)
    else
      let (significand, k) := absorb significand (digits s)
      (readScale negative significand (dropped - k : Int) false r.left).map fun (x, t) ↦
        (x, ((r.andTail t).behind '.').toTail)
  | s => readScale negative significand dropped (dropped == 0) s

/-- Reads a numeral whose sign has been read. -/
def readNumeral (negative : Bool) : Reader Number
  | [] => .error (.endOfText .value)
  | c :: s =>
    if c = '0' then
      if (digits s).isEmpty then
        (readFraction negative 0 0 s).map fun (x, t) ↦ (x, t.behind c)
      else .error .invalidNumber
    else if c.isDigit then
      let r := afterDigits s
      let (significand, k) := absorb (digitValue c) (digits s)
      (readFraction negative significand ((digits s).length - k) r.left).map fun (x, t) ↦
        (x, (r.andTail t).behind c)
    else .error .invalidNumber

/-- Reads a numeral from its first character on. -/
def readNumber : Reader Number
  | '-' :: s => (readNumeral true s).map fun (x, r) ↦ (x, r.behind '-')
  | s => readNumeral false s

end Json

/-- How a number that is not wanted is named. -/
def Number.found : Number → Found
  | .natural n => .integer n.toNat
  | .negative m => .integer (-m)
  | .float x => .float x

/-!
## Skipping values

An unknown field may hold any well-formed value, nested to any depth. It is skipped in one pass over
the text with a stack of the lists and objects that are open. The notation is checked, but texts are
not decoded and numbers are not computed.
-/

namespace Json

/-- An open bracket. -/
inductive Frame where
  | list
  | object
  deriving DecidableEq, Repr

namespace Frame

/-- The fault of a text that ends here. -/
def unfinished : Frame → Fault
  | .list => .endOfText .list
  | .object => .endOfText .object

/-- The fault of a missing comma or closing bracket. -/
def expectedEnd : Frame → Fault
  | .list => .expectedListEnd
  | .object => .expectedObjectEnd

def close : Frame → Char
  | .list => ']'
  | .object => '\x7d'

end Frame

/-- The digits of an exponent behind its mark. -/
def skipExponent : TailReader Unit := fun s ↦
  let r := (exponentSign s).2
  if (digits r.left).isEmpty then .error .invalidNumber
  else .ok ((), r.andTail (afterDigits r.left))

def skipScale : TailReader Unit
  | 'e' :: s => (skipExponent s).map fun (_, t) ↦ ((), (t.behind 'e').toTail)
  | 'E' :: s => (skipExponent s).map fun (_, t) ↦ ((), (t.behind 'E').toTail)
  | s => .ok ((), .all s)

def skipFraction : TailReader Unit
  | '.' :: s =>
    if (digits s).isEmpty then .error .invalidNumber
    else
      let r := afterDigits s
      (skipScale r.left).map fun (_, t) ↦ ((), ((r.andTail t).behind '.').toTail)
  | s => skipScale s

/-- A numeral behind its sign. -/
def skipNumeral : Reader Unit
  | [] => .error .invalidNumber
  | c :: s =>
    if c = '0' then
      if (digits s).isEmpty then (skipFraction s).map fun (_, t) ↦ ((), t.behind c)
      else .error .invalidNumber
    else if c.isDigit then
      let r := afterDigits s
      (skipFraction r.left).map fun (_, t) ↦ ((), (r.andTail t).behind c)
    else .error .invalidNumber

/-- Reads a value that is no list or object, or the opening bracket of one. -/
def skipAtom : Reader (Option Frame) := fun s ↦
  match front s with
  | none => .error (.endOfText .value)
  | some (c, rest) =>
    let atom := fun (r : Except Fault (Unit × Tail rest.left)) ↦
      r.map fun (_, t) ↦ ((none : Option Frame), rest.andTail t)
    match c with
    | 'n' => atom (takeWord ['u', 'l', 'l'] rest.left)
    | 't' => atom (takeWord ['r', 'u', 'e'] rest.left)
    | 'f' => atom (takeWord ['a', 'l', 's', 'e'] rest.left)
    | '"' => atom ((skipText rest.left).map fun (_, r) ↦ ((), r.toTail))
    | '-' => atom ((skipNumeral rest.left).map fun (_, r) ↦ ((), r.toTail))
    | '[' => .ok (some .list, rest)
    | '\x7b' => .ok (some .object, rest)
    | c =>
      if c.isDigit then atom ((skipNumeral (c :: rest.left)).map fun (_, r) ↦ ((), r.ofCons))
      else .error .expectedValue

/-- Reads the key of a field and the colon behind it. -/
def skipKey : Reader Unit := fun s ↦
  match front s with
  | none => .error (.endOfText .object)
  | some (c, rest) =>
    if c ≠ '"' then .error .keyNotString
    else
      match skipText rest.left with
      | .error e => .error e
      | .ok (_, r) =>
        match front r.left with
        | none => .error (.endOfText .object)
        | some (d, q) =>
          if d ≠ ':' then .error .expectedColon else .ok ((), (rest.andThen r).andThen q)

/-- Closes what ends here and reads the comma, if another item follows; `afterItem` says whether an
item has been read in the innermost open bracket. The answer is the stack that is open now. -/
def skipClosings (stack : List Frame) (afterItem : Bool) (s : List Char) :
    Except Fault (List Frame × Tail s) :=
  match stack with
  | [] => .ok ([], .all s)
  | frame :: outer =>
    match front s with
    | none => .error frame.unfinished
    | some (c, rest) =>
      if c = ',' ∧ afterItem then .ok (stack, rest.toTail)
      else if c = frame.close then
        match skipClosings outer true rest.left with
        | .error e => .error e
        | .ok (stack, t) => .ok (stack, (rest.andTail t).toTail)
      else if afterItem then .error frame.expectedEnd
      else .ok (stack, .all s)

/-- Skips a value, and then what is still open around it. -/
def skipOpen (stack : List Frame) (s : List Char) : Except Fault (Unit × Rest s) :=
  match skipAtom s with
  | .error e => .error e
  | .ok (opened, r) =>
    match skipClosings (opened.toList ++ stack) opened.isNone r.left with
    | .error e => .error e
    | .ok ([], t) => .ok ((), r.andTail t)
    | .ok (.list :: outer, t) =>
      let r := r.andTail t
      have := r.shorter
      match skipOpen (.list :: outer) r.left with
      | .error e => .error e
      | .ok (_, q) => .ok ((), r.andThen q)
    | .ok (.object :: outer, t) =>
      match skipKey t.left with
      | .error e => .error e
      | .ok (_, k) =>
        let r := (r.andTail t).andThen k
        have := r.shorter
        match skipOpen (.object :: outer) r.left with
        | .error e => .error e
        | .ok (_, q) => .ok ((), r.andThen q)
termination_by s.length
decreasing_by all_goals exact this

/-- Reads any well-formed value and keeps nothing of it. -/
def skipValue : Reader Unit := skipOpen []

end Json

end Interleave
