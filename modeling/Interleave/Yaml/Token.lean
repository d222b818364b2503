import Interleave.Json.Value
import Interleave.Number.Decimal

/-!
# Tokens of a YAML document

A document is cut into tokens line by line; a scalar does not run on past its line. A token knows
its line and column, from which the structure of block collections is found. Inside brackets commas,
brackets and colons mean something that they do not mean outside, so the number of open brackets is
carried along from line to line.

Anchors, tags, directives, block scalars and complex keys are not understood: a document that has
them has no tokens.
-/

namespace Interleave.Yaml

inductive Lexeme where
  | plain (s : String)
  | quoted (s : String)
  /-- The mark of an item of a block list. -/
  | dash
  | colon
  | comma
  | openList
  | closeList
  | openMap
  | closeMap
  /-- The line that may begin a document. -/
  | start
  deriving DecidableEq

structure Token where
  line : Nat
  column : Nat
  lexeme : Lexeme

def isSpace (c : Char) : Bool := c == ' ' || c == '\t'

/-- Whether a text begins with a blank or is at its end. -/
def blankNext : List Char → Bool
  | [] => true
  | c :: _ => isSpace c

def isFlowMark (c : Char) : Bool := [',', '[', ']', '\x7b', '\x7d'].contains c

/-- Characters that a document may hold. -/
def isAllowed (c : Char) : Bool :=
  let n := c.toNat
  n == 9 || n == 10 || n == 13 || (0x20 ≤ n && n ≤ 0x7E) || n == 0x85 ||
    (0xA0 ≤ n && n ≤ 0xFFFD && n ≠ 0xFEFF) || 0x10000 ≤ n

/-! ## Scalars -/

/-- The text of a plain scalar up to what ends it. `spaced` says that a blank stands before. -/
def readPlain (flow : Bool) (spaced : Bool) : (s : List Char) → Option (List Char × Tail s)
  | [] => some ([], .all [])
  | c :: s =>
    if (c = '#' ∧ spaced) ∨ (c = ':' ∧ blankNext s) ∨ (flow ∧ isFlowMark c) then
      some ([], .all (c :: s))
    else if flow ∧ c = ':' ∧ s.head?.any (fun d ↦ isFlowMark d || d == '?') then none
    else (readPlain flow (isSpace c) s).map fun (t, r) ↦ (c :: t, (r.behind c).toTail)

/-- The text without blanks at its end. -/
def dropSpacesRight (s : List Char) : List Char := (s.reverse.dropWhile isSpace).reverse

/-- A text between single quotes, of which a doubled one stands for itself. -/
def readSingle : (s : List Char) → Option (List Char × Tail s)
  | [] => none
  | ['\''] => some ([], ((Tail.all []).behind '\'').toTail)
  | '\'' :: '\'' :: s =>
    (readSingle s).map fun (t, r) ↦ ('\'' :: t, ((r.behind '\'').behind '\'').toTail)
  | c :: d :: s =>
    if c = '\'' then some ([], ((Tail.all (d :: s)).behind c).toTail)
    else (readSingle (d :: s)).map fun (t, r) ↦ (c :: t, (r.behind c).toTail)
  | [c] => if c = '\'' then some ([], ((Tail.all []).behind c).toTail) else none

/-- The characters that a one-letter escape may name. -/
def escape? : Char → Option Char
  | '0' => some '\x00'
  | 'a' => some '\x07'
  | 'b' => some '\x08'
  | 't' | '\t' => some '\t'
  | 'n' => some '\n'
  | 'v' => some '\x0b'
  | 'f' => some '\x0c'
  | 'r' => some '\r'
  | 'e' => some '\x1b'
  | ' ' => some ' '
  | '"' => some '"'
  | '/' => some '/'
  | '\\' => some '\\'
  | 'N' => some '\u0085'
  | '_' => some '\u00a0'
  | 'L' => some '\u2028'
  | 'P' => some '\u2029'
  | _ => none

/-- The number of hexadecimal digits that an escape takes. -/
def escapeDigits? : Char → Option Nat
  | 'x' => some 2
  | 'u' => some 4
  | 'U' => some 8
  | _ => none

/-- The character of an escape and how many characters the escape takes, the backslash excluded. -/
def readEscape : List Char → Option (Char × Nat)
  | [] => none
  | c :: s =>
    match escape? c with
    | some d => some (d, 1)
    | none => do
      let n ← escapeDigits? c
      let digits ← if (s.take n).length = n then some (s.take n) else none
      let code ← natOfDigits? 16 digits
      if code.isValidChar then some (.ofNat code, n + 1) else none

/-- A text between double quotes, with escapes. -/
def readDouble (s : List Char) : Option (List Char × Tail s) :=
  match s with
  | [] => none
  | c :: s =>
    if c = '"' then some ([], ((Tail.all s).behind c).toTail)
    else if c = '\\' then
      match readEscape s with
      | none => none
      | some (d, n) =>
        let q := (Tail.drop n s).behind c
        have := q.shorter
        (readDouble q.left).map fun (t, r) ↦ (d :: t, (q.andTail r).toTail)
    else (readDouble s).map fun (t, r) ↦ (c :: t, (r.behind c).toTail)
termination_by s.length
decreasing_by
  · exact this
  · exact Nat.lt_succ_self _

/-! ## Lines -/

/-- The token that is a single character. -/
def mark? (flow : Nat) (c : Char) (s : List Char) : Option Lexeme :=
  match c with
  | '[' => some .openList
  | '\x7b' => some .openMap
  | ']' => if flow = 0 then none else some .closeList
  | '\x7d' => if flow = 0 then none else some .closeMap
  | ',' => if flow = 0 then none else some .comma
  | ':' => if flow ≠ 0 ∨ blankNext s then some .colon else none
  | '-' => if flow = 0 ∧ blankNext s then some .dash else none
  | _ => none

/-- How many brackets are open behind a token. -/
def Lexeme.flowAfter (flow : Nat) : Lexeme → Nat
  | .openList | .openMap => flow + 1
  | .closeList | .closeMap => flow - 1
  | _ => flow

/-- Whether a plain scalar may begin with a character. -/
def startsPlain (flow : Bool) (c : Char) (s : List Char) : Bool :=
  match c with
  | '-' => !blankNext s
  | '?' | ':' => !flow && !blankNext s
  | c => !(isFlowMark c || ['#', '&', '*', '!', '|', '>', '\'', '"', '%', '@', '\x60'].contains c)

/-- The token at the front of a line that begins with `c`. -/
def readLexeme (flow : Nat) (c : Char) (s : List Char) : Option (Lexeme × Tail s) :=
  match mark? flow c s with
  | some m => some (m, .all s)
  | none =>
    if c = '"' then (readDouble s).map fun (t, r) ↦ (.quoted (.ofList t), r)
    else if c = '\'' then (readSingle s).map fun (t, r) ↦ (.quoted (.ofList t), r)
    else if startsPlain (flow ≠ 0) c s then
      (readPlain (flow ≠ 0) false s).map fun (t, r) ↦
        (.plain (.ofList (dropSpacesRight (c :: t))), r)
    else none

/-- The tokens of the rest of a line, and how many brackets are open at its end. `tabs` says whether
a tab may stand here: not where a block collection may begin. -/
def lineTokens (line : Nat) (flow : Nat) (tabs : Bool) (column : Nat) (s : List Char) :
    Option (List Token × Nat) :=
  match s with
  | [] => some ([], flow)
  | c :: s =>
    if c = ' ' ∨ (c = '\t' ∧ (tabs ∨ flow ≠ 0)) then lineTokens line flow tabs (column + 1) s
    else if c = '#' then some ([], flow)
    else
      match readLexeme flow c s with
      | none => none
      | some (m, r) =>
        let r := r.behind c
        have := r.shorter
        let used := s.length + 1 - r.left.length
        (lineTokens line (m.flowAfter flow) (m ≠ .dash) (column + used) r.left).map
          fun (ts, flow) ↦ (⟨line, column, m⟩ :: ts, flow)
termination_by s.length
decreasing_by
  · exact Nat.lt_succ_self _
  · exact this

/-- The tokens of a line that is not inside brackets and may begin the document. -/
def firstTokens (line : Nat) (flow : Nat) (s : List Char) : Option (List Token × Nat) :=
  match flow, s with
  | 0, '-' :: '-' :: '-' :: rest =>
    if blankNext rest then
      (lineTokens line 0 true 3 rest).map fun (ts, flow) ↦ (⟨line, 0, .start⟩ :: ts, flow)
    else lineTokens line 0 false 0 s
  | _, _ => lineTokens line flow false 0 s

/-- The lines of a document. -/
def lines : List Char → List (List Char)
  | [] => [[]]
  | '\r' :: '\n' :: s => [] :: lines s
  | c :: s =>
    if ['\n', '\r', '\u0085', '\u2028', '\u2029'].contains c then [] :: lines s
    else
      match lines s with
      | [] => [[c]]
      | l :: ls => (c :: l) :: ls

/-- The tokens of some lines, the first of which has number `n`. -/
def linesTokens (n : Nat) (flow : Nat) : List (List Char) → Option (List Token)
  | [] => some []
  | l :: ls => do
    let (ts, flow) ← firstTokens n flow l
    return ts ++ (← linesTokens (n + 1) flow ls)

/-- The tokens of a document, without a byte order mark at its beginning. -/
def tokens (s : List Char) : Option (List Token) :=
  let s := if s.head? = some '\uFEFF' then s.tail else s
  if s.all isAllowed then linesTokens 0 0 (lines s) else none

/-!
## Plain scalars

What a scalar without quotes stands for: nothing, a truth value, a number, or else its own text.
Numbers may be given in base two, eight or sixteen; a number with needless zeros in front is a text.
-/

/-- The digits behind the mark of a base, with the base. -/
def based? : List Char → Option (Nat × List Char)
  | '0' :: 'x' :: s => some (16, s)
  | '0' :: 'o' :: s => some (8, s)
  | '0' :: 'b' :: s => some (2, s)
  | _ => none

/-- Whether digits begin with a zero that they do not need. -/
def hasSpareZero (s : List Char) : Bool :=
  match (takeSign s).2 with
  | '0' :: d :: s => (d :: s).all Char.isDigit
  | _ => false

def natural? (s : List Char) : Option Nat :=
  match based? s with
  | some (base, s) => natOfDigits? base s
  | none => natOfDigits? 10 s

/-- The integer that a scalar spells. -/
def integer? (s : List Char) : Option Int :=
  if hasSpareZero s then none
  else
    let (negative, s) := takeSign s
    (natural? s).map fun n ↦ if negative then -n else n

/-- An integer as a number; one beyond 64 bits is a double. -/
def ofInteger (i : Int) : Number :=
  if 0 ≤ i then
    if i.toNat < UInt64.size then .natural (.ofNat i.toNat) else .float (.ofNat i.toNat)
  else .negative i.natAbs

/-- The double that a scalar spells. -/
def float? (s : List Char) : Option Binary64 :=
  if hasSpareZero s then none else (Decimal.ofChars? s).bind Decimal.toBinary64?

def plainValue (s : String) : Json :=
  if s ∈ ["", "~", "null", "Null", "NULL"] then .null
  else if s ∈ ["true", "True", "TRUE"] then .bool true
  else if s ∈ ["false", "False", "FALSE"] then .bool false
  else
    match integer? s.toList with
    | some i => .number (ofInteger i)
    | none =>
      match float? s.toList with
      | some x => .number (.float x)
      | none => .text s

end Interleave.Yaml
