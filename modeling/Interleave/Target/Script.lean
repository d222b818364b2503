import Interleave.Json.Reader

/-!
# Shell scripts

The scripts that a run may consist of: simple commands one after another, each depending or not on
the success of what came before, with quoting, parameters and redirections. Compound commands,
pipelines and substitutions are not understood: a script that has them cannot be read.
-/

namespace Interleave.Script

/-- A part of a word. -/
inductive Part where
  | text (s : List Char) (quoted : Bool)
  | parameter (name : String) (quoted : Bool)
  deriving DecidableEq

abbrev Word := List Part

/-- Where the output or input of a command goes to or comes from. -/
inductive Redirect where
  /-- Output number `port` into a file, behind what is there if `append`. -/
  | output (port : Nat) (append : Bool) (file : Word)
  | input (file : Word)
  /-- Output number `port` to where another one goes. -/
  | duplicate (port : Nat) (target : Word)

/-- When a command runs. -/
inductive Link where
  | always
  /-- Only if the status before it is zero. -/
  | ifSuccess
  /-- Only if the status before it is not zero. -/
  | ifFailure
  deriving DecidableEq

/-- A simple command of a script. -/
structure Step where
  link : Link
  /-- Whether its status is reversed. -/
  negated : Bool := false
  words : List Word := []
  redirects : List Redirect := []

/-! ## Words -/

def isNameStart (c : Char) : Bool := c.isAlpha || c == '_'

def isNameChar (c : Char) : Bool := c.isAlphanum || c == '_'

def isSpecial (c : Char) : Bool := ['#', '@', '*', '?', '$', '!', '-'].contains c

def endsWord (c : Char) : Bool :=
  [' ', '\t', '\n', ';', '&', '|', '<', '>', '(', ')'].contains c

/-- Reads the front of a text, which may be nothing. -/
abbrev Piecewise (α : Type) := (s : List Char) → Option (α × Tail s)

/-- The name of a parameter behind the dollar sign; none if the sign stands for itself. -/
def readParameter : Piecewise (Option String)
  | [] => some (none, .all [])
  | c :: s =>
    if c = '\x7b' then
      let name := s.takeWhile isNameChar
      let special := s.takeWhile isSpecial
      let name := if name.isEmpty then special.take 1 else name
      match (Tail.drop name.length s).next? with
      | some ('\x7d', rest) =>
        if name.isEmpty then none else some (some (.ofList name), (rest.behind c).toTail)
      | _ => none
    else if c = '(' then none
    else if isNameStart c then
      let left := (Tail.dropWhile isNameChar s).behind c
      some (some (.ofList (c :: s.takeWhile isNameChar)), left.toTail)
    else if c.isDigit || isSpecial c then
      some (some (.ofList [c]), ((Tail.all s).behind c).toTail)
    else some (none, .all (c :: s))

/-- The parts up to the closing double quote. -/
def readDoubleQuoted (s : List Char) : Option (List Part × Tail s) :=
  match s with
  | [] => none
  | c :: s =>
    if c = '"' then some ([], ((Tail.all s).behind c).toTail)
    else if c = '\x60' then none
    else if c = '\\' then
      match s with
      | [] => none
      | d :: s =>
        let kept := if ['$', '"', '\\', '\x60'].contains d then [d]
          else if d = '\n' then [] else [c, d]
        (readDoubleQuoted s).map fun (ps, r) ↦
          (.text kept true :: ps, ((r.behind d).behind c).toTail)
    else if c = '$' then
      match readParameter s with
      | none => none
      | some (name, t) =>
        let t := t.behind c
        have := t.shorter
        (readDoubleQuoted t.left).map fun (ps, r) ↦
          ((name.elim (.text [c] true) (.parameter · true)) :: ps, (t.andTail r).toTail)
    else (readDoubleQuoted s).map fun (ps, r) ↦ (.text [c] true :: ps, (r.behind c).toTail)
termination_by s.length
decreasing_by
  · exact Nat.lt_succ_of_lt (Nat.lt_succ_self _)
  · exact this
  · exact Nat.lt_succ_self _

/-- The parts that begin with `c`. -/
def readParts (c : Char) : Piecewise (List Part) := fun s ↦
  if c = '\'' then
    (Tail.dropWhile (· ≠ '\'') s).next?.map fun (_, rest) ↦
      ([.text (s.takeWhile (· ≠ '\'')) true], rest.toTail)
  else if c = '"' then
    (readDoubleQuoted s).map fun (ps, t) ↦ (.text [] true :: ps, t)
  else if c = '\x60' then none
  else if c = '\\' then
    match s with
    | [] => some ([.text [c] true], .all [])
    | d :: s => some ([.text (if d = '\n' then [] else [d]) true], ((Tail.all s).behind d).toTail)
  else if c = '$' then
    (readParameter s).map fun (name, t) ↦
      ([name.elim (.text [c] true) (.parameter · false)], t)
  else some ([.text [c] false], .all s)

/-- The word at the front of a text. -/
def readWord (s : List Char) : Option (Word × Tail s) :=
  match s with
  | [] => some ([], .all [])
  | c :: s =>
    if endsWord c then some ([], .all (c :: s))
    else
      match readParts c s with
      | none => none
      | some (ps, t) =>
        let t := t.behind c
        have := t.shorter
        (readWord t.left).map fun (w, r) ↦ (ps ++ w, (t.andTail r).toTail)
termination_by s.length
decreasing_by exact this

/-- The text of a word that has neither quotes nor parameters. -/
def Word.bare? (w : Word) : Option String :=
  let texts : Option (List (List Char)) := w.mapM fun p ↦ match p with
    | .text s false => some s
    | _ => none
  texts.map fun parts ↦ .ofList parts.flatten

/-- The name before an equals sign, and what follows the sign. -/
def Word.splitName? : Word → Option (List Char × Word)
  | .text [c] false :: w =>
    if c = '=' then some ([], w)
    else if isNameChar c then (Word.splitName? w).map fun (name, v) ↦ (c :: name, v)
    else none
  | _ => none

/-- The name and value of a word that sets a variable. -/
def Word.assignment? (w : Word) : Option (String × Word) :=
  match Word.splitName? w with
  | some (c :: name, v) => if isNameStart c then some (.ofList (c :: name), v) else none
  | _ => none

/-! ## Pieces -/

/-- A word or a mark of a script. -/
inductive Piece where
  | word (w : Word)
  /-- The mark of a redirection, whose file is the next word. -/
  | redirect (make : Word → Redirect)
  | semicolon
  | newline
  | link (l : Link)

/-- The mark of a redirection of a port, or of the usual one. -/
def readRedirect (port? : Option Nat) : (s : List Char) → Option ((Word → Redirect) × Rest s)
  | '>' :: '>' :: s =>
    some (.output (port?.getD 1) true, ((Tail.all s).behind '>').behind '>')
  | '>' :: '&' :: s =>
    some (.duplicate (port?.getD 1), ((Tail.all s).behind '&').behind '>')
  | '>' :: s => some (.output (port?.getD 1) false, (Tail.all s).behind '>')
  | '<' :: c :: s =>
    if c = '<' ∨ c = '&' ∨ c = '>' then none
    else some (.input, (Tail.all (c :: s)).behind '<')
  | _ => none

/-- The piece that begins with `c`, which is no blank. -/
def readPiece (c : Char) (s : List Char) : Option (Piece × Tail s) :=
  match c, s with
  | '\n', s => some (.newline, .all s)
  | ';', ';' :: _ => none
  | ';', s => some (.semicolon, .all s)
  | '&', '&' :: s => some (.link .ifSuccess, ((Tail.all s).behind '&').toTail)
  | '|', '|' :: s => some (.link .ifFailure, ((Tail.all s).behind '|').toTail)
  | c, s =>
    if ['<', '>'].contains c then
      (readRedirect none (c :: s)).map fun (m, r) ↦ (.redirect m, r.ofCons)
    else if c.isDigit ∧ s.head?.any (fun d ↦ d == '<' || d == '>') then
      (readRedirect (some (Json.digitValue c)) s).map fun (m, r) ↦ (.redirect m, r.toTail)
    else
      match readWord (c :: s) with
      | none => none
      | some (w, t) => t.proper?.map fun r ↦ (.word w, r.ofCons)

def readPieces (s : List Char) : Option (List Piece) :=
  match s with
  | [] => some []
  | c :: s =>
    if c = ' ' ∨ c = '\t' then readPieces s
    else if c = '#' then
      let t := (Tail.dropWhile (· ≠ '\n') s).behind c
      have := t.shorter
      readPieces t.left
    else
      match readPiece c s with
      | none => none
      | some (p, t) =>
        let t := t.behind c
        have := t.shorter
        (readPieces t.left).map (p :: ·)
termination_by s.length
decreasing_by
  · exact Nat.lt_succ_self _
  · exact this
  · exact this

/-! ## Steps -/

/-- Words that begin something other than a simple command. -/
def reserved : List String :=
  ["if", "then", "else", "elif", "fi", "for", "while", "until", "do", "done", "case", "esac", "in",
    "\x7b", "\x7d"]

def Step.isEmpty (s : Step) : Bool := s.words.isEmpty && s.redirects.isEmpty

/-- A step with one more word. -/
def Step.addWord (s : Step) (w : Word) : Option Step :=
  if s.words.isEmpty then
    match Word.bare? w with
    | some "!" => some { s with negated := !s.negated }
    | some t => if reserved.contains t then none else some { s with words := [w] }
    | none => some { s with words := [w] }
  else some { s with words := s.words ++ [w] }

/-- Cuts pieces into steps; `current` is the step that is being read. -/
def stepsFrom (current : Step) : List Piece → Option (List Step)
  | [] => if !current.isEmpty then some [current]
    else if current.link = .always ∧ !current.negated then some [] else none
  | .word w :: ps => (current.addWord w).bind fun s ↦ stepsFrom s ps
  | .redirect make :: .word w :: ps =>
    stepsFrom { current with redirects := current.redirects ++ [make w] } ps
  | .redirect _ :: _ => none
  | .newline :: ps =>
    if current.isEmpty then (if current.negated then none else stepsFrom current ps)
    else (stepsFrom ⟨.always, false, [], []⟩ ps).map (current :: ·)
  | .semicolon :: ps =>
    if current.isEmpty then none
    else (stepsFrom ⟨.always, false, [], []⟩ ps).map (current :: ·)
  | .link l :: ps =>
    if current.isEmpty then none else (stepsFrom ⟨l, false, [], []⟩ ps).map (current :: ·)

/-- The steps of a script; none if it cannot be read. -/
def steps? (script : String) : Option (List Step) :=
  (readPieces script.toList).bind (stepsFrom ⟨.always, false, [], []⟩)

end Interleave.Script
