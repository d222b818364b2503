import Interleave.Files.Tree
import Interleave.Json.Value
import Interleave.Number.Decimal
import Interleave.Settings.Basic
import Interleave.Yaml.Document
import Interleave.Yaml.Token

/-!
# Settings from files and the environment

How the settings in the environment and in files are read, laid over the defaults and checked.
-/

namespace Interleave

/-!
## Settings in the environment

An environment variable whose name begins with a mark, in either case, gives a setting. The rest of
its name is the path of the setting, with another mark or a dot between sections.

The value is a truth value, a number, a list in brackets, an object in braces, or a text in quotes;
if it is none of these as a whole, it is a text as it stands.
-/

/-- Variables with their values. -/
abbrev Environment := List (String × String)

namespace Environment

/-- The variables of a block of texts that are each a name, an equals sign and a value, and that a
null character ends. -/
def ofBlock (s : String) : Environment :=
  (splitAt '\x00' s.toList).filterMap fun entry ↦
    match entry.dropWhile (· ≠ '=') with
    | _ :: value => some (.ofList (entry.takeWhile (· ≠ '=')), .ofList value)
    | [] => none

/-! ### Values -/

def isSpace (c : Char) : Bool := [' ', '\t', '\n', '\x0c', '\r'].contains c

def isSeparator (c : Char) : Bool := [',', '\x7b', '\x7d', '[', ']'].contains c

def isKeyChar (c : Char) : Bool := c.isAlphanum || c == '_' || c == '-'

/-- Reads a value, which may be the empty text. -/
abbrev ValueReader (α : Type) := (s : List Char) → Option (α × Tail s)

def afterSpaces {s : List Char} (t : Tail s) : Tail s := t.andTail (.dropWhile isSpace t.left)

/-- A value without marks: a number or a text. A literal with a point counts as a number even if it
is out of range. -/
def bareValue (s : List Char) : Json :=
  match if s.contains '.' then Decimal.ofChars? s else none with
  | some d => .number (.float (d.toBinary64?.getD .zero))
  | none =>
    let (negative, digits) := takeSign s
    match natOfDigits? 10 digits with
    | some n =>
      if n < (if negative then UInt64.size / 2 + 1 else UInt64.size) then
        .number (Yaml.ofInteger (if negative then -n else n))
      else .text (.ofList s)
    | none => .text (.ofList s)

/-- The characters up to a quote that no backslash precedes, and what follows that quote. -/
def untilQuote : ValueReader (List Char)
  | [] => none
  | '\\' :: c :: s =>
    (untilQuote s).map fun (t, r) ↦ ('\\' :: c :: t, ((r.behind c).behind '\\').toTail)
  | c :: s =>
    if c = '"' then some ([], ((Tail.all s).behind c).toTail)
    else (untilQuote s).map fun (t, r) ↦ (c :: t, (r.behind c).toTail)

/-- The escapes of one letter. -/
def escape? : Char → Option Char
  | 'b' => some '\x08'
  | 't' => some '\t'
  | 'n' => some '\n'
  | 'f' => some '\x0c'
  | 'r' => some '\r'
  | '"' => some '"'
  | '\\' => some '\\'
  | _ => none

/-- The text of a quoted value, with its escapes resolved. -/
def unescape (s : List Char) : Option (List Char) :=
  match s with
  | [] => some []
  | '\\' :: c :: s =>
    match escape? c with
    | some d => (unescape s).map (d :: ·)
    | none =>
      let n := if c = 'u' then 4 else 8
      if (c = 'u' ∨ c = 'U') ∧ n ≤ s.length then
        match natOfDigits? 16 (s.take n) with
        | some code =>
          if code.isValidChar then (unescape (s.drop n)).map (.ofNat code :: ·) else none
        | none => none
      else none
  | c :: s =>
    if c = '\\' ∨ (c.toNat < 0x20 ∧ c ≠ '\t') ∨ c.toNat = 0x7F then none
    else (unescape s).map (c :: ·)
termination_by s.length
decreasing_by all_goals simp only [List.length_cons, List.length_drop]; omega

/-- A text whose opening quote has been read. -/
def readQuoted : ValueReader String := fun s ↦
  match untilQuote s with
  | none => none
  | some (t, r) => (unescape t).map fun t ↦ (.ofList t, r)

/-- Takes a whole word off the front. -/
def takeWord? : List Char → (s : List Char) → Option (Tail s)
  | [], s => some (.all s)
  | _ :: _, [] => none
  | w :: ws, c :: s =>
    if c = w then (takeWord? ws s).map fun t ↦ (t.behind c).toTail else none

/-- Reads items up to a closing mark; a comma may precede it. -/
def readItems {α : Type} (item : ValueReader α) (close : Char) (s : List Char) :
    Option (List α × Tail s) :=
  match s with
  | [] => none
  | c :: s =>
    if c = close then some ([], ((Tail.all s).behind c).toTail)
    else
      match item (c :: s) with
      | none => none
      | some (a, t) =>
        match t.next? with
        | none => none
        | some (d, r) =>
          if d = ',' then
            have := r.shorter
            (readItems item close r.left).map fun (as, q) ↦ (a :: as, (r.andTail q).toTail)
          else if d = close then some ([a], r.toTail)
          else none
termination_by s.length
decreasing_by exact this

/-- The key of an object, in quotes or not. -/
def readKey (s : List Char) : Option (String × Tail s) :=
  match s with
  | '"' :: s => (readQuoted s).map fun (t, r) ↦ (t, (r.behind _).toTail)
  | s =>
    let key := s.takeWhile isKeyChar
    if key.isEmpty then none
    else some (.ofList key, .dropWhile isKeyChar s)

/-- An entry of an object: a key, an equals sign and a value. -/
def readEntry (value : ValueReader Json) : ValueReader (String × Json) := fun s ↦
  let start := afterSpaces (.all s)
  match readKey start.left with
  | none => none
  | some (k, t) =>
    match (afterSpaces (start.andTail t)).next? with
    | some ('=', r) => (value r.left).map fun (v, q) ↦ ((k, v), (r.andTail q).toTail)
    | _ => none

/-- Reads a value whose leading blanks have been skipped. -/
def readValueAt (value : ValueReader Json) : ValueReader Json
  | '\x7b' :: s => (readItems (readEntry value) '\x7d' s).map fun (fs, t) ↦
      (.object (SortedMap.ofList fs).entries, (t.behind _).toTail)
  | '[' :: s => (readItems value ']' s).map fun (vs, t) ↦ (.list vs, (t.behind _).toTail)
  | '"' :: s => (readQuoted s).map fun (t, r) ↦ (.text t, (r.behind _).toTail)
  | '\'' :: s =>
    match s with
    | c :: '\'' :: r =>
      some (.text (.ofList [c]), ((((Tail.all r).behind '\'').behind c).behind '\'').toTail)
    | _ => none
  | s =>
    let word := s.takeWhile fun c ↦ !isSeparator c
    some (bareValue (trimChars word), .dropWhile (fun c ↦ !isSeparator c) s)

/-- Reads a value with blanks around it, nested at most `depth` deep. -/
def readValue : (depth : Nat) → ValueReader Json
  | 0, _ => none
  | depth + 1, s =>
    let start := afterSpaces (Tail.all s)
    let read : Option (Json × Tail start.left) :=
      match takeWord? ['t', 'r', 'u', 'e'] start.left with
      | some t => some (.bool true, t)
      | none =>
        match takeWord? ['f', 'a', 'l', 's', 'e'] start.left with
        | some t => some (.bool false, t)
        | none => readValueAt (readValue depth) start.left
    read.map fun (v, t) ↦ (v, start.andTail (afterSpaces t))

/-- The value of a variable. -/
def value (s : String) : Json :=
  match readValue (s.length + 1) s.toList with
  | some (v, t) => if t.left.isEmpty then v else .text s
  | none => .text s

/-! ### Names -/

/-- The rest of a name behind the mark, whatever the case of its letters. -/
def afterMark? (mark : String) (name : List Char) : Option (List Char) :=
  let (front, rest) := name.splitAt mark.length
  if front.map Char.toUpper = mark.toList then some rest else none

/-- A dot in place of every mark between sections. -/
def dotted (between : List Char) (s : List Char) : List Char :=
  match s with
  | [] => []
  | c :: s =>
    if between.isPrefixOf (c :: s) then '.' :: dotted between (s.drop (between.length - 1))
    else c :: dotted between s
termination_by s.length
decreasing_by all_goals simp only [List.length_cons, List.length_drop]; omega

/-- The path of the setting that a variable gives; no step of it may be empty. -/
def path? (mark between : String) (name : String) : Option (List String) := do
  let rest ← afterMark? mark (trimChars name.toList)
  let steps := (splitAt '.' (trimChars (dotted between.toList rest))).map fun s ↦
    String.ofList (s.map Char.toLower)
  if steps.contains "" then none else some steps

/-- All settings of an environment whose names begin with `mark`. -/
def settings (mark between : String) (env : Environment) : Json :=
  env.foldl (fun layer (name, text) ↦
    match path? mark between name with
    | some p => layer.overlay (Json.nest p (value text))
    | none => layer) (.object [])

end Environment

/-!
## Loading settings

Settings come in layers: the defaults, then files, then the environment. Each layer is laid over the
one below, so that a setting has the value of the highest layer that gives it. A file that does not
exist is a layer without settings.

How a file and the environment are read does not matter for this. There is a reader for a part of
YAML that is enough for settings.
-/

/-- How layers of settings are read. -/
structure SettingsReader where
  /-- What a file holds; none if that cannot be read. -/
  document : Content → Option Json
  /-- What the variables hold whose names begin with `mark`, with `between` between sections. -/
  environment : (mark between : String) → Environment → Json

namespace SettingsReader

/-- Reads documents, and the environment as `Environment.settings` does. -/
def standard : SettingsReader where
  document
    | .text s => Yaml.read? s
    | .raw _ => none
  environment := Environment.settings

/-- The settings in the environment. -/
def ofEnvironment (reader : SettingsReader) (env : Environment) : Json :=
  reader.environment "RAVEL_" "__" env

/-- The settings in a file; none if they cannot be read. -/
def file? (reader : SettingsReader) (t : Tree) (file : String) : Option Json :=
  match (t.read file).toOption with
  | none => some (.object [])
  | some c => (reader.document c).filter fun v ↦ v matches .object _

end SettingsReader

inductive SettingsFailure where
  /-- A layer is unreadable or holds values of wrong types. `file` is the file asked for. -/
  | unusable (file : Option String)
  | refused (fault : SettingsFault)
  deriving DecidableEq

/-- What was attempted when a layer turned out to be unusable. -/
def SettingsFailure.attempt : Option String → String
  | some file => "Failed to load config from " ++ file
  | none => "Failed to extract configuration from figment"

def SettingsFailure.message : SettingsFailure → String
  | .unusable file => attempt file
  | .refused fault => fault.message

namespace Settings

/-- The layer below all others. -/
def defaults : Json := shape.write {}

/-- The layers as one value, laid over the defaults. -/
def stack (layers : List Json) : Json := (defaults :: layers).foldl .overlay (.object [])

/-- The settings that layers come to, the lowest first. -/
def ofLayers? (layers : List Json) : Option Settings := shape.adopt (stack layers)

/-- The files of settings that a project may have, the lower one first. -/
def projectFiles : List String := [".ravel/config.yaml", ".ravel/local.yaml"]

/-- Loads and checks the settings: those of `file`, or else of the project. -/
def load (reader : SettingsReader) (t : Tree) (env : Environment) (file : Option String) :
    Except SettingsFailure Settings :=
  let files := match file with
    | some f => [f]
    | none => projectFiles
  match (files.mapM (reader.file? t)).bind fun layers ↦
      ofLayers? (layers ++ [reader.ofEnvironment env]) with
  | none => .error (.unusable file)
  | some s =>
    match s.check with
    | .error e => .error (.refused e)
    | .ok () => .ok s

end Settings

end Interleave
