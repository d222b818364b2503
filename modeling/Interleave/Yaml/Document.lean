import Interleave.Data.SortedMap
import Interleave.Yaml.Token

/-!
# YAML documents

The value of a document, as a JSON value. Inside brackets the structure is in the marks; outside it
is in the columns: the items of a block list stand below one another, and so do the keys of a block
map, each farther to the right than the collection around it. Only a block list that is the value of
a key may stand in the column of the key.

Keys are texts, whatever they look like. Of two equal keys the later counts. Collections are nested
at most 128 deep.
-/

namespace Interleave.Yaml

/-- Reads the node that begins with the first token. -/
abbrev NodeReader := (ts : List Token) → Option (Json × Rest ts)

def Lexeme.scalar? : Lexeme → Option Json
  | .plain s => some (plainValue s)
  | .quoted s => some (.text s)
  | _ => none

/-- The text of a scalar as it stands. -/
def Lexeme.text? : Lexeme → Option String
  | .plain s | .quoted s => some s
  | _ => none

/-- A map of some entries. -/
def mapOf (entries : List (String × Json)) : Json := .object (SortedMap.ofList entries).entries

/-! ## Inside brackets -/

/-- The value behind a colon inside brackets, which may be left out. -/
def flowValue (node : NodeReader) (ts : List Token) : Option (Json × Tail ts) :=
  if ts.head?.any fun t ↦ [Lexeme.comma, .closeList, .closeMap].contains t.lexeme then
    some (.null, .all ts)
  else (node ts).map fun (v, r) ↦ (v, r.toTail)

/-- One entry inside brackets: a node, and its value if a colon follows. -/
def flowEntry (node : NodeReader) (ts : List Token) : Option ((Json × Option Json) × Rest ts) :=
  match node ts with
  | none => none
  | some (k, r) =>
    match r.next? with
    | none => some ((k, none), r)
    | some (t, q) =>
      if t.lexeme = .colon then
        (flowValue node q.left).map fun (v, value) ↦ ((k, some v), q.andTail value)
      else some ((k, none), r)

/-- The entries up to a closing bracket, each made into a value by `make` from its text, node and
value. -/
def flowEntries {α : Type} (node : NodeReader) (close : Lexeme)
    (make : Option String → Json → Option Json → Option α) (ts : List Token) :
    Option (List α × Rest ts) :=
  match ts with
  | [] => none
  | t :: rest =>
    if t.lexeme = close then some ([], (Tail.all rest).behind t)
    else
      match flowEntry node (t :: rest) with
      | none => none
      | some ((k, v), r) =>
        match make t.lexeme.text? k v, r.next? with
        | some a, some (c, q) =>
          if c.lexeme = close then some ([a], q)
          else if c.lexeme = .comma then
            have := q.shorter
            (flowEntries node close make q.left).map fun (as, r) ↦ (a :: as, q.andThen r)
          else none
        | _, _ => none
termination_by ts.length
decreasing_by exact this

/-- An entry of a list; one with a colon is a map with one key. -/
def listEntry (text? : Option String) (node : Json) : Option Json → Option Json
  | none => some node
  | some v => text?.map fun k ↦ .object [(k, v)]

/-- An entry of a map. -/
def mapEntry (text? : Option String) (_ : Json) (value : Option Json) : Option (String × Json) :=
  text?.map fun k ↦ (k, value.getD .null)

/-- A scalar, or a collection in brackets. -/
def flowNode : (depth : Nat) → NodeReader
  | _, [] => none
  | depth, t :: rest =>
    match t.lexeme.scalar?, depth with
    | some v, _ => some (v, (Tail.all rest).behind t)
    | none, 0 => none
    | none, depth + 1 =>
      let node := flowNode depth
      match t.lexeme with
      | .openList => (flowEntries node .closeList listEntry rest).map fun (vs, r) ↦
          (.list vs, r.behind t)
      | .openMap => (flowEntries node .closeMap mapEntry rest).map fun (fs, r) ↦
          (mapOf fs, r.behind t)
      | _ => none

/-! ## Outside brackets -/

/-- Whether the tokens begin with a key: a scalar with a colon on its line. -/
def startsEntry : List Token → Bool
  | k :: c :: _ => k.lexeme.text?.isSome && c.lexeme == .colon && k.line == c.line
  | _ => false

/-- Whether the node behind the mark of a list item in `column` belongs to the item. -/
def itemHasNode (mark : Token) (column : Nat) (n : Token) : Bool :=
  n.line == mark.line || column < n.column

/-- Whether the node behind a colon belongs to a key in `column`. -/
def keyHasNode (colon : Token) (column : Nat) (n : Token) : Bool :=
  n.line == colon.line || column < n.column || (column == n.column && n.lexeme == .dash)

/-- Whether a node may stand behind a colon on its line: a block collection may not. -/
def fitsBehindColon (colon : Token) (ts : List Token) : Bool :=
  match ts with
  | [] => true
  | n :: _ => n.line != colon.line || (n.lexeme != .dash && !startsEntry ts)

/-- The node of an item or key, or null if it has none. -/
def optionalNode (node : NodeReader) (has : Token → Bool) (ts : List Token) :
    Option (Json × Tail ts) :=
  if ts.head?.any has then (node ts).map fun (v, r) ↦ (v, r.toTail) else some (.null, .all ts)

/-- The items of a block list in `column`. -/
def blockItems (node : NodeReader) (column : Nat) (ts : List Token) :
    Option (List Json × Tail ts) :=
  match ts with
  | [] => some ([], .all [])
  | t :: rest =>
    if t.lexeme = .dash ∧ t.column = column then
      match optionalNode node (itemHasNode t column) rest with
      | none => none
      | some (v, r) =>
        let r := r.behind t
        have := r.shorter
        (blockItems node column r.left).map fun (vs, q) ↦ (v :: vs, (r.andTail q).toTail)
    else if t.column ≤ column then some ([], .all (t :: rest))
    else none
termination_by ts.length
decreasing_by exact this

/-- The entries of a block map in `column`. -/
def blockEntries (node : NodeReader) (column : Nat) (ts : List Token) :
    Option (List (String × Json) × Tail ts) :=
  match ts with
  | [] => some ([], .all [])
  | [t] => if t.column < column then some ([], .all [t]) else none
  | t :: c :: rest =>
    if t.column = column ∧ startsEntry (t :: c :: rest) ∧ fitsBehindColon c rest then
      match t.lexeme.text?, optionalNode node (keyHasNode c column) rest with
      | none, _ | _, none => none
      | some k, some (v, r) =>
        let r := (r.behind c).behind t
        have := r.shorter
        (blockEntries node column r.left).map fun (fs, q) ↦ ((k, v) :: fs, (r.andTail q).toTail)
    else if t.column < column then some ([], .all (t :: c :: rest))
    else none
termination_by ts.length
decreasing_by exact this

/-- A scalar, a collection in brackets, or a block collection in the column of its first token. -/
def blockNode : (depth : Nat) → NodeReader
  | _, [] => none
  | 0, ts => if startsEntry ts then none else flowNode 0 ts
  | depth + 1, t :: rest =>
    let node := blockNode depth
    if t.lexeme = .dash then
      match blockItems node t.column (t :: rest) with
      | some (v :: vs, r) =>
        r.proper?.map fun r ↦ (.list (v :: vs), r)
      | _ => none
    else if startsEntry (t :: rest) then
      match blockEntries node t.column (t :: rest) with
      | some (f :: fs, r) =>
        r.proper?.map fun r ↦ (mapOf (f :: fs), r)
      | _ => none
    else flowNode (depth + 1) (t :: rest)

/-- How deep collections may be nested. -/
def maxDepth : Nat := 128

/-- The tokens without the line that may begin a document. -/
def afterStart : List Token → List Token
  | t :: ts => if t.lexeme = .start then ts else t :: ts
  | [] => []

/-- The value of a document; one without tokens is an empty map. -/
def ofTokens? (ts : List Token) : Option Json :=
  match afterStart ts with
  | [] => some (.object [])
  | t :: rest =>
    match blockNode maxDepth (t :: rest) with
    | some (v, r) => if r.left.isEmpty then some v else none
    | none => none

/-- The value of the text of a document; none if it is not understood. -/
def read? (s : String) : Option Json := (tokens s.toList).bind ofTokens?

end Interleave.Yaml
