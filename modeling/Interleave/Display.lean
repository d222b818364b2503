import Interleave.Campaign.Basic
import Interleave.Databases
import Interleave.Text.Basic
import Interleave.Text.Classes

/-!
# Tables

A table has a header and rows of cells. Every column is as wide as its widest line, with a blank on
each side; a cell may have several lines, and a row is as high as its highest cell. Lines are
measured in columns of the terminal, not in characters.
-/

namespace Interleave

structure Table where
  header : List String
  rows : List (List String)

namespace Table

/-- The lines of a cell. -/
def cellLines (cell : String) : List (List Char) := splitAt '\n' cell.toList

/-- The width of a cell's widest line. -/
def cellWidth (cell : String) : Nat := ((cellLines cell).map columns).foldl max 0

/-- The widths of the columns. -/
def widths (t : Table) : List Nat :=
  t.rows.foldl (fun ws row ↦ List.zipWith max ws (row.map cellWidth)) (t.header.map cellWidth)

/-- A horizontal line: its ends, its crossings, and what it is made of. -/
structure Rule where
  left : Char
  fill : Char
  cross : Char
  right : Char

def top : Rule := ⟨'┌', '─', '┬', '┐'⟩

def belowHeader : Rule := ⟨'╞', '═', '╪', '╡'⟩

def betweenRows : Rule := ⟨'├', '╌', '┼', '┤'⟩

def bottom : Rule := ⟨'└', '─', '┴', '┘'⟩

def Rule.draw (r : Rule) (ws : List Nat) : List Char :=
  r.left :: [r.cross].intercalate (ws.map fun w ↦ List.replicate (w + 2) r.fill) ++ [r.right]

/-- One line of a row, from the lines of its cells. -/
def drawLine (ws : List Nat) (parts : List (List Char)) : List Char :=
  let cell := fun (w : Nat) (part : List Char) ↦ ' ' :: part ++ spaces (w - columns part) ++ [' ']
  '│' :: ['┆'].intercalate (List.zipWith cell ws parts) ++ ['│']

def drawRow (ws : List Nat) (row : List String) : List (List Char) :=
  let cells := row.map cellLines
  let height := (cells.map List.length).foldl max 0
  (List.range height).map fun i ↦ drawLine ws (cells.map fun lines ↦ lines.getD i [])

/-- The lines of the table. -/
def lines (t : Table) : List (List Char) :=
  let ws := t.widths
  let body := [betweenRows.draw ws].intercalate (t.rows.map (drawRow ws))
  top.draw ws :: drawRow ws t.header ++ belowHeader.draw ws :: body ++ [bottom.draw ws]

def text (t : Table) : String := .ofList (joinLines t.lines)

end Table

/-!
## Databases as tables

One table for each thing that can be listed: images, instructions, iRoots with their events,
targeted runs, summaries, and the phases of a campaign.
-/

namespace Table

def ofImages (r : Registry) : Table where
  header := ["ID", "Short", "Name"]
  rows := r.images.values.map fun i ↦ [i.id.text, i.shortName, i.name]

/-- An instruction with its image, offset and place in the source. -/
def instRow (r : Registry) (i : Inst) : List String :=
  let image := match r.findImage i.image with
    | .ok image => image.shortName
    | .error _ => i.image.text
  let location := match i.source with
    | some d => d.file ++ ":" ++ toString d.line.toNat
    | none => ""
  [i.id.text, image, "0x" ++ i.hexOffset, location]

def ofInsts (r : Registry) : Table where
  header := ["ID", "Image", "Offset", "Location"]
  rows := r.insts.values.map (instRow r)

/-- The lines of an iRoot's description after the first, trimmed. -/
def eventsCell (c : Catalog) (r : Registry) (id : IRootId) : String :=
  match c.describeIRoot r id with
  | .ok text => .ofList (joinLines (((linesOf text.toList).drop 1).map trimChars))
  | .error _ => ""

def ofIRoots (c : Catalog) (r : Registry) : Table where
  header := ["ID", "Idiom", "Events"]
  rows := c.iroots.values.map fun i ↦ [i.id.text, i.idiom.text, eventsCell c r i.id]

def ofHistory (h : History) : Table where
  header := ["iRoot", "Idiom", "Result", "Seed"]
  rows := h.entries.map fun (e, idiom) ↦
    [e.iroot.text, idiom.text, e.resultText, toString e.seed.toNat]

def ofHistorySummary (s : PerIdiom IdiomHistory) : Table where
  header := ["Idiom", "Tests", "Succ", "Fail", "Succ iRoots", "Fail iRoots"]
  rows := Idiom.all.map fun i ↦
    i.text :: [(s i).tests, (s i).success, (s i).fail, (s i).successIRoots,
      (s i).failIRoots].map toString

/-- The classes of a memo with their parts, and below the table the number of iRoots with
evidence. -/
def summaryText (s : MemoSummary) : String :=
  let table : Table :=
    { header := "Class" :: "Total" :: Idiom.all.map Idiom.text
      rows := MemoClass.all.map fun c ↦
        c.label :: toString (s.counts c).total ::
          Idiom.all.map fun i ↦ toString ((s.counts c).perIdiom i) }
  table.text ++ "\niRoots with runtime info: " ++ toString s.withInfo

def ofStats (stats : List PhaseStats) : Table where
  header := ["Phase", "Runs", "Time (s)", "State"]
  rows := stats.map fun s ↦ [s.label, toString s.runs, s.used.fixed 3, s.status.text]

end Table

end Interleave
