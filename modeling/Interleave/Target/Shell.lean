import Interleave.Campaign.Phase
import Interleave.Number.Decimal
import Interleave.Settings.Load
import Interleave.Target.Script

/-!
# Machines and shells

What runs execute on, and the shells that execute scripts on it.
-/

namespace Interleave

/-!
## The machine that runs execute on

A machine is what runs can see and change: the files of the working directory, what has been printed
on the console, and the time that has passed. Nothing can be read from the console, and only waiting
takes time. A job on the machine is stopped when its deadline comes.
-/

/-- How a program came to its end. -/
inductive Ending where
  | exit (status : Nat)
  | signal (number : Nat)
  /-- The deadline came first. -/
  | cutShort
  deriving DecidableEq

structure Machine where
  tree : Tree := {}
  /-- What was printed, the latest first. -/
  printed : List String := []
  elapsed : Span := .zero
  environment : Environment := []

namespace Machine

/-- All that was printed. -/
def console (m : Machine) : String := String.join m.printed.reverse

def print (m : Machine) (s : String) : Machine := { m with printed := s :: m.printed }

def now (m : Machine) : Instant := Instant.epoch.after m.elapsed

end Machine

/-!
## Shells

The state of a shell while it runs a script, the expansion of words into fields, and what a command
can do to the machine. A command either comes back with a status or ends the whole shell.
-/

/-- Where the output of a command goes. -/
inductive Sink where
  | console
  | nowhere
  | file (name : String)
  deriving DecidableEq, Inhabited

structure Shell where
  machine : Machine
  /-- When the job is stopped. -/
  deadline : Span
  name : String := "sh"
  args : List String := []
  bindings : SortedMap String String := ∅
  /-- The status of the last command. -/
  status : Nat := 0
  /-- The input that has not been read yet. -/
  input : List Char := []
  output : Sink := .console
  errors : Sink := .nowhere

/-- A job in a shell, which may end the shell. -/
abbrev Job (α : Type) := EStateM Ending Shell α

namespace Shell

/-- The number of every process. -/
def processId : String := "2"

/-! ### Expansion -/

/-- The value of a parameter that stands for one text. -/
def parameter (s : Shell) (name : String) : String :=
  match name with
  | "#" => toString s.args.length
  | "?" => toString s.status
  | "$" => processId
  | "!" | "-" => ""
  | "0" => s.name
  | _ =>
    match natOfDigits? 10 name.toList with
    | some n => s.args.getD (n - 1) ""
    | none => (s.bindings.get? name).getD ""

/-- Finished fields, the latest first, and the field that is being built. -/
structure Fields where
  done : List String := []
  current : Option (List Char) := none

namespace Fields

def add (f : Fields) (s : List Char) : Fields := { f with current := some (f.current.getD [] ++ s) }

/-- Ends the current field. -/
def cut (f : Fields) : Fields :=
  match f.current with
  | some s => ⟨.ofList s :: f.done, none⟩
  | none => f

/-- Adds a text whose blanks separate fields. -/
def addSplit (f : Fields) (s : List Char) : Fields :=
  s.foldl (fun f c ↦ if c = ' ' ∨ c = '\t' ∨ c = '\n' then f.cut else f.add [c]) f

/-- Adds several texts, each a field of its own but for the ends. -/
def addEach (add : Fields → List Char → Fields) : Fields → List String → Fields
  | f, [] => f
  | f, [a] => add f a.toList
  | f, a :: as => addEach add (add f a.toList).cut as

def finish (f : Fields) : List String := f.cut.done.reverse

end Fields

def expandPart (s : Shell) (f : Fields) : Script.Part → Fields
  | .text t _ => f.add t
  | .parameter "@" true => f.addEach .add s.args
  | .parameter "@" false | .parameter "*" false => f.addEach .addSplit s.args
  | .parameter "*" true => f.add (" ".intercalate s.args).toList
  | .parameter name true => f.add (s.parameter name).toList
  | .parameter name false => f.addSplit (s.parameter name).toList

/-- The fields that a word comes to. A word that begins with `"$@"` has none if there are no
arguments. -/
def expand (s : Shell) (w : Script.Word) : List String :=
  let w := if w = [.text [] true, .parameter "@" true] then w.tail else w
  (w.foldl s.expandPart {}).finish

/-- The text that a word comes to where only one is wanted. -/
def expandText (s : Shell) (w : Script.Word) : String := " ".intercalate (s.expand w)

/-! ### Effects -/

def onTree (f : Tree → Except OsError Tree) : Job Bool := fun s ↦
  match f s.machine.tree with
  | .ok t => .ok true { s with machine := { s.machine with tree := t } }
  | .error _ => .ok false s

/-- Writes to the output. -/
def emit (text : String) : Job Unit := fun s ↦
  match s.output with
  | .console => .ok () { s with machine := s.machine.print text }
  | .nowhere => .ok () s
  | .file name =>
    match s.machine.tree.append name text with
    | .ok t => .ok () { s with machine := { s.machine with tree := t } }
    | .error _ => .ok () s

/-- Lets time pass, at most to the deadline. -/
def wait (t : Span) : Job Unit := fun s ↦
  let later := s.machine.elapsed.add t
  if s.deadline.total ≤ later.total then
    .error .cutShort { s with machine := { s.machine with elapsed := s.deadline } }
  else .ok () { s with machine := { s.machine with elapsed := later } }

end Shell

end Interleave
