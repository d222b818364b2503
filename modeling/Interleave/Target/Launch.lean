import Interleave.Campaign.Basic
import Interleave.Clock
import Interleave.Settings.Basic
import Interleave.Target.Commands

/-!
# Launching runs

How a run becomes the command line of a program, how programs run on a machine, and what their
endings say of the run.
-/

namespace Interleave

/-!
## Running scripts and programs

A script is run step by step. A step sets up its redirections, expands its words, runs its command
and takes the redirections down again. A program that is started by itself runs as one command.
-/

namespace Shell

open Script

/-! ### Redirections -/

def setSink (port : Nat) (sink : Sink) : Job Unit :=
  modify fun s ↦ match port with
    | 1 => { s with output := sink }
    | 2 => { s with errors := sink }
    | _ => s

/-- Opens a file for output. -/
def openFile (port : Nat) (append : Bool) (name : String) : Job Bool := do
  if name = "/dev/null" then
    setSink port .nowhere
    return true
  else if ← onTree fun t ↦ if append then t.append name "" else t.write name (.text "") then
    setSink port (.file name)
    return true
  else return false

/-- Sets up a redirection; whether that was possible. -/
def redirect : Redirect → Job Bool
  | .output port append file => do openFile port append ((← get).expandText file)
  | .duplicate port target => do
    let s ← get
    match s.expandText target with
    | "1" => setSink port s.output
    | "2" => setSink port s.errors
    | _ => setSink port .nowhere
    return true
  | .input file => do
    let s ← get
    let name := s.expandText file
    if name = "/dev/null" then
      set { s with input := [] }
      return true
    match s.machine.tree.text? name with
    | some text =>
      set { s with input := text.toList }
      return true
    | none => return false

/-- Sets up redirections in order, up to one that is impossible. -/
def redirectAll : List Redirect → Job Bool
  | [] => pure true
  | r :: rs => do if ← redirect r then redirectAll rs else return false

/-! ### Steps -/

/-- Sets variables from the words that begin a step, and gives the other words. -/
def assign : List Word → Job (List Word)
  | [] => pure []
  | w :: ws =>
    match Word.assignment? w with
    | some (name, value) => do
      modify fun s ↦ { s with bindings := s.bindings.insert name (s.expandText value) }
      assign ws
    | none => pure (w :: ws)

/-- Runs the command of some fields; `exec` runs it in place of the shell. -/
def runFields : List String → Job Nat
  | [] => pure 0
  | ["exec"] => pure 0
  | "exec" :: name :: args => do
    let status ← command name args
    throw (.exit status)
  | name :: args => command name args

/-- Runs a step whatever its link, and gives its status. -/
def runStep (step : Step) : Job Nat := do
  let before ← get
  let status ←
    if ← redirectAll step.redirects then do
      let words ← assign step.words
      runFields (words.flatMap (← get).expand)
    else pure 2
  modify fun s ↦ { s with
    output := before.output
    errors := before.errors
    input := if step.redirects.any (fun r ↦ r matches .input _) then before.input else s.input }
  return if step.negated then (if status = 0 then 1 else 0) else status

/-- Whether a step runs after a status. -/
def runsAfter (link : Link) (status : Nat) : Bool :=
  match link with
  | .always => true
  | .ifSuccess => status = 0
  | .ifFailure => status ≠ 0

def runSteps : List Step → Job Unit
  | [] => pure ()
  | step :: rest => do
    if runsAfter step.link (← get).status then
      let status ← runStep step
      modify fun s ↦ { s with status }
    runSteps rest

/-- Runs a script; one that cannot be read ends with status 2. -/
def runScript (script : String) : Job Nat :=
  match steps? script with
  | none => pure 2
  | some steps => do
    runSteps steps
    return (← get).status

/-- The shell as a program: it runs a script from its arguments or from a file. -/
def shell : List String → Job Nat
  | [] => pure 0
  | "-c" :: script :: rest => do
    modify fun s ↦ { s with name := rest.headD s.name, args := rest.tail }
    runScript script
  | ["-c"] => pure 2
  | file :: rest => do
    match (← get).machine.tree.text? file with
    | some script =>
      modify fun s ↦ { s with name := file, args := rest }
      runScript script
    | none => return 2

end Shell

/-! ### Programs -/

/-- Why a program could not be started. -/
inductive StartFault where
  | os (e : OsError)
  /-- An argument holds a character that none may hold. -/
  | nulInArgument
  deriving DecidableEq

def StartFault.text : StartFault → String
  | .os e => e.text
  | .nulInArgument => "nul byte found in provided data"

namespace Machine

/-- The job of a program; none if there is no such program. -/
def job? (name : String) (args : List String) : Option (Job Nat) :=
  if name = "sh" then some (Shell.shell args) else Shell.program? name args

/-- Why there is no program of some name. A name without a slash is looked for in the directories of
programs, each of which has entries for itself and its parent. -/
def missing (t : Tree) (name : String) : OsError :=
  if !name.toList.contains '/' then
    if name = "." ∨ name = ".." then .permissionDenied else .notFound
  else
    match t.lookup name with
    | .ok _ => .permissionDenied
    | .error e => e

/-- The job that arguments start, the first being the name of the program. -/
def start (t : Tree) (argv : List String) : Except StartFault (Job Nat) :=
  if argv.any fun a ↦ a.toList.contains '\x00' then .error .nulInArgument
  else
    let name := argv.headD ""
    match job? (Shell.withoutDir name) argv.tail with
    | some job => .ok job
    | none => .error (.os (missing t name))

/-- Runs a job for less than some time. -/
def runJob (job : Job Nat) (limit : Span) (m : Machine) : Ending × Machine :=
  let deadline := m.elapsed.add limit
  let s : Shell := { machine := m, deadline, bindings := .ofList m.environment }
  let stopped := { m with elapsed := deadline }
  if limit.total = 0 then (.cutShort, stopped)
  else
    match job s with
    | .ok status s => (.exit status, s.machine)
    | .error e s => (e, s.machine)

end Machine

/-!
## Command lines

A run is started by the engine, if there is one: first the engine's own command, then its options
in ascending order of name, each as a flag and a value, then two hyphens, and then the program with
its arguments. Without an engine the program runs by itself, and options go nowhere.
-/

/-- How programs are started and judged. -/
structure Engine where
  /-- The command that runs programs; if empty, they run by themselves. -/
  command : List String := []
  /-- A run that takes as long as this hangs. -/
  runTimeout : Span
  /-- Whether a status other than zero is a wrong result. -/
  strictExit : Bool := false

namespace Engine

def ofSettings (s : EngineSettings) : Engine where
  command := s.command
  runTimeout := .ofSeconds s.runTimeoutSecs.toNat
  strictExit := s.strictExit

/-- The program of a run and its arguments. -/
def targetLine (r : RunSpec) : List String := r.program :: r.args

/-- The options of a run, each as a flag and its value. -/
def optionLine (r : RunSpec) : List String :=
  r.options.entries.flatMap fun (name, value) ↦ ["-" ++ name, value]

/-- All arguments of a run, beginning with the name of what is started. -/
def commandLine (e : Engine) (r : RunSpec) : List String :=
  if e.command.isEmpty then targetLine r
  else e.command ++ optionLine r ++ "--" :: targetLine r

end Engine

/-!
## Launching runs

A run ends normally if its program comes to an end by itself, whatever its status, unless the engine
is strict about it. Death from a signal is a crash, and a run that is cut short hangs.
-/

namespace Engine

/-- What an ending says about a run. -/
def outcome (e : Engine) : Ending → Outcome
  | .signal _ => .crash
  | .cutShort => .hang
  | .exit status => if e.strictExit ∧ status ≠ 0 then .mismatch else .normal

/-- Launches a run on a machine. -/
def launch (e : Engine) (r : RunSpec) : Act Machine Outcome := fun m ↦
  let argv := e.commandLine r
  match Machine.start m.tree argv with
  | .error f => .error (.launch (argv.headD "" ++ ": " ++ f.text)) m
  | .ok job =>
    let (ending, m) := m.runJob job e.runTimeout
    .ok (e.outcome ending) m

def launcher (e : Engine) : Launcher Machine where
  launch := e.launch
  now := Machine.now

end Engine

end Interleave
