import Interleave.Command.Run
import Interleave.Files.Tree

/-!
# The program

The files below the working directory become a tree, the command line is carried out on a machine
with that tree, and then the changes to the tree are made to the files. Other files are not seen,
and programs run on the machine only.
-/

namespace Interleave

/-! ## Files -/

/-- How deep directories are looked into. -/
def maxDirectoryDepth : Nat := 64

/-- A tree with the entries of a directory and what is below them. -/
def addEntries : (depth : Nat) → Place → List IO.FS.DirEntry → Tree → IO Tree
  | 0, _, _, t => return t
  | depth + 1, place, entries, t => entries.foldlM (fun t e ↦ do
      let p := place ++ [e.fileName]
      match (← e.path.symlinkMetadata).type with
      | .dir => addEntries depth p (← e.path.readDir).toList (t.put p .dir)
      | .file => return t.put p (.file (.ofBytes (← IO.FS.readBinFile e.path).toList))
      | _ => return t) t

def workingTree : IO Tree := do
  addEntries maxDirectoryDepth [] (← (← IO.currentDir).readDir).toList {}

/-- Makes a change to the files. -/
def Tree.Change.carryOut : Change → IO Unit
  | put p (.file c) => IO.FS.writeBinFile (placeName p) c.bytes
  | put p .dir => IO.FS.createDirAll (placeName p)
  | drop p (.file _) => IO.FS.removeFile (placeName p)
  | drop p .dir => IO.FS.removeDir (placeName p)

/-! ## Circumstances -/

/-- The environment; it is empty where it cannot be read. -/
def currentEnvironment : IO Environment := do
  try return .ofBlock (← IO.FS.readFile "/proc/self/environ")
  catch _ => return []

def randomNumber (bytes : USize) : IO Nat := do
  return (← IO.getRandomBytes bytes).foldl (fun n b ↦ 256 * n + b.toNat) 0

def currentCircumstances : IO Circumstances := do
  return { seed := .ofNat (← randomNumber 8), tag := .ofList (Nat.toDigits 16 (← randomNumber 16)) }

/-- Carries out an invocation, and gives the status to end with. -/
def Invocation.perform (i : Invocation) (env : Environment) : IO Nat := do
  let tree ← workingTree
  let some done := i.run Machine.host (← currentCircumstances) { tree, environment := env }
    | throw (IO.userError "too many runs")
  (tree.changes done.world.tree).forM Tree.Change.carryOut
  IO.print done.world.console
  if let .error e := done.status then IO.eprintln (e.report i.json)
  return done.exitStatus

end Interleave

/-- Reads the command line and carries it out. -/
def main (args : List String) : IO UInt32 := do
  let env ← Interleave.currentEnvironment
  match Interleave.Invocation.read env args with
  | .error e =>
    IO.print e.console
    return .ofNat e.exitStatus
  | .ok i => return .ofNat (← i.perform env)
