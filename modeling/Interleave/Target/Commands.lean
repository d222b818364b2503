import Interleave.Target.Shell

/-!
# The commands of a shell

The standard commands that scripts may use, each with the part of its behaviour that a run can show:
its status, what it prints, what it does to files, and how long it takes.
-/

namespace Interleave.Shell

/-! ## Signals -/

/-- The names of the signals, from 1 on. -/
def signals : List String :=
  ["HUP", "INT", "QUIT", "ILL", "TRAP", "ABRT", "BUS", "FPE", "KILL", "USR1", "SEGV", "USR2",
    "PIPE", "ALRM", "TERM", "STKFLT", "CHLD", "CONT", "STOP", "TSTP", "TTIN", "TTOU", "URG", "XCPU",
    "XFSZ", "VTALRM", "PROF", "WINCH", "IO", "PWR", "SYS"]

/-- The number of a signal given by name or number. -/
def signal? (s : String) : Option Nat :=
  match natOfDigits? 10 s.toList with
  | some n => if n ≤ 64 then some n else none
  | none =>
    let name := String.ofList (s.toList.map Char.toUpper)
    (signals.findIdx? (· == name)).map (· + 1)

/-- Sends a signal to the shell itself. -/
def deliver (number : Nat) : Job Nat := fun s ↦
  if [0, 17, 18, 23, 28].contains number then .ok 0 s
  else if [19, 20, 21, 22].contains number then
    .error .cutShort { s with machine := { s.machine with elapsed := s.deadline } }
  else .error (.signal number) s

/-- The signal and the processes that the arguments of `kill` name. -/
def killArgs : List String → Option (Nat × List String)
  | "-s" :: name :: rest => (signal? name).map (·, rest)
  | "--" :: rest => some (15, rest)
  | a :: rest =>
    match a.toList with
    | '-' :: name => (signal? (.ofList name)).map (·, rest)
    | _ => some (15, a :: rest)
  | [] => none

def kill (args : List String) : Job Nat :=
  match killArgs args with
  | none => pure 2
  | some (_, []) => pure 2
  | some (number, targets) => if targets.contains processId then deliver number else pure 1

/-! ## Tests -/

def isFile (t : Tree) (name : String) : Bool :=
  match t.lookup name with
  | .ok (.file _) => true
  | _ => false

def isDir (t : Tree) (name : String) : Bool :=
  match t.lookup name with
  | .ok .dir => true
  | _ => false

def hasText (t : Tree) (name : String) : Bool :=
  match t.read name with
  | .ok (.text s) => s ≠ ""
  | .ok (.raw bytes) => !bytes.isEmpty
  | .error e => e = .isDirectory

/-- An integer as tests write it. -/
def integer? (s : String) : Option Int :=
  let (negative, digits) := takeSign (trimChars s.toList)
  (natOfDigits? 10 digits).map fun n ↦ if negative then -n else n

def compareNumbers (op : String) (a b : Int) : Option Bool :=
  match op with
  | "-eq" => some (a == b)
  | "-ne" => some (a != b)
  | "-lt" => some (decide (a < b))
  | "-le" => some (decide (a ≤ b))
  | "-gt" => some (decide (b < a))
  | "-ge" => some (decide (b ≤ a))
  | _ => none

/-- What a test says; none if it makes no sense. -/
def testResult (t : Tree) : List String → Option Bool
  | [] => some false
  | [a] => some (a ≠ "")
  | ["!", a] => some (a == "")
  | [op, a] =>
    match op with
    | "-n" => some (a ≠ "")
    | "-z" => some (a == "")
    | "-e" => some (isFile t a || isDir t a)
    | "-f" => some (isFile t a)
    | "-r" | "-w" => some (isFile t a || isDir t a)
    | "-x" | "-d" => some (isDir t a)
    | "-s" => some (hasText t a)
    | _ => none
  | [a, op, b] =>
    if op = "=" then some (a == b)
    else if op = "!=" then some (a != b)
    else if a = "!" then (testResult t [op, b]).map not
    else
      match integer? a, integer? b with
      | some m, some n => compareNumbers op m n
      | _, _ => none
  | "!" :: rest => (testResult t rest).map not
  | _ => none

def test (args : List String) : Job Nat := fun s ↦
  match testResult s.machine.tree args with
  | some true => .ok 0 s
  | some false => .ok 1 s
  | none => .ok 2 s

/-! ## Printing -/

/-- The characters of a text with backslash escapes. -/
def unescape : List Char → List Char
  | '\\' :: c :: s =>
    match c with
    | 'n' => '\n' :: unescape s
    | 't' => '\t' :: unescape s
    | 'r' => '\r' :: unescape s
    | '\\' => '\\' :: unescape s
    | c => '\\' :: c :: unescape s
  | c :: s => c :: unescape s
  | [] => []

def echo (args : List String) : Job Nat := do
  let (args, newline) := match args with
    | "-n" :: rest => (rest, "")
    | _ => (args, "\n")
  emit (String.ofList (unescape (" ".intercalate args).toList) ++ newline)
  return 0

/-- What a format prints once, and the arguments that it leaves. -/
def format : List Char → List String → List Char × List String
  | '%' :: c :: s, args =>
    if c = '%' then
      let (out, left) := format s args
      ('%' :: out, left)
    else
      let arg := args.headD (if c = 'd' then "0" else "")
      let (out, left) := format s args.tail
      (arg.toList ++ out, left)
  | c :: s, args =>
    let (out, left) := format s args
    (c :: out, left)
  | [], args => ([], args)

/-- A format as often as it takes to use up the arguments, at most `rounds` times more. -/
def formatAll (f : List Char) : (rounds : Nat) → List String → List Char
  | 0, args => (format f args).1
  | n + 1, args =>
    let (out, left) := format f args
    if left.isEmpty ∨ left.length = args.length then out else out ++ formatAll f n left

def printf (args : List String) : Job Nat :=
  match args with
  | [] => pure 2
  | f :: args => do
    emit (.ofList (formatAll (unescape f.toList) args.length args))
    return 0

/-! ## Files and time -/

/-- The length of time that an argument of `sleep` names. -/
def duration? (s : String) : Option Span :=
  let chars := s.toList
  let (digits, unit) := match chars.getLast? with
    | some 's' => (chars.dropLast, 1)
    | some 'm' => (chars.dropLast, 60)
    | some 'h' => (chars.dropLast, 3600)
    | some 'd' => (chars.dropLast, 86400)
    | _ => (chars, 1)
  match Decimal.ofChars? digits with
  | some d =>
    if d.negative then none
    else if 0 ≤ d.exponent then
      some ⟨d.significand * Nat.pow 10 (min d.exponent.toNat 20) * Span.perSecond * unit⟩
    else some ⟨d.significand * Span.perSecond * unit / Nat.pow 10 d.exponent.natAbs⟩
  | none => none

def sleep (args : List String) : Job Nat :=
  match args.mapM duration? with
  | some (t :: ts) => do
    wait (ts.foldl .add t)
    return 0
  | _ => pure 1

/-- Takes a line off the input; whether there was a whole one. -/
def takeLine : Job (String × Bool) := fun s ↦
  let line := s.input.takeWhile (· ≠ '\n')
  match s.input.dropWhile (· ≠ '\n') with
  | _ :: rest => .ok (.ofList line, true) { s with input := rest }
  | [] => .ok (.ofList line, false) { s with input := [] }

/-- Reads a line into a variable. -/
def readLine (names : List String) : Job Nat := do
  let (line, whole) ← takeLine
  modify fun s ↦ match (names.filter (· ≠ "-r")).head? with
    | some name => { s with bindings := s.bindings.insert name (trimText line) }
    | none => s
  return if whole then 0 else 1

/-- Prints the input, or files. -/
def cat (names : List String) : Job Nat := do
  let s ← get
  if names.isEmpty then
    emit (.ofList s.input)
    set { (← get) with input := [] }
    return 0
  let mut status := 0
  for name in names do
    match s.machine.tree.text? name with
    | some text => emit text
    | none => status := 1
  return status

/-- Runs an operation on the files; its status is 1 if it was refused. -/
def fileStatus (f : Tree → Except OsError Tree) : Job Nat := do
  return if ← onTree f then 0 else 1

def copy (source target : String) (t : Tree) : Except OsError Tree := do
  t.write target (← t.read source)

/-! ## All commands -/

/-- Commands that are programs of their own. -/
def program? (name : String) (args : List String) : Option (Job Nat) :=
  match name, args with
  | "true", _ => some (pure 0)
  | "false", _ => some (pure 1)
  | "sleep", _ => some (sleep args)
  | "echo", _ => some (echo args)
  | "printf", _ => some (printf args)
  | "test", _ => some (test args)
  | "[", _ => some (if args.getLast? = some "]" then test args.dropLast else pure 2)
  | "cat", _ => some (cat args)
  | "kill", _ => some (kill args)
  | "touch", _ => some (fileStatus fun t ↦ args.foldlM (fun t f ↦ t.append f "") t)
  | "cp", [a, b] => some (fileStatus (copy a b))
  | "mv", [a, b] => some (fileStatus fun t ↦ t.rename a b)
  | "rm", "-f" :: files => some do
      for f in files do
        let _ ← onTree fun t ↦ t.remove f
      return 0
  | "rm", files => some (fileStatus fun t ↦ files.foldlM (fun t f ↦ t.remove f) t)
  | "mkdir", "-p" :: dirs =>
    some (fileStatus fun t ↦ dirs.foldlM (fun t d ↦ (t.makeDirs d).mapError (·.1)) t)
  | _, _ => none

/-- The directories that programs are in. -/
def programDirs : List String := ["/bin/", "/usr/bin/"]

/-- The name of a program without the directory of programs. -/
def withoutDir (name : String) : String :=
  match programDirs.find? fun d ↦ d.toList.isPrefixOf name.toList with
  | some d => .ofList (name.toList.drop d.length)
  | none => name

def exit (args : List String) : Job Nat := fun s ↦
  match args with
  | [] => .error (.exit s.status) s
  | a :: _ =>
    match natOfDigits? 10 a.toList with
    | some n => .error (.exit (n % 256)) s
    | none => .error (.exit 2) s

def shift : Job Nat := fun s ↦
  if s.args.isEmpty then .error (.exit 2) s else .ok 0 { s with args := s.args.tail }

/-- Runs a command; one that is not known has status 127. -/
def command : (name : String) → (args : List String) → Job Nat
  | ":", _ | "export", _ | "set", _ => pure 0
  | "exit", args => exit args
  | "read", args => readLine args
  | "shift", _ => shift
  | name, args => ((program? (withoutDir name) args).getD (pure 127))

end Interleave.Shell
