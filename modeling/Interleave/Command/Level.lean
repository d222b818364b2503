import Interleave.Command.Grammar
import Interleave.Settings.Load

/-!
# Reading command lines

The arguments of a command line are read from left to right. Each command on it is a *level*: first
the program itself, then the command that it is given, and so on down. A level ends where the name
of a command below begins.

An option with a value is *pending* until the next argument shows that the value is complete; only
then is the value looked at. So an argument that is unknown comes to light before a wrong value in
front of it. Two hyphens say that only operands follow.

A level is checked when the levels below it have been.
-/

namespace Interleave

/-- Where a value comes from; one from the command line counts more. -/
inductive ArgSource where
  | environment
  | commandLine
  deriving DecidableEq

/-- What is given for one option or operand. -/
structure Given where
  source : ArgSource := .commandLine
  values : List ArgValue := []
  /-- How often a counter is given. -/
  count : Nat := 1

/-- An option or operand whose values are still coming in. -/
structure Pending where
  name : String
  kind : ArgKind
  /-- Whether it adds to what is given before. -/
  adds : Bool
  isOption : Bool
  values : List String := []

/-- What has been read of a level. -/
structure Level where
  given : List (String × Given) := []
  pending : Option Pending := none
  /-- Whether two hyphens have been read. -/
  dashes : Bool := false

/-- All that is given at one level. -/
abbrev Givens := List (String × Given)

/-- The greatest count of a counter. -/
def Given.maxCount : Nat := 255

namespace Level

def has (l : Level) (name : String) : Bool := (l.given.lookup name).isSome

/-- Whether the value of an option comes next. -/
def isWaiting (l : Level) : Bool := l.pending.any fun p ↦ p.isOption && p.values.isEmpty

def set (l : Level) (name : String) (g : Given) : Level :=
  { l with given := (name, g) :: l.given.filter fun e ↦ e.1 ≠ name }

/-- Looks at the pending values. -/
def resolve (l : Level) : Except UsageFault Level :=
  match l.pending with
  | none => .ok l
  | some p =>
    let before := (l.given.lookup p.name).elim [] (·.values)
    if p.values.isEmpty then .error .missingValue
    else if l.has p.name ∧ !p.adds then .error .repeated
    else
      match p.values.mapM p.kind.read with
      | .error e => .error e
      | .ok vs => .ok ({ l with pending := none }.set p.name { values := before ++ vs })

/-! ## Options -/

/-- An option that takes no value. -/
def toggle (l : Level) (r : OptionRule) : Except UsageFault Level :=
  match l.resolve with
  | .error e => .error e
  | .ok l =>
    match r.kind with
    | .help => .error .helpAsked
    | .version => .error .versionAsked
    | .counter =>
      let before := (l.given.lookup r.name).elim 0 (·.count)
      .ok (l.set r.name { count := min (before + 1) Given.maxCount })
    | _ => if l.has r.name then .error .repeated else .ok (l.set r.name {})

/-- An option that takes a value, which is attached to it or comes next. -/
def await (l : Level) (r : OptionRule) (k : ArgKind) (adds : Bool) (attached : Option String) :
    Except UsageFault Level :=
  match l.resolve with
  | .error e => .error e
  | .ok l =>
    let l := { l with pending := some ⟨r.name, k, adds, true, attached.toList⟩ }
    if attached.isSome then l.resolve else .ok l

/-- The kind of the value that an option takes, and whether further values add to it. -/
def OptionKind.value? : OptionKind → Option (ArgKind × Bool)
  | .single k => some (k, false)
  | .repeated k => some (k, true)
  | .switch | .counter | .help | .version => none

/-- An option behind two hyphens, with its value if there is an equals sign. -/
def long (rules : List OptionRule) (l : Level) (s : List Char) : Except UsageFault Level :=
  let name := String.ofList (s.takeWhile (· ≠ '='))
  let attached := match s.dropWhile (· ≠ '=') with
    | _ :: value => some (String.ofList value)
    | [] => none
  match rules.find? fun r ↦ r.name == name with
  | none => .error .unknownArgument
  | some r =>
    match OptionKind.value? r.kind with
    | some (k, adds) => l.await r k adds attached
    | none => if attached.isSome then .error .needlessValue else l.toggle r

/-- The value attached to a letter: what follows it, without an equals sign. -/
def attachedTo : List Char → Option String
  | [] => none
  | '=' :: value => some (.ofList value)
  | value => some (.ofList value)

/-- Options behind one hyphen, a letter each; a value may follow the last. -/
def short (rules : List OptionRule) : Level → List Char → Except UsageFault Level
  | l, [] => .ok l
  | l, c :: s =>
    match rules.find? fun r ↦ r.short == some c with
    | none => .error .unknownArgument
    | some r =>
      match OptionKind.value? r.kind with
      | some (k, adds) => l.await r k adds (attachedTo s)
      | none =>
        match l.toggle r with
        | .error e => .error e
        | .ok l => short rules l s

/-! ## Operands -/

/-- Whether there is room for one more operand. -/
def takes (l : Level) (o : OperandRule) : Bool :=
  o.manyBehindDashes || !(l.has o.name || l.pending.any fun p ↦ p.name == o.name)

/-- The fault of an argument that is neither option nor operand. -/
def stray (g : Grammar) (l : Level) (a : String) : UsageFault :=
  if l.dashes ∧ ((g.find? a).isSome ∨ a = "help" ∧ !g.commands.isEmpty) then .unknownArgument
  else if g.commands.isEmpty then .unknownArgument
  else .unknownCommand

def operand (g : Grammar) (l : Level) (a : String) : Except UsageFault Level :=
  match g.operand.filter l.takes with
  | none => .error (l.stray g a)
  | some o =>
    if o.manyBehindDashes ∧ !l.dashes then .error .unknownArgument
    else
      match l.pending with
      | some p =>
        if p.name = o.name then
          .ok { l with pending := some { p with values := p.values ++ [a] } }
        else l.resolve.map fun l ↦ { l with pending := some ⟨o.name, o.kind, false, false, [a]⟩ }
      | none => .ok { l with pending := some ⟨o.name, o.kind, false, false, [a]⟩ }

/-! ## Arguments -/

/-- Reads one argument that names no command below. -/
def step (g : Grammar) (rules : List OptionRule) (l : Level) (a : String) :
    Except UsageFault Level :=
  if l.dashes then l.operand g a
  else if a = "--" then .ok { l with dashes := true }
  else
    match a.toList, l.pending.filter fun _ ↦ l.isWaiting with
    | '-' :: '-' :: s, _ => l.long rules s
    | '-' :: c :: s, _ => l.short rules (c :: s)
    | _, some p => .ok { l with pending := some { p with values := [a] } }
    | _, none => l.operand g a

/-- Takes the values of options from the environment that the command line does not give. -/
def fromEnvironment (env : Environment) : List OptionRule → Level → Except UsageFault Level
  | [], l => .ok l
  | r :: rs, l =>
    match r.envName.bind fun v ↦ List.lookup v env, OptionKind.value? r.kind with
    | some text, some (k, _) =>
      if l.has r.name then fromEnvironment env rs l
      else
        match k.read text with
        | .error e => .error e
        | .ok v => fromEnvironment env rs (l.set r.name { source := .environment, values := [v] })
    | _, _ => fromEnvironment env rs l

/-- Whether all that is required is given. -/
def isComplete (g : Grammar) (l : Level) : Bool :=
  g.options.all (fun r ↦ !r.required || l.has r.name) &&
    g.operand.all fun o ↦ !o.required || l.has o.name

/-- Checks a level that has been read; `below` says whether a command follows. -/
def finish (env : Environment) (g : Grammar) (rules : List OptionRule) (below : Bool) (l : Level) :
    Except UsageFault Givens :=
  match l.resolve with
  | .error e => .error e
  | .ok l =>
    match fromEnvironment env rules l with
    | .error e => .error e
    | .ok l =>
      if !below ∧ !g.commands.isEmpty then
        .error (if l.given.isEmpty then .nothingGiven else .missingCommand)
      else if l.isComplete g then .ok l.given
      else .error .missingArgument

/-- Reads a level and those below it. The answer names the command of each level with what it is
given. -/
def read (env : Environment) (g : Grammar) (inherited : List OptionRule) (name : String)
    (l : Level) : List String → Except UsageFault (List (String × Givens))
  | [] => (l.finish env g (g.options ++ inherited ++ [Grammar.helpRule]) false).map fun given ↦
      [(name, given)]
  | a :: rest =>
    let rules := g.options ++ inherited ++ [Grammar.helpRule]
    let named := if l.dashes ∨ l.isWaiting then none else some a
    match named.bind g.find? with
    | some below =>
      match read env below (g.options.filter (·.inherited) ++ inherited) a {} rest with
      | .error e => .error e
      | .ok levels =>
        (l.finish env g rules true).map fun given ↦ (name, given) :: levels
    | none =>
      if named = some "help" ∧ !g.commands.isEmpty then .error (g.explain rest)
      else
        match l.step g rules a with
        | .error e => .error e
        | .ok l => read env g inherited name l rest

end Level

/-!
## The grammar of the program

All commands, with the options that each of them takes. A campaign runs the program that stands
behind two hyphens.
-/

namespace Usage

def single (name : String) (k : ArgKind) (short : Option Char) : OptionRule :=
  { name, short, kind := .single k }

/-- An option with a path, which the commands below take too. -/
def inheritedPath (name : String) : OptionRule :=
  { name, kind := .single .path, inherited := true }

/-- Options that every command takes. -/
def everywhere : List OptionRule :=
  [{ name := "json", short := some 'j', kind := .switch, inherited := true },
    { name := "config", short := some 'c', kind := .single .path, inherited := true,
      envName := some "RAVEL_CONFIG" },
    { name := "verbose", short := some 'v', kind := .counter, inherited := true }]

/-! ### Campaigns -/

def targetOptions : List OptionRule :=
  [{ name := "option", short := some 'o', kind := .repeated .knob },
    single "max-runs" .number none]

def program : OperandRule := { name := "program", kind := .word, manyBehindDashes := true }

def campaign (options : List OptionRule) : Grammar :=
  .mk (options ++ targetOptions) (some program) []

/-- The options that choose when a campaign of one phase stops. -/
def phaseOptions : List OptionRule :=
  [single "mode" .mode (some 'm'), single "threshold" .number (some 't')]

/-- The options that choose when a named phase stops. -/
def namedPhaseOptions (phase : String) : List OptionRule :=
  [single (phase ++ "-mode") .mode none, single (phase ++ "-threshold") .number none]

def idiomOption : OptionRule := single "idiom" .idiom (some 'i')

def schedulerOption : OptionRule := single "scheduler" .scheduler (some 's')

def campaigns : List (String × Grammar) :=
  [("native", campaign phaseOptions),
    ("profile", campaign phaseOptions),
    ("active", campaign (idiomOption :: phaseOptions)),
    ("race", campaign phaseOptions),
    ("chess", campaign phaseOptions),
    ("random", campaign (schedulerOption :: phaseOptions)),
    ("idiom", campaign
      (namedPhaseOptions "profile" ++ namedPhaseOptions "active" ++ [idiomOption])),
    ("chess-race", campaign (namedPhaseOptions "race" ++ namedPhaseOptions "chess"))]

/-! ### Memos -/

def other : OperandRule := { name := "other", kind := .path }

def keepFailed : OptionRule := { name := "no-memo-failed", kind := .switch }

def memoCommands : List (String × Grammar) :=
  [("merge", .mk [] (some other) []),
    ("apply", .mk [keepFailed] (some other) []),
    ("refine", .mk [keepFailed] none []),
    ("close", .mk [] none []),
    ("input-change", .mk [] none []),
    ("sample", .mk
      [{ idiomOption with required := true },
        { single "num" .number (some 'n') with required := true },
        single "seed" .number none] none [])]

def memo : Grammar := .mk [inheritedPath "memo-in", inheritedPath "memo-out"] none memoCommands

/-! ### Views -/

def viewCommands : List (String × Grammar) :=
  [("images", .mk [] none []),
    ("insts", .mk [] none []),
    ("iroots", .mk [] none []),
    ("memo-summary", .mk [] none []),
    ("memo-exposed", .mk [] none []),
    ("has-candidate", .mk [] (some { name := "idiom", kind := .idiom, required := false }) []),
    ("test-history", .mk [] none []),
    ("test-history-summary", .mk [] none [])]

def display : Grammar :=
  .mk (["sinfo-in", "iroot-in", "memo-in", "test-history"].map inheritedPath) none viewCommands

/-! ### The program -/

def version : OptionRule := { name := "version", short := some 'V', kind := .version }

def grammar : Grammar :=
  .mk (everywhere ++ [version]) none (campaigns ++ [("memo", memo), ("display", display)])

/-- Reads the arguments behind the name of the program. -/
def read (env : Environment) (args : List String) :
    Except UsageFault (List (String × Givens)) :=
  Level.read env grammar [] "program" {} args

end Usage

end Interleave
