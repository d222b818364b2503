import Interleave.Basic
import Interleave.Campaign.Basic
import Interleave.Number.Decimal

/-!
# Grammars of command lines

A grammar says which options a command takes, whether it takes operands, and which commands stand
below it. An option that is *inherited* may also be given to the commands below. Every command has
the options that ask for help.
-/

namespace Interleave

/-- Why a command line is not carried out: it is wrong, or asks for something else. -/
inductive UsageFault where
  /-- A required option or operand is not there. -/
  | missingArgument
  | unknownArgument
  | unknownCommand
  /-- A command is required below this one. -/
  | missingCommand
  /-- A value is not of the kind that is wanted. -/
  | refusedValue
  /-- An option has no value, or an empty one where that says nothing. -/
  | missingValue
  /-- An option that counts once is given twice. -/
  | repeated
  /-- A switch is given a value. -/
  | needlessValue
  | helpAsked
  | versionAsked
  /-- Nothing at all is given where a command is required. -/
  | nothingGiven
  deriving DecidableEq, Repr

/-- What an argument may be. -/
inductive ArgKind where
  | path
  | number
  | mode
  | scheduler
  | idiom
  /-- A name and a value with an equals sign between them. -/
  | knob
  | word
  deriving DecidableEq

inductive ArgValue where
  | path (p : String)
  | number (n : UInt64)
  | mode (m : Mode)
  | scheduler (s : Scheduler)
  | idiom (i : Idiom)
  | knob (name value : String)
  | word (s : String)
  deriving DecidableEq

/-- A 64-bit number; a plus sign may precede it. -/
def word64OfText? (s : String) : Option UInt64 :=
  let digits := match s.toList with
    | '+' :: digits => digits
    | digits => digits
  match natOfDigits? 10 digits with
  | some n => if n < UInt64.size then some (.ofNat n) else none
  | none => none

/-- The name before the first equals sign, which may not be empty, and the value behind it. -/
def knobOfText? (s : String) : Option (String × String) :=
  let name := s.toList.takeWhile (· ≠ '=')
  match s.toList.dropWhile (· ≠ '=') with
  | _ :: value => if name.isEmpty then none else some (.ofList name, .ofList value)
  | [] => none

/-- The value that an argument of some kind has. -/
def ArgKind.read (k : ArgKind) (s : String) : Except UsageFault ArgValue :=
  let orRefused := fun {α : Type} (f : α → ArgValue) (a : Option α) ↦
    match a with
    | some a => Except.ok (f a)
    | none => .error .refusedValue
  match k with
  | path => if s.isEmpty then .error .missingValue else .ok (.path s)
  | number => orRefused .number (word64OfText? s)
  | mode => orRefused .mode (Mode.ofText s).toOption
  | scheduler => orRefused .scheduler (Scheduler.ofText s).toOption
  | idiom => orRefused .idiom (Idiom.ofText s).toOption
  | knob => orRefused (fun (n, v) ↦ .knob n v) (knobOfText? s)
  | word => .ok (.word s)

/-- What an option does. -/
inductive OptionKind where
  /-- Given or not. -/
  | switch
  /-- Counted. -/
  | counter
  | help
  | version
  /-- Has a value. -/
  | single (k : ArgKind)
  /-- May be given again and again, each time with a value. -/
  | repeated (k : ArgKind)
  deriving DecidableEq

structure OptionRule where
  /-- The name, which follows two hyphens. -/
  name : String
  /-- A letter that may follow one hyphen. -/
  short : Option Char := none
  kind : OptionKind
  /-- Whether the commands below take it too. -/
  inherited : Bool := false
  required : Bool := false
  /-- The environment variable that gives the value if the command line does not. -/
  envName : Option String := none

/-- What a command works on. -/
structure OperandRule where
  name : String
  kind : ArgKind
  required : Bool := true
  /-- Whether there may be any number of them, and they all stand behind two hyphens. -/
  manyBehindDashes : Bool := false

inductive Grammar where
  | mk (options : List OptionRule) (operand : Option OperandRule)
      (commands : List (String × Grammar))

namespace Grammar

def options : Grammar → List OptionRule
  | mk options _ _ => options

def operand : Grammar → Option OperandRule
  | mk _ operand _ => operand

def commands : Grammar → List (String × Grammar)
  | mk _ _ commands => commands

def helpRule : OptionRule := { name := "help", short := some 'h', kind := .help }

/-- The command of a given name below. -/
def find? (g : Grammar) (name : String) : Option Grammar := g.commands.lookup name

/-- The command whose use is explained if one is asked for by its path. -/
def explain (g : Grammar) : List String → UsageFault
  | [] => .helpAsked
  | name :: path =>
    match g.find? name with
    | some below => below.explain path
    | none =>
      if name = "help" ∧ !g.commands.isEmpty ∧ path.isEmpty then .helpAsked else .unknownCommand

end Grammar

end Interleave
