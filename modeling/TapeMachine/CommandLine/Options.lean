import TapeMachine.Catalog
import TapeMachine.Execution.Run
import TapeMachine.Text.Numeral

/-!
# Options of the command line

Options have a long name after two dashes, and some a letter after one. The value of an option
follows it, either as the next argument or in the same one, with an equals sign between or, after a
letter, without. Letters may be joined after one dash as long as only the last takes a value. Every
option may be given once, there are no other arguments, and a machine has only one source.
-/

set_option autoImplicit false

namespace TapeMachine.CommandLine

/-- The options there are. -/
inductive OptionName where
  | program
  | input
  | random
  | seed
  | output
  | singleStep
  | quiet
  | noExec
  | maxSteps
  | dump
  deriving DecidableEq

namespace OptionName

def all : List OptionName :=
  [program, input, random, seed, output, singleStep, quiet, noExec, maxSteps, dump]

def long : OptionName → String
  | program => "program"
  | input => "input"
  | random => "random"
  | seed => "seed"
  | output => "output"
  | singleStep => "single-step"
  | quiet => "quiet"
  | noExec => "no-exec"
  | maxSteps => "max-steps"
  | dump => "dump"

def letter? : OptionName → Option Char
  | program => some 'p'
  | input => some 'i'
  | output => some 'o'
  | quiet => some 'q'
  | _ => none

def takesValue : OptionName → Bool
  | singleStep | quiet | noExec | dump => false
  | _ => true

def ofLong? (name : String) : Option OptionName :=
  all.find? fun option ↦ option.long = name

def ofLetter? (letter : Char) : Option OptionName :=
  all.find? fun option ↦ option.letter? = some letter

end OptionName

/-- Why arguments are refused. -/
inductive UsageError where
  | unexpected (argument : String)
  | missingValue (option : OptionName)
  | needlessValue (option : OptionName)
  | badValue (option : OptionName) (value : String)
  | repeated (option : OptionName)
  | conflict (option other : OptionName)
  | seedWithoutRandom
  deriving DecidableEq

def UsageError.message : UsageError → String
  | unexpected argument => s!"unexpected argument '{argument}'"
  | missingValue option => s!"--{option.long} needs a value"
  | needlessValue option => s!"--{option.long} takes no value"
  | badValue option value => s!"'{value}' is no value for --{option.long}"
  | repeated option => s!"--{option.long} is given more than once"
  | conflict option other => s!"--{option.long} cannot be used with --{other.long}"
  | seedWithoutRandom => "--seed needs --random"

/-- An option as it was given, with its value if it takes one. -/
abbrev Given := OptionName × Option String

/-- Whether an argument is an option or the mark that ends the options, and so no value of the
option before it. A dash by itself is neither. -/
def looksLikeOption (argument : String) : Bool :=
  match argument.toList with
  | '-' :: _ :: _ => true
  | _ => false

/-- An option after two dashes, with what follows an equals sign. The option that is returned last
still lacks its value. -/
def readLong (text : List Char) : Except UsageError (List Given × Option OptionName) :=
  let name := text.takeWhile (· ≠ '=')
  match OptionName.ofLong? (String.ofList name), text.dropWhile (· ≠ '=') with
  | none, _ => .error (.unexpected (String.ofList ('-' :: '-' :: text)))
  | some option, [] =>
    if option.takesValue then .ok ([], some option) else .ok ([(option, none)], none)
  | some option, _ :: value =>
    if option.takesValue then .ok ([(option, some (String.ofList value))], none)
    else .error (.needlessValue option)

/-- Letters after one dash. What follows the letter of an option that takes a value is its value,
without an equals sign in front. -/
def readLetters : List Char → Except UsageError (List Given × Option OptionName)
  | [] => .ok ([], none)
  | letter :: rest =>
    match OptionName.ofLetter? letter with
    | none => .error (.unexpected (String.ofList ['-', letter]))
    | some option =>
      if option.takesValue then
        match rest with
        | [] => .ok ([], some option)
        | '=' :: value => .ok ([(option, some (String.ofList value))], none)
        | value => .ok ([(option, some (String.ofList value))], none)
      else
        match rest with
        | '=' :: _ => .error (.needlessValue option)
        | _ => (readLetters rest).map fun (given, pending) ↦ ((option, none) :: given, pending)

/-- An argument that is an option, or several letters of options. -/
def readArgument (argument : String) : Except UsageError (List Given × Option OptionName) :=
  match argument.toList with
  | '-' :: '-' :: text => readLong text
  | '-' :: letter :: rest => readLetters (letter :: rest)
  | _ => .error (.unexpected argument)

/-- The options in a list of arguments, in order. -/
def readArguments : List String → Except UsageError (List Given)
  | [] => .ok []
  | ["--"] => .ok []
  | "--" :: argument :: _ => .error (.unexpected argument)
  | argument :: rest =>
    match readArgument argument with
    | .error error => .error error
    | .ok (given, none) => (readArguments rest).map fun more ↦ given ++ more
    | .ok (given, some option) =>
      match rest with
      | [] => .error (.missingValue option)
      | value :: rest =>
        if looksLikeOption value then .error (.missingValue option)
        else (readArguments rest).map fun more ↦ given ++ (option, some value) :: more

/-- Where the machine comes from. -/
inductive Source where
  | catalog (item : Catalog)
  | file (path : String)
  | random (states : Nat) (seed? : Option UInt64)
  deriving DecidableEq

/-- What the command line asks for. -/
structure Options where
  source : Source
  output? : Option String
  singleStep : Bool
  quiet : Bool
  noExec : Bool
  maxSteps : Nat
  dump : Bool
  deriving DecidableEq

/-- An unsigned 64-bit number, which may have a plus sign in front. -/
def number? (text : String) : Option Nat :=
  let digits := match text.toList with
    | '+' :: rest => rest
    | other => other
  if digits ≠ [] ∧ digits.all Char.isDigit ∧ Text.value digits < UInt64.size then
    some (Text.value digits)
  else none

/-- Refuses an option that is given more than once. -/
def checkRepeats : List Given → Except UsageError Unit
  | [] => .ok ()
  | (option, _) :: rest =>
    if rest.any fun given ↦ given.1 = option then .error (.repeated option) else checkRepeats rest

/-- The value of an option that was given, read by a function that may refuse it. -/
def valueOf {α : Type} (given : List Given) (option : OptionName) (read? : String → Option α) :
    Except UsageError (Option α) :=
  match given.find? fun entry ↦ entry.1 = option with
  | some (_, some value) =>
    match read? value with
    | some result => .ok (some result)
    | none => .error (.badValue option value)
  | _ => .ok none

/-- A path is any text but the empty one. -/
def path? (text : String) : Option String :=
  if text = "" then none else some text

/-- The options of a list of arguments. -/
def Options.parse (arguments : List String) : Except UsageError Options := do
  let given ← readArguments arguments
  checkRepeats given
  let program? ← valueOf given .program Catalog.ofName?
  let input? ← valueOf given .input path?
  let random? ← valueOf given .random number?
  let seed? ← valueOf given .seed number?
  let output? ← valueOf given .output path?
  let maxSteps? ← valueOf given .maxSteps number?
  let isGiven (option : OptionName) : Bool := given.any fun entry ↦ entry.1 = option
  let source ← match program?, input?, random? with
    | some _, some _, _ => throw (.conflict .program .input)
    | _, some _, some _ => throw (.conflict .input .random)
    | some _, _, some _ => throw (.conflict .random .program)
    | _, some path, _ => pure (Source.file path)
    | _, _, some states => pure (Source.random states (seed?.map UInt64.ofNat))
    | some item, _, _ => pure (Source.catalog item)
    | none, none, none =>
      if seed?.isSome then throw .seedWithoutRandom else pure (Source.catalog .increment)
  return { source := source
           output? := output?
           singleStep := isGiven .singleStep
           quiet := isGiven .quiet
           noExec := isGiven .noExec
           maxSteps := maxSteps?.getD defaultBudget
           dump := isGiven .dump }

end TapeMachine.CommandLine
