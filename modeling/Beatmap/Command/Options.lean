import Beatmap.Number.Integer
import Beatmap.Text.Pieces

/-!
# The command line

The command line names one input and sets options, in any order. Every option may be given at most
once. The value of an option is part of the same word or is the next word, which must not look like
an option. After `--` every word is an input.
-/

namespace Beatmap.Command

/-- The parsed command line. -/
structure Options where
  /-- An archive, or a directory of archives. -/
  input : String
  /-- The path of the report file. -/
  report : Option String := none
  /-- The path of the list of failures. -/
  failures : Option String := none
  /-- The number of threads. -/
  threads : Option Nat := none
  /-- Whether charts are parsed sequentially. -/
  sequential : Bool := false
  deriving DecidableEq, Repr

/-- The names of the options. -/
inductive Flag where
  | report
  | failures
  | threads
  | sequential
  deriving DecidableEq, Repr

/-- The name of an option without the leading dashes. -/
def Flag.name : Flag → String
  | report => "json"
  | failures => "fail-list"
  | threads => "threads"
  | sequential => "sequential"

/-- The option with a given name. -/
def Flag.ofName? (name : List Char) : Option Flag :=
  [report, failures, threads, sequential].find? (·.name.toList == name)

/-- The classification of a word of the command line. -/
inductive Word where
  | operand
  /-- An option, with the value that is part of the same word. -/
  | flag (flag : Flag) (value : Option (List Char))
  /-- The word `--`, which ends the options. -/
  | endOfFlags
  | unknown
  deriving DecidableEq, Repr

/-- Classifies a word. The short form `-j` of the number of threads may be followed by its value
directly. -/
def Word.of (word : List Char) : Word :=
  match word with
  | ['-', '-'] => endOfFlags
  | '-' :: '-' :: long =>
    let (name, value) := match Text.cutFirst '=' long with
      | some (name, value) => (name, some value)
      | none => (long, none)
    match Flag.ofName? name with
    | some f => flag f value
    | none => unknown
  | ['-', 't'] => flag .threads none
  | '-' :: 't' :: '=' :: value => flag .threads (some value)
  | '-' :: 't' :: value => flag .threads (some value)
  | '-' :: _ :: _ => unknown
  | _ => operand

/-- Parses a number of threads: digits with an optional plus sign, below `2 ^ 64`. -/
def readThreads (text : List Char) : Option Nat :=
  let digits := match text with
    | '+' :: digits => digits
    | digits => digits
  (Number.readNat digits).filter (· ≤ 18446744073709551615)

/-- The values collected so far. -/
structure Given where
  input : Option String := none
  report : Option String := none
  failures : Option String := none
  threads : Option Nat := none
  sequential : Bool := false
  deriving DecidableEq, Repr

namespace Given

/-- Sets a value that is not set yet. -/
def once {α : Type} (old new : Option α) : Option α := if old.isSome then none else new

/-- A path, which must not be empty. -/
def path? (text : List Char) : Option String :=
  if text = [] then none else some (String.ofList text)

/-- Sets the input. -/
def takeInput (g : Given) (word : String) : Option Given :=
  (once g.input (path? word.toList)).map fun input => { g with input := some input }

/-- Sets the value of an option. -/
def takeValue (g : Given) (value : List Char) : Flag → Option Given
  | .report => (once g.report (path? value)).map fun path => { g with report := some path }
  | .failures => (once g.failures (path? value)).map fun path => { g with failures := some path }
  | .threads => (once g.threads (readThreads value)).map fun n => { g with threads := some n }
  | .sequential => none

/-- Processes the words of a command line. -/
def takeWords : List String → Given → Option Given
  | [], g => some g
  | word :: rest, g =>
    match Word.of word.toList with
    | .unknown => none
    | .endOfFlags => rest.foldlM takeInput g
    | .operand => (g.takeInput word).bind (takeWords rest)
    | .flag f (some value) => (g.takeValue value f).bind (takeWords rest)
    | .flag .sequential none =>
      if g.sequential then none else takeWords rest { g with sequential := true }
    | .flag f none =>
      match rest with
      | [] => none
      | value :: rest =>
        if Word.of value.toList = .operand then (g.takeValue value.toList f).bind (takeWords rest)
        else none

end Given

/-- Parses a command line; `none` if it is malformed. -/
def Options.ofWords? (words : List String) : Option Options := do
  let g ← Given.takeWords words {}
  let input ← g.input
  return {
    input := input
    report := g.report
    failures := g.failures
    threads := g.threads
    sequential := g.sequential }

end Beatmap.Command
