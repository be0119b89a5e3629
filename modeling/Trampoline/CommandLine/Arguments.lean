import Trampoline.Benchmark.Params
import Trampoline.Text.Digits

/-!
# Arguments

The arguments of the program: options with values, then a command, then the options of
the command.  An option may come once at each level; the path of the settings file may
be given at either level, and the one after the command counts.

The value of an option is looked at when the next option begins or the level ends, or
at once if it is attached to the option.  So a fault in the shape of the arguments may
be found before a fault in a value that stands further left.

Main definitions:

- `Arguments`: what arguments ask for.
- `UsageFault`: what can be wrong with them.
- `parse`: the reading of arguments.
-/

namespace Trampoline.CommandLine

open Benchmark

/-- An option with a value. -/
inductive Flag where
  | config
  | depth
  | iterations
  | shape
  | context
deriving DecidableEq

/-- The option with a name. -/
def Flag.ofName? (name : String) : Option Flag :=
  match name with
  | "config" => some .config
  | "depth" => some .depth
  | "iterations" => some .iterations
  | "shape" => some .shape
  | "context" => some .context
  | _ => none

/-- A command. -/
inductive CommandName where
  | bench
  | config
deriving DecidableEq

/-- The command with a name. -/
def CommandName.ofName? (name : String) : Option CommandName :=
  match name with
  | "bench" => some .bench
  | "config" => some .config
  | _ => none

/-- What can be wrong with arguments, or keep them from being carried out. -/
inductive UsageFault where
  /-- Help is asked for, on the program or on a command. -/
  | helpWanted (topic : Option CommandName)
  /-- There are no arguments at all. -/
  | noArguments
  | unknownArgument
  | unknownCommand
  | missingCommand
  /-- An option has no value, or none of those it may have. -/
  | unsuitableValue
  /-- The value of an option is no count. -/
  | malformedCount
  /-- An option comes twice. -/
  | repeatedOption
  /-- Something that takes no value has one. -/
  | unwantedValue
deriving DecidableEq

/-- The options that have been given at a level. -/
structure Given where
  config : Option String := none
  depth : Option Nat := none
  iterations : Option Nat := none
  shape : Option Shape := none
  place : Option Place := none

/-- The value of an option that must be a count. -/
def countOf (s : String) : Except UsageFault Nat :=
  match Text.count? s with
  | some n => .ok n
  | none => .error .malformedCount

/-- The value of an option that must be one of some names. -/
def choiceOf {α : Type} (name : α → String) (choices : List α) (s : String) :
    Except UsageFault α :=
  match choices.find? fun choice => name choice = s with
  | some choice => .ok choice
  | none => .error .unsuitableValue

/-- Put a value in an empty place. -/
def fill {α : Type} (place : Option α) (value : Except UsageFault α) :
    Except UsageFault (Option α) :=
  match place with
  | some _ => .error .repeatedOption
  | none => value.map some

/-- Take the value of an option. -/
def Given.take (given : Given) (flag : Flag) (s : String) : Except UsageFault Given := do
  match flag with
  | .config => return { given with config := ← fill given.config (.ok s) }
  | .depth => return { given with depth := ← fill given.depth (countOf s) }
  | .iterations => return { given with iterations := ← fill given.iterations (countOf s) }
  | .shape => return { given with shape := ← fill given.shape (choiceOf Shape.name Shape.all s) }
  | .context => return { given with place := ← fill given.place (choiceOf Place.name Place.all s) }

/-- The state of reading a level. -/
structure Reading where
  given : Given := {}
  /-- An option that has begun, and its value, if that has come. -/
  begun : Option (Flag × Option String) := none

/-- Whether the next argument may be the value of an option. -/
def Reading.awaitsValue (reading : Reading) : Bool :=
  match reading.begun with
  | some (_, none) => true
  | _ => false

/-- Look at the value of the option that has begun. -/
def Reading.settle (reading : Reading) : Except UsageFault Given :=
  match reading.begun with
  | none => .ok reading.given
  | some (_, none) => .error .unsuitableValue
  | some (flag, some s) => reading.given.take flag s

/-- Where arguments are read: before the command, or after it. -/
abbrev Level :=
  Option CommandName

/-- Whether an option may come at a level. -/
def takes (level : Level) (flag : Flag) : Bool :=
  flag = .config || level = some .bench

/-- Read an option, of which the two hyphens are gone. -/
def Reading.readOption (reading : Reading) (level : Level) (body : List Char) :
    Except UsageFault Reading := do
  let name := String.ofList (body.takeWhile (· ≠ '='))
  let attached : Option String := match body.dropWhile (· ≠ '=') with
    | _ :: value => some (String.ofList value)
    | [] => none
  if name = "help" then
    if attached.isSome then .error .unwantedValue
    else do
      let _ ← reading.settle
      .error (.helpWanted level)
  else
    match Flag.ofName? name with
    | none => .error .unknownArgument
    | some flag => do
      if !takes level flag then .error .unknownArgument
      else do
        let given ← reading.settle
        match attached with
        | some s => return { given := ← given.take flag s }
        | none => return { given := given, begun := some (flag, none) }

/-- Read short options, of which the hyphen is gone. -/
def Reading.readShort (reading : Reading) (level : Level) (body : List Char) :
    Except UsageFault Reading := do
  match body.head? with
  | some 'h' => do
    let _ ← reading.settle
    .error (.helpWanted level)
  | _ => .error .unknownArgument

/-- Whether an argument is the name of something that the program does. -/
def isCommand (arg : String) : Bool :=
  (CommandName.ofName? arg).isSome || arg = "help"

/-- What is wrong with an argument that is no option and no value.  After two hyphens a
command is not looked for. -/
def strayFault (level : Level) (afterHyphens : Bool) (arg : String) : UsageFault :=
  match level with
  | none => if afterHyphens && isCommand arg then .unknownArgument else .unknownCommand
  | some _ => .unknownArgument

/-- Read the arguments of a level.  The result has the first argument that is a command
and what follows it, if the level has commands. -/
def readLevel (level : Level) (afterHyphens : Bool) (reading : Reading) :
    List String → Except UsageFault (Reading × Option (String × List String))
  | [] => .ok (reading, none)
  | arg :: rest => do
    if afterHyphens then .error (strayFault level afterHyphens arg)
    else if !reading.awaitsValue && level.isNone && isCommand arg then
      .ok (reading, some (arg, rest))
    else
      match arg.toList with
      | ['-', '-'] => readLevel level true reading rest
      | '-' :: '-' :: body => do
        readLevel level false (← reading.readOption level body) rest
      | '-' :: c :: body => do
        readLevel level false (← reading.readShort level (c :: body)) rest
      | _ =>
        match reading.begun with
        | some (flag, none) =>
          readLevel level false { reading with begun := some (flag, some arg) } rest
        | _ => .error (strayFault level afterHyphens arg)

/-- The benchmark that arguments ask for; what is not given is left to the settings. -/
structure BenchArguments where
  depth : Option Nat
  iterations : Option Nat
  shape : Shape
  place : Place
deriving DecidableEq

/-- What the program is to do. -/
inductive Command where
  /-- Conduct a benchmark. -/
  | bench (args : BenchArguments)
  /-- Print the settings. -/
  | showSettings
deriving DecidableEq

/-- What arguments ask for. -/
structure Arguments where
  /-- The path of the settings file, if it is not the usual one. -/
  config : Option String
  command : Command
deriving DecidableEq

/-- The command with its options. -/
def CommandName.command (name : CommandName) (given : Given) : Command :=
  match name with
  | bench => .bench
      { depth := given.depth
        iterations := given.iterations
        shape := given.shape.getD .bind
        place := given.place.getD .immediate }
  | config => .showSettings

/-- What comes of asking for help by name. -/
def helpFault : List String → UsageFault
  | [] => .helpWanted none
  | [name] =>
    if name = "help" then .helpWanted none
    else
      match CommandName.ofName? name with
      | some name => .helpWanted (some name)
      | none => .unknownCommand
  | _ => .unknownCommand

/-- Read arguments.  The options after the command are looked at before the last one
before it. -/
def parse (args : List String) : Except UsageFault Arguments := do
  let (reading, command) ← readLevel none false {} args
  match command with
  | none => do
    let given ← reading.settle
    if given.config.isSome then .error .missingCommand else .error .noArguments
  | some (arg, rest) =>
    match CommandName.ofName? arg with
    | none => .error (helpFault rest)
    | some name => do
      let (inner, _) ← readLevel (some name) false {} rest
      let own ← inner.settle
      let given ← reading.settle
      return { config := own.config.or given.config, command := name.command own }

end Trampoline.CommandLine
