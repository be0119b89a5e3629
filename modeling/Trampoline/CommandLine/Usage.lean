import Trampoline.CommandLine.Arguments

/-!
# Usage

What the program says about its arguments: help, and what is wrong with them.

Main definitions:

- `helpText`: the help on the program or on a command.
- `UsageFault.message`, `UsageFault.isHelp`: what is said, and whether it was asked for.
-/

namespace Trampoline.CommandLine

/-- Lines as one text. -/
def textOfLines (lines : List String) : String :=
  String.join (lines.map fun line => line ++ "\n")

/-- The help on the program, or on a command. -/
def helpText : Option CommandName → String
  | none => textOfLines [
      "runloop - trampolined effect interpreter",
      "",
      "Usage: runloop [OPTIONS] <COMMAND>",
      "",
      "Commands:",
      "  bench   Time chains of effects through the run-loop",
      "  config  Print the effective configuration as TOML",
      "  help    Print this message or the help of the given subcommand(s)",
      "",
      "Options:",
      "      --config <CONFIG>  Path to config file (overrides default search)",
      "  -h, --help             Print help"]
  | some .bench => textOfLines [
      "Time chains of effects through the run-loop",
      "",
      "Usage: runloop bench [OPTIONS]",
      "",
      "Options:",
      "      --config <CONFIG>          Path to config file (overrides default search)",
      "      --depth <DEPTH>            Steps per chain (default: bench.depth from config)",
      "      --iterations <ITERATIONS>  Runs per benchmark (default: bench.iterations from config)",
      "      --shape <SHAPE>            Chain layout [default: bind] " ++
        "[possible values: bind, left-bind, map, async]",
      "      --context <CONTEXT>        Execution context the chain runs on [default: immediate] " ++
        "[possible values: immediate, thread, tokio]",
      "  -h, --help                     Print help"]
  | some .config => textOfLines [
      "Print the effective configuration as TOML",
      "",
      "Usage: runloop config [OPTIONS]",
      "",
      "Options:",
      "      --config <CONFIG>  Path to config file (overrides default search)",
      "  -h, --help             Print help"]

namespace UsageFault

/-- Whether nothing is wrong but that help is asked for. -/
def isHelp : UsageFault → Bool
  | helpWanted _ => true
  | _ => false

/-- What is said about the arguments. -/
def message : UsageFault → String
  | helpWanted topic => helpText topic
  | noArguments => helpText none
  | unknownArgument => textOfLines ["error: unexpected argument found"]
  | unknownCommand => textOfLines ["error: unrecognized subcommand"]
  | missingCommand => textOfLines ["error: a subcommand is required"]
  | unsuitableValue => textOfLines ["error: an option has no suitable value"]
  | malformedCount => textOfLines ["error: the value of an option is no count"]
  | repeatedOption => textOfLines ["error: an option is given twice"]
  | unwantedValue => textOfLines ["error: a value is given to what takes none"]

/-- The code that the program ends with. -/
def exitCode (fault : UsageFault) : Nat :=
  if fault.isHelp then 0 else 2

end UsageFault

end Trampoline.CommandLine
