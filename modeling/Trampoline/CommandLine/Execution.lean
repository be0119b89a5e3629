import Trampoline.Benchmark.Report
import Trampoline.CommandLine.Plan
import Trampoline.CommandLine.Usage

/-!
# Carrying plans out

The program carries its plan out with a console and a stream of errors to write to.
It ends with a code: zero if all went well, two if the arguments were wrong, one if
something else was.

Main definitions:

- `Streams`: a console with a second stream.
- `Plan.carryOut`: the writing that a plan asks for, and the code at the end.
-/

namespace Trampoline.CommandLine

/-- Where the program writes. -/
structure Streams (m : Type → Type) where
  console : Benchmark.Console m
  /-- Write a text to the stream of errors. -/
  writeError : String → m Unit

variable {m : Type → Type} [Monad m]

/-- Stop with a message. -/
def Streams.stop (streams : Streams m) (message : String) : m Nat := do
  streams.writeError ("Error: " ++ message ++ "\n")
  return 1

/-- Carry a plan out. -/
def Plan.carryOut (streams : Streams m) : Plan → m Nat
  | usage fault => do
    if fault.isHelp then streams.console.write fault.message
    else streams.writeError fault.message
    return fault.exitCode
  | stop message => streams.stop message
  | print text => do
    streams.console.write text
    return 0
  | conduct params => do
    match ← Benchmark.conduct streams.console params with
    | .ok () => return 0
    | .error fault => streams.stop fault.message
  | complain message next => do
    streams.writeError (message ++ "\n")
    next.carryOut streams

end Trampoline.CommandLine
