import Trampoline.Benchmark.Run
import Trampoline.Decimal.Fixed
import Trampoline.Value.Codec

/-!
# Conducting benchmarks

A benchmark is conducted at a console, which has a clock and takes what is written: the
parameters, a line for each run, and the summary of all runs.

Main definitions:

- `Sample`: the time and the result of a run.
- `Console`: a clock and a place to write to.
- `conduct`: the whole benchmark.
-/

namespace Trampoline.Benchmark

/-- What has been measured of a run. -/
structure Sample where
  /-- The time that the run took, in nanoseconds. -/
  elapsed : Nat
  result : Value

/-- Where a benchmark is conducted. -/
structure Console (m : Type → Type) where
  /-- The time now, in nanoseconds. -/
  now : m Nat
  /-- Write a text. -/
  write : String → m Unit

/-! ## Texts -/

/-- A line. -/
def line (parts : List String) : String :=
  String.join parts ++ "\n"

/-- A text with blanks in front up to a width. -/
def alignRight (width : Nat) (cs : List Char) : String :=
  String.ofList (List.replicate (width - cs.length) ' ' ++ cs)

/-- A text with blanks behind up to a width. -/
def alignLeft (width : Nat) (cs : List Char) : String :=
  String.ofList (cs ++ List.replicate (width - cs.length) ' ')

/-- A time in milliseconds. -/
def milliseconds (elapsed : Nat) : List Char :=
  Decimal.fixed 2 elapsed 1000000

/-- A time in nanoseconds for each of so many steps. -/
def perStep (elapsed depth : Nat) : List Char :=
  Decimal.fixed 1 elapsed depth

/-- The line between parts. -/
def rule : String :=
  String.ofList (List.replicate 40 '━')

/-- What is written before anything is done. -/
def greeting : String :=
  line ["🚀 Starting runloop benchmark"] ++ line [rule]

/-- The parameters. -/
def Params.report (params : Params) : String :=
  line ["\n📋 Configuration:"] ++
  line ["   Shape: ", params.shape.name] ++
  line ["   Context: ", params.place.name] ++
  line ["   Depth: ", Text.countText params.depth] ++
  line ["   Iterations: ", Text.countText params.iterations] ++
  match params.workerThreads with
  | some n => line ["   Worker Threads: ", Text.countText n]
  | none => ""

/-- The line of a run. -/
def Sample.report (sample : Sample) (depth iteration : Nat) : String :=
  line ["   #", alignLeft 3 (Text.digitsOf iteration), " ",
    alignRight 10 (milliseconds sample.elapsed), " ms  ",
    alignRight 8 (perStep sample.elapsed depth), " ns/step"]

/-- A time in the summary, also for each step. -/
def summaryLine (label : String) (elapsed depth : Nat) : String :=
  line [label, String.ofList (milliseconds elapsed), " ms (",
    String.ofList (perStep elapsed depth), " ns/step)"]

/-- The summary of all runs.  The mean is rounded down. -/
def summary (params : Params) (samples : List Sample) : String :=
  let times := samples.map Sample.elapsed
  let total := times.foldl (· + ·) 0
  let mean := total / samples.length
  let best := times.min?.getD 0
  line ["\n", rule] ++ line ["📊 Results"] ++ line [rule] ++
  line ["   Total:     ", String.ofList (milliseconds total), " ms"] ++
  summaryLine "   Mean:      " mean params.depth ++
  summaryLine "   Best:      " best params.depth ++
  match samples.getLast? with
  | some last => line ["   Result:    ", last.result.encode]
  | none => ""

/-! ## Conducting -/

variable {m : Type → Type} [Monad m]

/-- Measure a run. -/
def measure (console : Console m) (params : Params) (iteration : Nat) :
    m (Except Fault Sample) := do
  let started ← console.now
  match params.outcome? with
  | some (.ok result) => do
    let ended ← console.now
    return .ok ⟨ended - started, result⟩
  | some (.error e) => return .error (.failed iteration e)
  | none => return .error (.unfinished iteration)

/-- Measure so many runs, of which the first has this number, and write a line for
each. -/
def measureAll (console : Console m) (params : Params) :
    Nat → Nat → m (Except Fault (List Sample))
  | 0, _ => return .ok []
  | count + 1, iteration => do
    match ← measure console params iteration with
    | .error fault => return .error fault
    | .ok sample => do
      console.write (sample.report params.depth iteration)
      match ← measureAll console params count (iteration + 1) with
      | .error fault => return .error fault
      | .ok samples => return .ok (sample :: samples)

/-- Conduct a benchmark.  Nothing is run if a parameter is not fit for it. -/
def conduct (console : Console m) (params : Params) : m (Except Fault Unit) := do
  console.write greeting
  match params.fault? with
  | some fault => return .error fault
  | none => do
    console.write params.report
    console.write (line ["\n⏱  Running..."])
    match ← measureAll console params params.iterations 1 with
    | .error fault => return .error fault
    | .ok samples => do
      console.write (summary params samples)
      return .ok ()

end Trampoline.Benchmark
