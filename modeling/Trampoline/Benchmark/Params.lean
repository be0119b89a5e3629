import Trampoline.Benchmark.Chain
import Trampoline.Text.Digits

/-!
# Parameters of benchmarks

What is measured, and what keeps it from being measured.

Main definitions:

- `Params`: the parameters of a benchmark.
- `Params.fault?`: the first parameter that is not fit for one.
-/

namespace Trampoline.Benchmark

/-- Where a chain runs. -/
inductive Place where
  /-- On the thread that starts it. -/
  | immediate
  /-- On a thread of its own for each task. -/
  | thread
  /-- On a pool of threads. -/
  | pool
deriving DecidableEq, Inhabited

/-- The name of a place. -/
def Place.name : Place → String
  | immediate => "immediate"
  | thread => "thread"
  | pool => "tokio"

/-- All places. -/
def Place.all : List Place :=
  [immediate, thread, pool]

/-- The context of a place. -/
def Place.context {χ : Type} : Place → Context χ
  | immediate => .immediate
  | thread => .newThread "runloop-bench" true
  | pool => .pool "tokio" "runloop-tokio"

/-- The parameters of a benchmark. -/
structure Params where
  /-- The steps of a chain. -/
  depth : Nat
  /-- The runs of the chain. -/
  iterations : Nat
  shape : Shape
  place : Place
  /-- The threads of the pool, if their number is given. -/
  workerThreads : Option Nat := none
deriving DecidableEq

/-- Why a benchmark comes to no end. -/
inductive Fault where
  | noDepth
  | noIterations
  /-- Each step would resume the chain within the step before. -/
  | nesting
  /-- A run has ended with a failure. -/
  | failed (iteration : Nat) (e : Failure)
  /-- A run has not ended. -/
  | unfinished (iteration : Nat)

/-- The message about a fault. -/
def Fault.message : Fault → String
  | noDepth => "Depth must be at least 1"
  | noIterations => "Must run at least 1 iteration"
  | nesting => "The async shape needs a thread or tokio context; " ++
      "immediate resumptions nest on the caller's stack"
  | failed iteration e =>
    "iteration " ++ Text.countText iteration ++ " failed: Run failed: " ++ e.message
  | unfinished iteration =>
    "iteration " ++ Text.countText iteration ++ " failed: Run did not complete in time"

/-- The first parameter that is not fit for a benchmark. -/
def Params.fault? (params : Params) : Option Fault :=
  if params.depth = 0 then some .noDepth
  else if params.iterations = 0 then some .noIterations
  else if params.shape = .async ∧ params.place = .immediate then some .nesting
  else none

/-- Parameters are fit exactly if there is something to measure and no run nests. -/
theorem Params.fault?_eq_none_iff (params : Params) :
    params.fault? = none ↔
      params.depth ≠ 0 ∧ params.iterations ≠ 0 ∧
        ¬(params.shape = .async ∧ params.place = .immediate) := by
  unfold fault?
  split <;> rename_i hd
  · simp [hd]
  split <;> rename_i hi
  · simp [hi]
  split <;> rename_i hn
  · simp [hn]
  · simp [hd, hi, hn]

end Trampoline.Benchmark
