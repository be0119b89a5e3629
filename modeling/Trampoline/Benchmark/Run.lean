import Trampoline.Benchmark.Params
import Trampoline.Machine

/-!
# Runs of chains

One run of a benchmark chain on the machine: a hop to the place of the benchmark, and
the chain there.

Main definitions:

- `Bind`, `closures`, `program`: the host that chains run for.
- `Params.effect`: the effect that is run.
- `Params.outcome?`: the outcome of a run.
-/

namespace Trampoline.Benchmark

/-- The code behind a step from a value to an effect. -/
inductive Bind where
  /-- The chain begins. -/
  | start (params : Params)
  | link (link : Chain.Link Empty)

/-- The code that a host of chains has: the steps of chains, the count, and the place
where the outcome is put. -/
abbrev closures : Closures where
  Thunk := Empty
  Delay := Empty
  Registration := Empty
  Body := Empty
  Bind := Bind
  Map := Unit
  Handler := Empty
  Rescue := Empty
  Modify := Empty
  Restore := Empty
  Token := Empty
  Terminal := Unit
  Task := Empty
  Executor := Empty

/-- The names of the code of chains. -/
def chainNames : Chain.Names closures where
  link := .link
  increment := ()

/-- The chain of a benchmark. -/
def Params.chain (params : Params) : Effect closures :=
  Chain.build chainNames params.shape params.depth params.place.context

/-- The effect that a run of a benchmark runs. -/
def Params.effect (params : Params) : Effect closures :=
  ((Effect.pure .null).continueOn params.place.context).flatMap (.start params)

/-- What the names of the code stand for.  The state of the host is the outcome, if
there is one. -/
def program : Program closures (Option Outcome) where
  thunk := nofun
  delay := nofun
  registration := nofun
  body := nofun
  bind code v :=
    match code with
    | .start params => .done params.chain
    | .link link => .done (link.apply chainNames v)
  map _ v := .done (Chain.increment v)
  handler := nofun
  rescue := nofun
  modify := nofun
  restore := nofun
  token := nofun
  terminal _ outcome := Code.ask (.modifyHost fun _ => some outcome)
  task := nofun
  executor := nofun
  observe _ host := host

/-- More steps of the machine than any run takes. -/
def stepLimit : Nat :=
  Nat.pow 2 62

/-- The machine before a run. -/
def Params.start (params : Params) : State closures (Option Outcome) :=
  State.start (.initial none "runloop")
    (Code.perform (.run params.effect .uncancelable (.user ())))

/-- The outcome of a run. -/
def Params.outcome? (params : Params) : Option Outcome :=
  (params.start.run program stepLimit).world.host

end Trampoline.Benchmark
