import Trampoline.Code

/-!
# Benchmark chains

Chains of a given depth that count their steps, in four shapes.  The chains are made
for any host: `Chain.Names` says under which names the host knows the code of their
links.

Main definitions:

- `Shape`: the four shapes.
- `Chain.build`: the chain of a shape, a depth and a context.
- `Chain.Link.apply`: the code of a link.
-/

namespace Trampoline.Benchmark

/-- The shape of a chain. -/
inductive Shape where
  /-- Each step builds the next one. -/
  | bind
  /-- All steps are built up front, each around the one before it. -/
  | leftBind
  /-- As `leftBind`, with plain functions. -/
  | map
  /-- As `bind`, with a hop to the context at each step. -/
  | async
deriving DecidableEq, Inhabited

/-- The name of a shape. -/
def Shape.name : Shape → String
  | bind => "bind"
  | leftBind => "left-bind"
  | map => "map"
  | async => "async"

/-- All shapes. -/
def Shape.all : List Shape :=
  [bind, leftBind, map, async]

namespace Chain

/-- What a link of a chain does with the value before it. -/
inductive Link (χ : Type) where
  /-- Go on with the lazy chain at step `i` of `depth`. -/
  | count (i depth : Nat)
  /-- Add one to a number. -/
  | addOne
  /-- Go on with the hopping chain at step `i` of `depth`. -/
  | hop (context : Context χ) (i depth : Nat)

/-- The names under which a host knows the code of a chain. -/
structure Names (S : Closures) where
  link : Link S.Executor → S.Bind
  increment : S.Map

variable {S : Closures}

/-- A count as a value. -/
def counter (i : Nat) : Value :=
  .number (Float.ofNat i)

/-- The lazy chain from step `i` on. -/
def countFrom (names : Names S) (i depth : Nat) : Effect S :=
  if depth ≤ i then .pure (counter i)
  else Effect.flatMap (.pure (counter i)) (names.link (.count (i + 1) depth))

/-- The hopping chain from step `i` on. -/
def hopFrom (names : Names S) (context : Context S.Executor) (i depth : Nat) : Effect S :=
  if depth ≤ i then .pure (counter i)
  else Effect.flatMap (.deferred context (.succeed (counter i))) (names.link (.hop context (i + 1) depth))

/-- So many links around an effect. -/
def wrap (link : Effect S → Effect S) : Nat → Effect S → Effect S
  | 0, e => e
  | n + 1, e => wrap link n (link e)

/-- The chain of a shape, a depth and a context. -/
def build (names : Names S) (shape : Shape) (depth : Nat) (context : Context S.Executor) :
    Effect S :=
  match shape with
  | .bind => countFrom names 0 depth
  | .leftBind => wrap (fun e => e.flatMap (names.link .addOne)) depth (.pure (.number 0.0))
  | .map => wrap (fun e => .map e names.increment) depth (.pure (.number 0.0))
  | .async => hopFrom names context 0 depth

/-- The code of a link. -/
def Link.apply (names : Names S) (link : Link S.Executor) (v : Value) : Effect S :=
  match link with
  | .count i depth => countFrom names i depth
  | .hop context i depth => hopFrom names context i depth
  | .addOne =>
    match v.expectNumber with
    | .ok n => .pure (.number (n + 1.0))
    | .error e => .fail e

/-- The code of the plain function of a chain.  What is no number counts as zero. -/
def increment (v : Value) : Value :=
  .number (v.asNumber?.getD 0.0 + 1.0)

end Chain

end Trampoline.Benchmark
