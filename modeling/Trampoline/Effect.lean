import Trampoline.CallStack
import Trampoline.Connection
import Trampoline.Context
import Trampoline.Failure

/-!
# Effects

An effect describes a computation without running it.  It is plain data: wherever
a host brings code of its own, the effect holds a name for that code, and what the
code does is said elsewhere (`Trampoline.Program`).  `Closures` collects the types
of these names, one for each use.

Main definitions:

- `Effect`: the nodes of a description.
- `Frame`: what waits for the outcome of the node below it.
- `Effect.flatMap`, `map`, `handleErrorWith`, `redeemWith`, `attempt`, `continueOn`,
  `uncancelable`, ...: the combinators.
-/

namespace Trampoline

/-- The types of the names under which a host knows its own code, one for each use. -/
structure Closures where
  /-- Code that yields the effect to run. -/
  Thunk : Type
  /-- Code that yields an outcome. -/
  Delay : Type
  /-- Code that starts an asynchronous computation. -/
  Registration : Type
  /-- The body of a deferred computation. -/
  Body : Type
  /-- Code that makes an effect of a value. -/
  Bind : Type
  /-- Code that makes a value of a value. -/
  Map : Type
  /-- Code that makes an effect of a failure. -/
  Handler : Type
  /-- Code that makes a value of a failure. -/
  Rescue : Type
  /-- Code that chooses the connection to switch to. -/
  Modify : Type
  /-- Code that chooses the connection to switch back to. -/
  Restore : Type
  /-- Code to run when a connection is canceled. -/
  Token : Type
  /-- Code that receives the outcome of a run. -/
  Terminal : Type
  /-- Code submitted to a context directly. -/
  Task : Type
  /-- Execution contexts of the host. -/
  Executor : Type

/-- The handle by which one suspension of a run is completed: the bridge of the run
and the epoch of the suspension. -/
structure Callback where
  bridge : Nat
  epoch : Nat
deriving DecidableEq, Inhabited

/-- The text that stands for a callback in descriptions. -/
def Callback.describe (cb : Callback) : String :=
  "AsyncCallback \x7b epoch: " ++ toString cb.epoch ++ " \x7d"

/-- What a frame does with a value to get the next effect. -/
inductive Binder (S : Closures) where
  /-- The host's code. -/
  | user (k : S.Bind)
  /-- The value is the result. -/
  | pure
  /-- The value moves to a context, unchanged. -/
  | shift (context : Context S.Executor)

/-- What a frame does with a failure to get the next effect. -/
inductive Recovery (S : Closures) where
  /-- The host's code chooses the effect. -/
  | user (k : S.Handler)
  /-- The host's code chooses the value that replaces the failure. -/
  | rescue (k : S.Rescue)
  /-- The failure becomes a value that describes it. -/
  | reify

/-- How the connection is chosen when a region of it ends. -/
inductive Restorer (S : Closures) where
  /-- The host's code. -/
  | user (k : S.Restore)
  /-- The connection that was active when the region was entered. -/
  | old

/-- How the connection is chosen when a region of it begins. -/
inductive Modifier (S : Closures) where
  /-- The host's code. -/
  | user (k : S.Modify)
  /-- The uncancelable connection. -/
  | uncancelable
  /-- The end of a region: the restorer of the region is asked, with the exit of the
  region and the connection that was active before it. -/
  | restoring (exit : Outcome) (old : Connection) (restore : Restorer S)

/-- The body of a deferred computation. -/
inductive Body (S : Closures) where
  /-- The host's code. -/
  | user (k : S.Body)
  /-- The callback is completed with a value at once. -/
  | succeed (v : Value)

/-- What waits for the outcome of the effect below it. -/
inductive Frame (S : Closures) where
  | bind (f : Binder S)
  | map (f : S.Map)
  | handle (h : Recovery S)
  | fold (onValue : Binder S) (onError : Recovery S)
  | restore (old : Connection) (restore : Restorer S)

namespace Frame

variable {S : Closures}

/-- Whether a frame takes values; handlers alone let values pass. -/
def forwards : Frame S → Bool
  | handle _ => false
  | _ => true

/-- Whether a frame takes failures. -/
def recovers : Frame S → Bool
  | handle _ | fold _ _ | restore _ _ => true
  | bind _ | map _ => false

/-- The name of the kind of a frame. -/
def kind : Frame S → String
  | bind _ => "Bind"
  | map _ => "Map"
  | handle _ => "Handle"
  | fold _ _ => "Fold"
  | restore _ _ => "Restore"

/-- The text that stands for a frame in descriptions. -/
def describe (frame : Frame S) : String :=
  "Continuation::" ++ frame.kind

/-- A frame that takes no failures takes values. -/
theorem forwards_of_recovers_eq_false {frame : Frame S} (h : frame.recovers = false) :
    frame.forwards = true := by
  cases frame <;> simp_all [recovers, forwards]

end Frame

namespace CallStack

variable {S : Closures}

/-- Take the next frame for a value. -/
def popNext (stack : CallStack (Frame S)) : Option (Frame S) × CallStack (Frame S) :=
  stack.takeFirst Frame.forwards

/-- Take the next frame for a failure. -/
def findErrorHandler (stack : CallStack (Frame S)) : Option (Frame S) × CallStack (Frame S) :=
  stack.takeFirst Frame.recovers

end CallStack

/-- The description of a computation. -/
inductive Effect (S : Closures) where
  /-- A value. -/
  | pure (v : Value)
  /-- A failure. -/
  | fail (e : Failure)
  /-- The effect that a thunk yields. -/
  | suspend (k : S.Thunk)
  /-- The outcome that a thunk yields. -/
  | delay (k : S.Delay)
  /-- An asynchronous boundary: the registration is given a callback. -/
  | async (k : S.Registration)
  /-- An asynchronous boundary that goes on with `node` and the pending frames in
  `stack`, on the connection of the run that meets it. -/
  | parked (node : Effect S) (stack : CallStack (Frame S))
  /-- An asynchronous boundary whose body runs on a context. -/
  | deferred (context : Context S.Executor) (body : Body S)
  /-- A source and the frame that waits for its outcome. -/
  | bind (source : Effect S) (frame : Frame S)
  /-- A source and the code applied to its value. -/
  | map (source : Effect S) (f : S.Map)
  /-- A source whose value moves to a context. -/
  | continueOn (context : Context S.Executor) (source : Effect S)
  /-- A source that runs on another connection. -/
  | switchConnection (source : Effect S) (modify : Modifier S) (restore : Option (Restorer S))

namespace Effect

variable {S : Closures}

instance : Inhabited (Effect S) :=
  ⟨pure .null⟩

/-- The effect without result. -/
def unit : Effect S :=
  pure .null

/-- The effect that fails with a raised error. -/
def raise (code message : String) : Effect S :=
  fail (Failure.raise code message)

/-- The effect that is an outcome. -/
def ofOutcome : Outcome → Effect S
  | .ok v => pure v
  | .error e => fail e

/-- Go on with the host's code on a value. -/
def flatMap (e : Effect S) (f : S.Bind) : Effect S :=
  bind e (.bind (.user f))

/-- Go on with the host's code on a failure. -/
def handleErrorWith (e : Effect S) (h : S.Handler) : Effect S :=
  bind e (.handle (.user h))

/-- Replace a failure by the value that the host's code chooses. -/
def handleError (e : Effect S) (h : S.Rescue) : Effect S :=
  bind e (.handle (.rescue h))

/-- Go on with the host's code on a value or on a failure. -/
def redeemWith (e : Effect S) (onError : S.Handler) (onValue : S.Bind) : Effect S :=
  bind e (.fold (.user onValue) (.user onError))

/-- Turn a failure into a value that describes it. -/
def attempt (e : Effect S) : Effect S :=
  bind e (.fold .pure .reify)

/-- Run an effect on the connection that `modify` chooses, and choose the connection
for what follows with `restore`. -/
def switchWith (e : Effect S) (modify : S.Modify) (restore : S.Restore) : Effect S :=
  switchConnection e (.user modify) (some (.user restore))

/-- Run an effect so that cancellation waits until it has ended. -/
def uncancelable (e : Effect S) : Effect S :=
  switchConnection e .uncancelable (some .old)

/-- The source of a node that has one. -/
def source? : Effect S → Option (Effect S)
  | bind source _ | map source _ | continueOn _ source | switchConnection source _ _ => some source
  | _ => none

/-- The name of the kind of a node. -/
def kind : Effect S → String
  | pure _ => "Pure"
  | fail _ => "Fail"
  | suspend _ => "Suspend"
  | delay _ => "Delay"
  | async _ | parked _ _ => "Async"
  | deferred _ _ => "Deferred"
  | bind _ _ => "Bind"
  | map _ _ => "Map"
  | continueOn _ _ => "ContinueOn"
  | switchConnection _ _ _ => "SwitchConnection"

/-- The kinds of a node, of its source, and so on down to a node without source. -/
def kinds : Effect S → List String
  | bind source _ => "Bind" :: source.kinds
  | map source _ => "Map" :: source.kinds
  | continueOn _ source => "ContinueOn" :: source.kinds
  | switchConnection source _ _ => "SwitchConnection" :: source.kinds
  | e => [e.kind]

end Effect

end Trampoline
