import Trampoline.Effect
import Trampoline.Panic
import Trampoline.Trace

/-!
# Code of the host

What a piece of host code does, as a tree of the requests that it makes of the
engine.  A request is a query, answered on the spot, or a command, which may run
other code before the piece goes on.  A piece ends with a result or with a panic.

Main definitions:

- `Query`, `Command`: the requests.
- `Code`: the trees, a monad.
- `Program`: what each name of a host's code stands for.
-/

namespace Trampoline

/-- Where the outcome of a run goes. -/
inductive Terminal (S : Closures) where
  /-- To the host's code. -/
  | user (k : S.Terminal)
  /-- To a callback of another run. -/
  | complete (cb : Callback)

/-- What is submitted to a context. -/
inductive Task (S : Closures) where
  /-- The body of a deferred computation, with the callback that it is to complete. -/
  | body (cb : Callback) (body : Body S)
  /-- The host's code. -/
  | user (k : S.Task)

/-- A request that is answered on the spot. -/
inductive Query (S : Closures) (σ : Type) where
  /-- The state of the host. -/
  | host
  /-- Change the state of the host. -/
  | modifyHost (f : σ → σ)
  /-- The name of the current thread. -/
  | threadName
  /-- A new cancelable connection. -/
  | newConnection
  /-- Whether a connection has been canceled. -/
  | isCanceled (c : Connection)
  /-- The newest token of a connection, which is taken back. -/
  | pop (c : Connection)
  /-- The connection that a suspended run will resume under. -/
  | connectionOf (cb : Callback)
  /-- Whether a run survives a panic with this payload. -/
  | isNonFatal (payload : Payload)
  /-- Install another rule about panics. -/
  | setClassifier (f : Classifier)

/-- The type of the answer to a query. -/
abbrev Query.Answer {S : Closures} {σ : Type} : Query S σ → Type
  | host => σ
  | modifyHost _ => Unit
  | threadName => String
  | newConnection => Connection
  | isCanceled _ => Bool
  | pop _ => Option S.Token
  | connectionOf _ => Connection
  | isNonFatal _ => Bool
  | setClassifier _ => Unit

/-- A request that may run other code before it returns. -/
inductive Command (S : Closures) where
  /-- Cancel a connection and run its tokens. -/
  | cancel (c : Connection)
  /-- Register a token, or run it at once on a canceled connection. -/
  | push (c : Connection) (token : S.Token)
  /-- Complete a callback. -/
  | complete (cb : Callback) (outcome : Outcome)
  /-- Run an effect. -/
  | run (e : Effect S) (c : Connection) (terminal : Terminal S)
  /-- Submit a task to a context. -/
  | submit (context : Context S.Executor) (task : Task S)
  /-- Run a token. -/
  | runToken (token : S.Token)
  /-- Run a task. -/
  | runTask (task : Task S)

/-- What a piece of host code does until it ends with a result of type `α`. -/
inductive Code (S : Closures) (σ α : Type) where
  /-- The result. -/
  | done (a : α)
  /-- A panic. -/
  | panic (payload : Payload)
  /-- A query, and what is done with the answer. -/
  | query (q : Query S σ) (next : q.Answer → Code S σ α)
  /-- A command, and what is done when it has returned. -/
  | command (c : Command S) (next : Unit → Code S σ α)
  /-- Partial evaluation of an effect, and what is done with what is left of it. -/
  | step (e : Effect S) (next : Effect S → Code S σ α)

namespace Code

variable {S : Closures} {σ α β : Type}

/-- Go on with the result of a piece of code. -/
def bind : Code S σ α → (α → Code S σ β) → Code S σ β
  | done a, f => f a
  | panic payload, _ => panic payload
  | query q next, f => query q fun answer => (next answer).bind f
  | command c next, f => command c fun u => (next u).bind f
  | step e next, f => step e fun residual => (next residual).bind f

/-- Code is sequenced as it is written. -/
instance : Monad (Code S σ) where
  pure := done
  bind := bind

/-- Ask a query. -/
def ask (q : Query S σ) : Code S σ q.Answer :=
  query q done

/-- Give a command. -/
def perform (c : Command S) : Code S σ Unit :=
  command c done

/-- Evaluate an effect as far as possible without suspending. -/
def partially (e : Effect S) : Code S σ (Effect S) :=
  step e done

@[simp]
theorem done_bind (a : α) (f : α → Code S σ β) : (done a).bind f = f a :=
  rfl

/-- Nothing comes after a panic. -/
@[simp]
theorem panic_bind (payload : Payload) (f : α → Code S σ β) :
    (panic payload : Code S σ α).bind f = panic payload :=
  rfl

/-- Code that only passes its result on does nothing of its own. -/
@[simp]
theorem bind_done (c : Code S σ α) : c.bind done = c := by
  induction c with
  | done a => rfl
  | panic payload => rfl
  | query q next ih => simp [bind, ih]
  | command c next ih => simp [bind, ih]
  | step e next ih => simp [bind, ih]

end Code

/-- What the names of a host's code stand for. -/
structure Program (S : Closures) (σ : Type) where
  thunk : S.Thunk → Code S σ (Effect S)
  delay : S.Delay → Code S σ Outcome
  registration : S.Registration → Connection → Callback → Code S σ Unit
  body : S.Body → Callback → Code S σ Unit
  bind : S.Bind → Value → Code S σ (Effect S)
  map : S.Map → Value → Code S σ Value
  handler : S.Handler → Failure → Code S σ (Effect S)
  rescue : S.Rescue → Failure → Code S σ Value
  modify : S.Modify → Connection → Code S σ Connection
  /-- The exit of the region, the connection from before it, and the active one. -/
  restore : S.Restore → Outcome → Connection → Connection → Code S σ Connection
  token : S.Token → Code S σ Unit
  terminal : S.Terminal → Outcome → Code S σ Unit
  task : S.Task → Code S σ Unit
  executor : S.Executor → Task S → Code S σ Unit
  /-- What the host notes about a trace event. -/
  observe : TraceEvent → σ → σ

namespace Program

variable {S : Closures} {σ : Type}

/-- The code of a binder on a value. -/
def bindWith (P : Program S σ) (f : Binder S) (v : Value) : Code S σ (Effect S) :=
  match f with
  | .user k => P.bind k v
  | .pure => .done (.pure v)
  | .shift context => .done (.deferred context (.succeed v))

/-- The code of a recovery on a failure. -/
def recoverWith (P : Program S σ) (h : Recovery S) (e : Failure) : Code S σ (Effect S) :=
  match h with
  | .user k => P.handler k e
  | .rescue k => (P.rescue k e).bind fun v => .done (.pure v)
  | .reify => .done (.pure (.error e.toInfo))

/-- The code of a restorer. -/
def restoreWith (P : Program S σ) (r : Restorer S) (exit : Outcome) (old current : Connection) :
    Code S σ Connection :=
  match r with
  | .user k => P.restore k exit old current
  | .old => .done old

/-- The code of a modifier on the active connection. -/
def modifyWith (P : Program S σ) (m : Modifier S) (current : Connection) :
    Code S σ Connection :=
  match m with
  | .user k => P.modify k current
  | .uncancelable => .done .uncancelable
  | .restoring exit old r => P.restoreWith r exit old current

/-- The code of the body of a deferred computation. -/
def bodyWith (P : Program S σ) (b : Body S) (cb : Callback) : Code S σ Unit :=
  match b with
  | .user k => P.body k cb
  | .succeed v => .perform (.complete cb (.ok v))

/-- The code of a frame on a value.  A handler passes the value on; the end of a
region passes it on under the connection that the region's restorer chooses. -/
def apply (P : Program S σ) (frame : Frame S) (v : Value) : Code S σ (Effect S) :=
  match frame with
  | .bind f => P.bindWith f v
  | .map f => (P.map f v).bind fun w => .done (.pure w)
  | .handle _ => .done (.pure v)
  | .fold onValue _ => P.bindWith onValue v
  | .restore old r => .done (.switchConnection (.pure v) (.restoring (.ok v) old r) none)

/-- The code of a frame on a failure.  A frame that recovers from nothing passes the
failure on, and so does the end of a region, under the connection that the region's
restorer chooses. -/
def recover (P : Program S σ) (frame : Frame S) (e : Failure) : Code S σ (Effect S) :=
  match frame with
  | .handle h => P.recoverWith h e
  | .fold _ onError => P.recoverWith onError e
  | .restore old r => .done (.switchConnection (.fail e) (.restoring (.error e) old r) none)
  | .bind _ | .map _ => .done (.fail e)

end Program

end Trampoline
