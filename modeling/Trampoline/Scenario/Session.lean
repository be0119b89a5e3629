import Trampoline.Association
import Trampoline.Code
import Trampoline.Queue
import Trampoline.Scenario.Language

/-!
# Sessions

What a scenario is played in: the scope of each expression, the code that effects of
a scenario name, the state of the session, and the events that it notes.
-/

namespace Trampoline.Scenario

open Association

/-- What the names of an expression stand for. -/
structure Scope where
  bindings : List (String × Value)
  connection : Connection
  old : Connection
  callback : Option Callback
  error : Option Failure

namespace Scope

/-- The scope in which no name stands for anything. -/
def empty : Scope where
  bindings := []
  connection := .uncancelable
  old := .uncancelable
  callback := none
  error := none

/-- The scope with one more variable, which hides an equal name. -/
def bind (scope : Scope) (name : String) (v : Value) : Scope :=
  { scope with bindings := (name, v) :: scope.bindings }

/-- The scope with a current failure. -/
def withError (scope : Scope) (e : Failure) : Scope :=
  { scope with error := some e }

/-- The value of a variable, null if it is unbound. -/
def valueOf (scope : Scope) (name : String) : Value :=
  (scope.bindings.lookup name).getD .null

@[simp]
theorem valueOf_bind_self (scope : Scope) (name : String) (v : Value) :
    (scope.bind name v).valueOf name = v := by
  simp [valueOf, bind]

end Scope

/-- Actions with the scope that they were written in, and what follows them. -/
structure Captured (α : Type) where
  scope : Scope
  actions : List Action
  result : α

/-- Actions with the scope that they were written in. -/
abbrev Procedure :=
  Captured Unit

/-- A captured expression under a binder. -/
structure Bound (α : Type) where
  binder : String
  body : Captured α

/-- The code behind a suspension. -/
inductive Thunk where
  | body (code : Captured EffectExpr)
  | nest (scope : Scope) (times : Nat) (inner : EffectExpr)

/-- The code behind a step from a value to an effect. -/
inductive Bind where
  | body (code : Bound EffectExpr)
  /-- The loop goes on with this count. -/
  | loop (scope : Scope) (times : Nat) (counter : String) (body : EffectExpr) (next : Nat)
  | link (link : Benchmark.Chain.Link String)

/-- The code behind a step from a value to a value. -/
inductive Map where
  | body (code : Bound ValueExpr)
  | increment

/-- The code that receives the outcome of a run. -/
structure Receiver where
  label : String
  after : Procedure

/-- The names of the code of scenarios: each piece of code is its own name. -/
abbrev closures : Closures where
  Thunk := Thunk
  Delay := Captured OutcomeExpr
  Registration := Procedure
  Body := Procedure
  Bind := Bind
  Map := Map
  Handler := Captured EffectExpr
  Rescue := Captured ValueExpr
  Modify := Captured ConnExpr
  Restore := Captured ConnExpr
  Token := Procedure
  Terminal := Receiver
  Task := Procedure
  Executor := String

/-- Something that a session notes. -/
inductive Event where
  | log (v : Value)
  | panic (message : String) (isFatal : Bool)
  | panicInfo (isNonFatal : Bool) (message : String)
  | popped (found : Bool)
  | connectionState (id : Nat) (isCancelable isCanceled : Bool)
  | noCallback (cb : CallbackExpr)
  | callback (description : String) (connection : Nat)
  | residual (kind description : String)
  | kinds (description : String) (kinds : List String)
  | done (label : String) (outcome : Outcome)
  | task (found : Bool)
  | dropped (count : Nat)
  | context (name description : String)
  | failure (e : Failure)
  | failureEqual (equal : Bool)
  | trace (event : TraceEvent)
  | pushed (description : String) (forwards recovers : Bool)
  | noFrame
  | frame (description : String)
  | next (description : String)
  | stack (length : Nat) (isEmpty : Bool) (description : String)

/-- The state of a session. -/
structure Session where
  connections : List (String × Connection)
  callbacks : List (String × Callback)
  effects : List (String × Effect closures)
  /-- The tasks that wait in each queue. -/
  queues : List (String × Queue (Task closures))
  stack : CallStack (Frame closures)
  /-- Whether trace events are noted. -/
  tracing : Bool
  /-- What has been noted, the latest first. -/
  events : List Event

namespace Session

/-- A session in which nothing has happened. -/
def initial (tracing : Bool) : Session where
  connections := []
  callbacks := []
  effects := []
  queues := []
  stack := .empty
  tracing := tracing
  events := []

/-- Note an event. -/
def note (s : Session) (event : Event) : Session :=
  { s with events := event :: s.events }

/-- Note a trace event, if they are wanted. -/
def observe (event : TraceEvent) (s : Session) : Session :=
  if s.tracing then s.note (.trace event) else s

/-- The tasks that wait in a queue. -/
def tasksIn (s : Session) (queue : String) : Queue (Task closures) :=
  (s.queues.lookup queue).getD .empty

/-- The session with other tasks waiting in a queue. -/
def setTasks (s : Session) (queue : String) (tasks : Queue (Task closures)) : Session :=
  { s with queues := put queue tasks s.queues }

end Session

/-- Code of a scenario that ends with a result of type `α`. -/
abbrev Script (α : Type) :=
  Code closures Session α

end Trampoline.Scenario
