import Trampoline.Benchmark.Chain
import Trampoline.Panic

/-!
# The language of scenarios

A scenario is a list of actions that build effects, run them, complete callbacks,
cancel connections and look at what happened.  The code inside its effects is
written in the same language, so a scenario is a program for the engine together
with the host code that the program needs.
-/

namespace Trampoline.Scenario

/-- An execution context of a scenario: queues are known by their names. -/
abbrev QueueContext :=
  Context String

/-- An expression for a connection. -/
inductive ConnExpr where
  | uncancelable
  /-- A connection created on the spot. -/
  | fresh
  /-- The connection given to the code. -/
  | active
  /-- The connection from before a region. -/
  | old
  /-- A connection with a name. -/
  | named (name : String)

/-- An expression for a value. -/
inductive ValueExpr where
  | literal (v : Value)
  | var (name : String)
  | list (items : List ValueExpr)
  | object (members : List (String × ValueExpr))
  | add (a b : ValueExpr)
  | mul (a b : ValueExpr)
  /-- A value that has to be a number: any other panics. -/
  | number (x : ValueExpr)
  | typeOf (x : ValueExpr)
  | equal (a b : ValueExpr)
  | describe (x : ValueExpr)
  | threadName
  | errorCode
  | errorMessage
  | errorDescription
  | errorInfo
  | connectionId (c : ConnExpr)
  | isCanceled (c : ConnExpr)
  | isCancelable (c : ConnExpr)
  | sameConnection (c d : ConnExpr)
  | describeConnection (c : ConnExpr)

/-- An expression for a failure. -/
inductive FailureExpr where
  | literal (e : Failure)
  /-- The failure given to the code. -/
  | current
  /-- The failure that a value describes. -/
  | ofValue (x : ValueExpr)

/-- An expression for an outcome. -/
inductive OutcomeExpr where
  | value (x : ValueExpr)
  | failure (e : FailureExpr)
  /-- A value that has to be a number: any other is a failure. -/
  | number (x : ValueExpr)

/-- An expression for a callback. -/
inductive CallbackExpr where
  /-- The callback given to the code. -/
  | current
  /-- A saved callback. -/
  | saved (name : String)

/-- The rules about panics that a scenario can install. -/
inductive ClassifierName where
  | standard
  | allFatal
  | noneFatal
  /-- The standard rule, and messages that begin with `FATAL` are fatal too. -/
  | byMessage

mutual

/-- An expression for an effect. -/
inductive EffectExpr where
  | pure (x : ValueExpr)
  | fail (e : FailureExpr)
  | suspend (actions : List Action) (result : EffectExpr)
  | delay (actions : List Action) (result : OutcomeExpr)
  | async (actions : List Action)
  | deferred (context : QueueContext) (actions : List Action)
  | chain (source : EffectExpr) (links : List Link)
  /-- The effect for each count below `times`, one after the other. -/
  | loop (times : Nat) (counter : String) (body : EffectExpr)
  /-- So many suspensions around an effect. -/
  | nest (times : Nat) (inner : EffectExpr)
  | benchmark (shape : Benchmark.Shape) (depth : Nat) (context : QueueContext)
  /-- A saved effect, which is used up. -/
  | take (name : String)
  /-- What partial evaluation leaves of an effect. -/
  | partially (e : EffectExpr)

/-- What is put around an effect. -/
inductive Link where
  | bind (binder : String) (actions : List Action) (result : EffectExpr)
  | map (binder : String) (actions : List Action) (result : ValueExpr)
  | handle (actions : List Action) (result : EffectExpr)
  | rescue (actions : List Action) (result : ValueExpr)
  | redeem (onError : List Action) (errorResult : EffectExpr) (binder : String)
      (onValue : List Action) (valueResult : EffectExpr)
  | attempt
  | continueOn (context : QueueContext)
  | uncancelable
  | switch (onModify : List Action) (new : ConnExpr) (onRestore : List Action) (back : ConnExpr)
  | switchOnly (onModify : List Action) (new : ConnExpr)
  | frame (frame : FrameExpr)
  | repeat (times : Nat) (links : List Link)

/-- An expression for a frame. -/
inductive FrameExpr where
  | bind (binder : String) (actions : List Action) (result : EffectExpr)
  | map (binder : String) (actions : List Action) (result : ValueExpr)
  | handle (actions : List Action) (result : EffectExpr)
  | redeem (onError : List Action) (errorResult : EffectExpr) (binder : String)
      (onValue : List Action) (valueResult : EffectExpr)
  | restore (before : ConnExpr) (actions : List Action) (back : ConnExpr)

/-- Something that a scenario does. -/
inductive Action where
  | log (x : ValueExpr)
  | panic (payload : Payload)
  | panicInfo (payload : Payload)
  | classify (rule : ClassifierName)
  | nameConnection (name : String) (c : ConnExpr)
  | cancel (c : ConnExpr)
  | pushToken (c : ConnExpr) (actions : List Action)
  | popToken (c : ConnExpr) (runIt : Bool)
  | connectionState (c : ConnExpr)
  | saveCallback (name : String)
  | dropCallback (name : String)
  | complete (cb : CallbackExpr) (outcome : OutcomeExpr)
  | runInto (cb : CallbackExpr) (c : ConnExpr) (e : EffectExpr)
  | callbackInfo (cb : CallbackExpr)
  | saveEffect (name : String) (e : EffectExpr)
  | dropEffect (name : String)
  | partially (name : String) (e : EffectExpr)
  | kinds (e : EffectExpr)
  | run (label : String) (c : Option ConnExpr) (e : EffectExpr) (actions : List Action)
  | runTasks (queue : String) (count : Nat)
  | dropTasks (queue : String)
  | contextInfo (context : QueueContext)
  | execute (context : QueueContext) (actions : List Action)
  | failureInfo (e : FailureExpr)
  | failureEqual (a b : FailureExpr)

end

/-- Something that is done with a call stack on its own. -/
inductive StackAction where
  | push (frame : FrameExpr)
  | reset
  | act (action : Action)
  /-- Give a value to the next frame for a value. -/
  | popApply (x : ValueExpr) (name : Option String)
  /-- Give a failure to the next frame for a value. -/
  | popRecover (e : FailureExpr) (name : Option String)
  /-- Give a failure to the next frame for a failure. -/
  | findRecover (e : FailureExpr) (name : Option String)
  /-- Give a value to the next frame for a failure. -/
  | findApply (x : ValueExpr) (name : Option String)

end Trampoline.Scenario
