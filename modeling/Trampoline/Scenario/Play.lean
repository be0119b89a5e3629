import Trampoline.Machine
import Trampoline.Scenario.Evaluation

/-!
# Playing scenarios

A scenario is played on the machine step by step.  A panic that leaves a step is
noted, and the next step is played.
-/

namespace Trampoline.Scenario

open Association

/-- The thread on which scenarios are played. -/
def threadName : String :=
  "driver"

/-- More steps of the machine than any scenario takes. -/
def stepLimit : Nat :=
  Nat.pow 2 62

/-- Run code of a scenario to its end.  A panic that leaves it is noted. -/
def play (w : World closures Session) (code : Script Unit) : World closures Session :=
  match (State.start w code).run program stepLimit with
  | .unwound w payload =>
    { w with host := w.host.note (.panic payload.describe payload.isFatal) }
  | s => s.world

/-- Take the noted events out of a world, the oldest first. -/
def collect (w : World closures Session) : World closures Session × List Event :=
  ({ w with host := { w.host with events := [] } }, w.host.events.reverse)

/-- Play pieces of code one after the other and give the events of each. -/
def playAll (w : World closures Session) : List (Script Unit) → List (List Event)
  | [] => []
  | code :: rest =>
    let (w, events) := collect (play w code)
    events :: playAll w rest

/-- Play a scenario and give the events of each action. -/
def playActions (tracing : Bool) (actions : List Action) : List (List Event) :=
  playAll (.initial (.initial tracing) threadName) (actions.map (Action.perform .empty))

/-! ## Call stacks on their own -/

/-- Give the frame that a search finds to `use`, note what comes of it, and save it. -/
def withFrame
    (search : CallStack (Frame closures) → Option (Frame closures) × CallStack (Frame closures))
    (name : Option String) (use : Frame closures → Script (Effect closures)) : Script Unit := do
  let (found, stack) := search (← session).stack
  change fun s => { s with stack := stack }
  match found with
  | none => note .noFrame
  | some frame => do
    note (.frame frame.describe)
    let e ← use frame
    note (.next e.describe)
    match name with
    | some name => change fun s => { s with effects := put name e s.effects }
    | none => pure ()

/-- Do an action with the call stack of the session. -/
def StackAction.play (scope : Scope) : StackAction → Script Unit
  | push frame => do
    let frame ← frame.build scope
    change fun s => { s with stack := s.stack.push frame }
    note (.pushed frame.describe frame.forwards frame.recovers)
  | reset => change fun s => { s with stack := .empty }
  | act action => action.perform scope
  | popApply x name => withFrame CallStack.popNext name fun frame => do
    program.apply frame (← x.eval scope)
  | popRecover e name => withFrame CallStack.popNext name fun frame => do
    program.recover frame (← e.eval scope)
  | findRecover e name => withFrame CallStack.findErrorHandler name fun frame => do
    program.recover frame (← e.eval scope)
  | findApply x name => withFrame CallStack.findErrorHandler name fun frame => do
    program.apply frame (← x.eval scope)

/-- Note what the call stack of the session holds. -/
def noteStack : Script Unit := do
  let stack := (← session).stack
  note (.stack stack.length stack.isEmpty stack.describe)

/-- Play actions with a call stack and give the events of each; the last event of each
shows the stack. -/
def playStack (w : World closures Session) : List StackAction → List (List Event)
  | [] => []
  | action :: rest =>
    let (w, events) := collect (play (play w (action.play .empty)) noteStack)
    events :: playStack w rest

/-- Play actions with a call stack, from an empty one. -/
def playStackActions (tracing : Bool) (actions : List StackAction) : List (List Event) :=
  playStack (.initial (.initial tracing) threadName) actions

end Trampoline.Scenario
