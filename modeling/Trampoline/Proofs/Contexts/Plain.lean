import Trampoline.Machine

/-!
# Plain effects

An effect is plain if all that it gives to contexts is to run at once, on the thread that gives it.
Any effect becomes plain when its contexts are replaced.  Where a task would have run on a thread
of its own, or on a worker of a pool, or where the thread could not be spawned, it then runs at
once; a context that the host brings itself is left alone, and so is a thread whose name no thread
may have.

Two effects differ only in the contexts of their nodes if they become the same plain effect.

Main definitions and results:

- Definitions `Context.plain`, `Frame.plain`, `Effect.plain`: contexts, frames and effects with
  plain contexts.
- Definitions `CallStack.plain`, `Loop.plain`, `Bridge.plain`: the same for what a run keeps.
- Theorems `CallStack.takeFirst_plain`, `State.residual_plain`: plain frames are found where their
  originals are, and partial evaluation leaves the same of a node.
-/

namespace Trampoline

variable {S : Closures}

/-- A task of this context runs at once, where tasks run to their end at all. -/
def Context.plain {χ : Type} : Context χ → Context χ
  | immediate => immediate
  | newThread name spawns =>
    match threadNameFault? name with
    | none => immediate
    | some _ => newThread name spawns
  | pool _ _ => immediate
  | hosted name executor => hosted name executor

/-- A binder with a plain context. -/
def Binder.plain : Binder S → Binder S
  | user k => user k
  | pure => pure
  | shift context => shift context.plain

/-- A frame with plain contexts. -/
def Frame.plain : Frame S → Frame S
  | bind f => bind f.plain
  | map f => map f
  | handle h => handle h
  | fold f h => fold f.plain h
  | restore old r => restore old r

/-- A stack of frames with plain contexts. -/
def CallStack.plain (stack : CallStack (Frame S)) : CallStack (Frame S) where
  first := stack.first.map Frame.plain
  rest := stack.rest.map Frame.plain
  below := stack.below
  below_eq := by simp [stack.below_eq]

/-- An effect with plain contexts. -/
def Effect.plain : Effect S → Effect S
  | pure v => pure v
  | fail e => fail e
  | suspend k => suspend k
  | delay k => delay k
  | async k => async k
  | parked node stack => parked node.plain stack.plain
  | deferred context body => deferred context.plain body
  | bind source frame => bind source.plain frame.plain
  | map source f => map source.plain f
  | continueOn context source => continueOn context.plain source.plain
  | switchConnection source modify restore => switchConnection source.plain modify restore

/-- A loop with plain frames. -/
def Loop.plain (run : Loop S) : Loop S :=
  { run with stack := run.stack.plain }

/-- A bridge with plain frames. -/
def Bridge.plain (b : Bridge S) : Bridge S :=
  { b with stack := b.stack.plain }

/-! ## Frames -/

namespace Frame

/-- A frame takes values whatever its contexts are. -/
@[simp]
theorem forwards_plain (frame : Frame S) : frame.plain.forwards = frame.forwards := by
  cases frame <;> rfl

/-- A frame takes failures whatever its contexts are. -/
@[simp]
theorem recovers_plain (frame : Frame S) : frame.plain.recovers = frame.recovers := by
  cases frame <;> rfl

end Frame

namespace CallStack

/-- A frame is pushed on a stack with plain contexts. -/
@[simp]
theorem plain_push (stack : CallStack (Frame S)) (frame : Frame S) :
    (stack.push frame).plain = stack.plain.push frame.plain := by
  obtain ⟨first, rest, below, h⟩ := stack
  cases first <;> rfl

/-- A stack with plain contexts has as many frames. -/
@[simp]
theorem length_plain (stack : CallStack (Frame S)) : stack.plain.length = stack.length := by
  obtain ⟨first, rest, below, h⟩ := stack
  cases first <;> rfl

/-- A stack with plain contexts is empty if the stack is. -/
@[simp]
theorem isEmpty_plain (stack : CallStack (Frame S)) : stack.plain.isEmpty = stack.isEmpty := by
  obtain ⟨first, rest, below, h⟩ := stack
  cases first <;> cases rest <;> rfl

/-- The first frame of a kind is in the same place of a list with plain contexts. -/
theorem takeFirstBelow_plain {p : Frame S → Bool} (hp : ∀ frame, p frame.plain = p frame)
    (frames : List (Frame S)) (count : Nat) (h : count = frames.length)
    (h' : count = (frames.map Frame.plain).length) :
    takeFirstBelow p (frames.map Frame.plain) count h' =
      ((takeFirstBelow p frames count h).1.map Frame.plain,
        (takeFirstBelow p frames count h).2.plain) := by
  induction frames generalizing count with
  | nil => rfl
  | cons frame frames ih =>
      simp only [List.map_cons, takeFirstBelow, hp]
      split
      · rfl
      · exact ih (count - 1) _ _

/-- Plain frames are found where their originals are. -/
theorem takeFirst_plain {p : Frame S → Bool} (hp : ∀ frame, p frame.plain = p frame)
    (stack : CallStack (Frame S)) :
    stack.plain.takeFirst p =
      ((stack.takeFirst p).1.map Frame.plain, (stack.takeFirst p).2.plain) := by
  obtain ⟨first, rest, below, h⟩ := stack
  cases first with
  | none => exact takeFirstBelow_plain hp rest below h _
  | some frame =>
      simp only [takeFirst, plain, Option.map_some, hp]
      split
      · rfl
      · exact takeFirstBelow_plain hp rest below h _

/-- A value comes to the same frame of a stack with plain contexts. -/
@[simp]
theorem popNext_plain (stack : CallStack (Frame S)) :
    stack.plain.popNext = (stack.popNext.1.map Frame.plain, stack.popNext.2.plain) :=
  takeFirst_plain Frame.forwards_plain stack

/-- A failure comes to the same frame of a stack with plain contexts. -/
@[simp]
theorem findErrorHandler_plain (stack : CallStack (Frame S)) :
    stack.plain.findErrorHandler =
      (stack.findErrorHandler.1.map Frame.plain, stack.findErrorHandler.2.plain) :=
  takeFirst_plain Frame.recovers_plain stack

end CallStack

/-! ## Effects -/

/-- The effect that is an outcome has no contexts. -/
@[simp]
theorem Effect.plain_ofOutcome (o : Outcome) :
    (Effect.ofOutcome o : Effect S).plain = Effect.ofOutcome o := by
  cases o <;> rfl

/-- Partial evaluation leaves the same of a node, up to contexts. -/
@[simp]
theorem State.residual_plain (stack : CallStack (Frame S)) (node : Effect S) :
    State.residual stack.plain node.plain = (State.residual stack node).plain := by
  cases node with
  | switchConnection source modify restore => rfl
  | _ =>
      simp only [State.residual, Effect.plain, CallStack.isEmpty_plain]
      split <;> rfl

end Trampoline
