import Trampoline.Text.Digits

/-!
# Execution contexts

An execution context decides where a submitted task runs.  The engine submits
tasks and otherwise knows a context only by its name.

No thread can have a name with a null character in it.  That is found out when a task is
submitted, and is a panic of the submitter.
-/

namespace Trampoline

/-- A place where tasks run.  `χ` names the contexts that a host brings itself. -/
inductive Context (χ : Type) where
  /-- The task runs at once, on the submitting thread. -/
  | immediate
  /-- The task runs on a thread of its own with the given name.  A thread that
  cannot be spawned leaves the task to the submitting thread. -/
  | newThread (name : String) (spawns : Bool)
  /-- The task runs on a worker thread of a pool. -/
  | pool (name worker : String)
  /-- The host takes the task. -/
  | hosted (name : String) (executor : χ)
deriving Inhabited

namespace Context

variable {χ : Type}

/-- The name that a thread context has unless it is given one. -/
def standardThreadName : String :=
  "runloop-thread"

/-- The thread context with the standard name. -/
def standardThread : Context χ :=
  newThread standardThreadName true

/-- The name of a context. -/
def name : Context χ → String
  | immediate => "immediate"
  | newThread name _ => name
  | pool name _ => name
  | hosted name _ => name

/-- What is wrong with the name of a thread: it has a null character, before which so
many bytes stand. -/
def threadNameFault? (name : String) : Option String :=
  let before := name.toList.takeWhile (· ≠ '\x00')
  if before.length = name.length then none
  else
    let place := before.foldl (fun bytes c => bytes + c.utf8Size) 0
    let bytes := name.toUTF8.toList.map fun byte => Text.countText byte.toNat
    some ("thread name may not contain interior null bytes: NulError(" ++
      Text.countText place ++ ", [" ++ ", ".intercalate bytes ++ "])")

/-- The text that stands for a context in descriptions. -/
def describe (context : Context χ) : String :=
  "ExecutionContext(" ++ context.name ++ ")"

end Context

end Trampoline
