/-!
# Trace events

What the engine reports while it works, for a host that listens.
-/

namespace Trampoline

/-- How important a trace event is. -/
inductive TraceLevel where
  | trace
  | debug
  | warn
deriving DecidableEq

/-- The name of a level. -/
def TraceLevel.name : TraceLevel → String
  | trace => "TRACE"
  | debug => "DEBUG"
  | warn => "WARN"

/-- Something that the engine reports. -/
inductive TraceEvent where
  /-- A run parked this many frames at an asynchronous boundary. -/
  | suspendedAsync (epoch frames : Nat)
  /-- A run parked this many frames and submits a body to a context. -/
  | suspendedDeferred (context : String) (epoch frames : Nat)
  /-- A completion takes up a parked run. -/
  | resumed (epoch frames : Nat)
  /-- A completion found its suspension completed already. -/
  | staleCompletion (epoch : Nat)
  /-- A run saw that its connection is canceled, and gave up this many frames. -/
  | runCancelled (connection abandoned : Nat)
  /-- A panic became a failure. -/
  | panicContained (message : String)
  /-- A thread could not be spawned. -/
  | spawnRefused (context : String)
deriving DecidableEq

namespace TraceEvent

/-- The level of an event. -/
def level : TraceEvent → TraceLevel
  | suspendedAsync .. | suspendedDeferred .. | resumed .. => .trace
  | staleCompletion .. | runCancelled .. => .debug
  | panicContained .. | spawnRefused .. => .warn

/-- The text of an event. -/
def message : TraceEvent → String
  | suspendedAsync .. => "suspending on async boundary"
  | suspendedDeferred .. => "suspending on deferred body"
  | resumed .. => "resuming after async boundary"
  | staleCompletion .. => "ignoring stale or duplicate completion"
  | runCancelled .. => "run cancelled"
  | panicContained .. => "user code panicked, continuing with a failure"
  | spawnRefused .. => "failed to spawn thread, running task inline"

end TraceEvent

end Trampoline
