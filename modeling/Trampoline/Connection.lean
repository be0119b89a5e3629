/-!
# Cancellation connections

A connection is the handle through which a run learns that it has been canceled.
Any number of runs may share one.  Cancellation is cooperative: it sets a flag and
hands out the registered tokens, newest first; it interrupts nothing.

A `Connection` is a name; the flag and the tokens stand in a `Connections` table.

Main definitions:

- `Connection`: the uncancelable connection, or a cancelable one with its number.
- `Connections.create`, `isCanceled`, `cancel`, `push`, `pop`: the operations.
-/

namespace Trampoline

/-- A handle to a cancellation flag.  Cancelable connections are numbered from 1. -/
inductive Connection where
  | uncancelable
  | cancelable (index : Nat)
deriving DecidableEq, Inhabited

namespace Connection

/-- The number of a connection; the uncancelable one has number 0. -/
def id : Connection → Nat
  | uncancelable => 0
  | cancelable index => index + 1

/-- Whether a connection can be canceled at all. -/
def isCancelable : Connection → Bool
  | uncancelable => false
  | cancelable _ => true

/-- The uncancelable connection has the number zero. -/
@[simp]
theorem id_uncancelable : uncancelable.id = 0 :=
  rfl

/-- The cancelable connections are numbered from one on. -/
@[simp]
theorem id_cancelable (index : Nat) : (cancelable index).id = index + 1 :=
  rfl

end Connection

/-- The state behind one cancelable connection.  The newest token comes first. -/
structure ConnectionState (τ : Type) where
  canceled : Bool
  tokens : List τ

/-- The state behind a connection that has just been created. -/
def ConnectionState.fresh {τ : Type} : ConnectionState τ where
  canceled := false
  tokens := []

/-- The states of all cancelable connections created so far, in order of creation. -/
structure Connections (τ : Type) where
  states : Array (ConnectionState τ)

namespace Connections

variable {τ : Type}

/-- No connection has been created. -/
def empty : Connections τ where
  states := #[]

/-- Create a cancelable connection. -/
def create (table : Connections τ) : Connections τ × Connection :=
  let c := .cancelable table.states.size
  (⟨table.states.push .fresh⟩, c)

/-- The state behind a connection, if it is a cancelable one of this table. -/
def state? (table : Connections τ) : Connection → Option (ConnectionState τ)
  | .uncancelable => none
  | .cancelable index => table.states[index]?

/-- Replace the state behind a connection; a connection without one is left alone. -/
def setState (table : Connections τ) (c : Connection) (s : ConnectionState τ) : Connections τ :=
  match c with
  | .uncancelable => table
  | .cancelable index => ⟨table.states.setIfInBounds index s⟩

/-- Whether a connection has been canceled. -/
def isCanceled (table : Connections τ) (c : Connection) : Bool :=
  match table.state? c with
  | some s => s.canceled
  | none => false

/-- Cancel a connection.  The first cancellation takes all registered tokens and
gives them back, newest first, for the caller to run; later ones give back none. -/
def cancel (table : Connections τ) (c : Connection) : Connections τ × List τ :=
  match table.state? c with
  | some s => if s.canceled then (table, []) else (table.setState c ⟨true, []⟩, s.tokens)
  | none => (table, [])

/-- What becomes of a token that is pushed on a connection. -/
inductive Push (τ : Type) where
  /-- The token is registered, or dropped by the uncancelable connection. -/
  | kept (table : Connections τ)
  /-- The connection is canceled already, so the token is due at once. -/
  | due

/-- Register a token. -/
def push (table : Connections τ) (c : Connection) (token : τ) : Push τ :=
  match table.state? c with
  | some s => if s.canceled then .due else .kept (table.setState c ⟨false, token :: s.tokens⟩)
  | none => .kept table

/-- Take the newest registered token back. -/
def pop (table : Connections τ) (c : Connection) : Connections τ × Option τ :=
  match table.state? c with
  | some ⟨canceled, token :: tokens⟩ => (table.setState c ⟨canceled, tokens⟩, some token)
  | _ => (table, none)

/-- The uncancelable connection is never canceled. -/
@[simp]
theorem isCanceled_uncancelable (table : Connections τ) :
    table.isCanceled .uncancelable = false :=
  rfl

/-- A cancellation of the uncancelable connection does nothing. -/
@[simp]
theorem cancel_uncancelable (table : Connections τ) :
    table.cancel .uncancelable = (table, []) :=
  rfl

/-- A token of the uncancelable connection is not kept, and never run. -/
@[simp]
theorem push_uncancelable (table : Connections τ) (token : τ) :
    table.push .uncancelable token = .kept table :=
  rfl

/-- The uncancelable connection has no token to drop. -/
@[simp]
theorem pop_uncancelable (table : Connections τ) :
    table.pop .uncancelable = (table, none) :=
  rfl

end Connections

end Trampoline
