import Trampoline.Proofs.Machine.Activations
import Trampoline.Proofs.Machine.Bridges

/-!
# Cancellation

A connection that has been canceled stays canceled, whatever the machine does.  And it takes
a command to cancel it: of all steps only the one that begins this command makes a canceled
connection of one that was not.

Main definitions and results:

- Theorems `Connections.state?_create`, `state?_setState`: the states behind the connections of a
  table when one is made, or replaced.
- Theorems `Connections.isCanceled_create`, `isCanceled_push`, `isCanceled_pop`,
  `isCanceled_cancel`: what the operations of a table do to the flags.
- Theorem `State.isCanceled_work`: a step leaves the flag of a connection alone, unless it
  begins the cancellation of that connection.
- Theorem `State.isCanceled_next`: a canceled connection stays canceled.
-/

namespace Trampoline

variable {S : Closures} {σ : Type}

/-! ## The table -/

namespace Connections

variable {τ : Type} {table table' : Connections τ}

/-- A new connection has the next number, and nothing has happened to it. -/
theorem state?_create (c : Connection) : table.create.1.state? c =
    if c = .cancelable table.states.size then some .fresh else table.state? c := by
  cases c with
  | uncancelable => rfl
  | cancelable i => simp [state?, create, Array.getElem?_push]

/-- A change of the state behind one connection changes no other. -/
theorem state?_setState {d : Connection} {s : ConnectionState τ} (h : table.state? d = some s)
    (s' : ConnectionState τ) (c : Connection) :
    (table.setState d s').state? c = if c = d then some s' else table.state? c := by
  cases d with
  | uncancelable => cases h
  | cancelable i =>
      have hi : i < table.states.size := (Array.getElem?_eq_some_iff.mp h).1
      cases c with
      | uncancelable => rfl
      | cancelable j =>
          by_cases hij : i = j
          · subst hij
            simp [state?, setState, hi]
          · have hji : ¬j = i := fun hji => hij hji.symm
            simp [state?, setState, Array.getElem?_setIfInBounds_ne hij, hji]

/-- A change of a state adds none. -/
@[simp]
theorem size_setState (d : Connection) (s : ConnectionState τ) :
    (table.setState d s).states.size = table.states.size := by
  cases d <;> simp [setState]

/-- Only the flag of the connection whose state is replaced may change. -/
theorem isCanceled_setState {d : Connection} {s s' : ConnectionState τ}
    (h : table.state? d = some s) (c : Connection) :
    (table.setState d s').isCanceled c = if c = d then s'.canceled else table.isCanceled c := by
  by_cases hcd : c = d <;> simp [isCanceled, state?_setState h, hcd]

/-- A new connection has not been canceled, and neither had its number before. -/
@[simp]
theorem isCanceled_create (table : Connections τ) (c : Connection) :
    table.create.1.isCanceled c = table.isCanceled c := by
  cases c with
  | uncancelable => rfl
  | cancelable i =>
      by_cases hi : i = table.states.size
      · simp [isCanceled, state?, create, hi, ConnectionState.fresh]
      · simp [isCanceled, state?, create, Array.getElem?_push, hi]

/-- Taking a token back cancels nothing. -/
@[simp]
theorem isCanceled_pop (table : Connections τ) (d c : Connection) :
    (table.pop d).1.isCanceled c = table.isCanceled c := by
  unfold pop
  split
  · next canceled token tokens h =>
      rw [isCanceled_setState h]
      split
      · next hcd => simp [isCanceled, hcd, h]
      · rfl
  · rfl

/-- Registering a token cancels nothing. -/
theorem isCanceled_push {d : Connection} {token : τ} (h : table.push d token = .kept table')
    (c : Connection) : table'.isCanceled c = table.isCanceled c := by
  unfold push at h
  split at h
  · next s hs =>
      split at h
      · cases h
      · next hfresh =>
          cases h
          rw [isCanceled_setState hs]
          split
          · next hcd => simpa [isCanceled, hcd, hs] using hfresh
          · rfl
  · cases h
    rfl

/-- A cancellation sets one flag, if there is a state behind the connection. -/
theorem isCanceled_cancel (table : Connections τ) (d c : Connection) :
    (table.cancel d).1.isCanceled c =
      (table.isCanceled c || (c == d && (table.state? d).isSome)) := by
  unfold cancel
  split
  · next s hs =>
      split
      · next hcanceled =>
          by_cases hcd : c = d
          · simp [hcd, isCanceled, hs, hcanceled]
          · simp [hcd]
      · rw [isCanceled_setState hs]
        by_cases hcd : c = d
        · simp [hcd, hs]
        · simp [hcd]
  · next hnone => simp [hnone]

/-- A canceled connection stays canceled when others are. -/
theorem isCanceled_cancel_of_isCanceled {c : Connection} (h : table.isCanceled c = true)
    (d : Connection) : (table.cancel d).1.isCanceled c = true := by
  rw [isCanceled_cancel, h, Bool.true_or]

/-- A cancellation makes one connection canceled at most. -/
theorem isCanceled_cancel_of_ne {c d : Connection} (h : c ≠ d) :
    (table.cancel d).1.isCanceled c = table.isCanceled c := by
  simp [isCanceled_cancel, h]

end Connections

/-- No query sets a flag. -/
@[simp]
theorem World.isCanceled_answer (w : World S σ) (q : Query S σ) (c : Connection) :
    (w.answer q).1.connections.isCanceled c = w.connections.isCanceled c := by
  cases q with
  | newConnection => exact Connections.isCanceled_create _ _
  | pop d => exact Connections.isCanceled_pop _ _ _
  | _ => rfl

/-- Giving a terminal away changes no connection. -/
@[simp]
theorem World.release_connections (w : World S σ) (outlet : Outlet S) :
    (w.release outlet).connections = w.connections := by
  cases outlet with
  | terminal t => rfl
  | bridge i =>
      simp only [release]
      split <;> rfl

/-- A bridge that follows a switch changes no connection. -/
@[simp]
theorem World.followSwitch_connections (w : World S σ) (run : Loop S) (new : Connection) :
    (w.followSwitch run new).connections = w.connections := by
  unfold followSwitch
  split
  · rfl
  · cases run.outlet with
    | terminal t => rfl
    | bridge i =>
        simp only
        split <;> rfl

/-! ## Steps that set no flag -/

namespace State

variable {w : World S σ} {rest : List (Activation S σ)}

/-- A completion changes no connection. -/
@[simp]
theorem connections_complete (P : Program S σ) (cb : Callback) (o : Outcome) :
    (complete P w cb o rest).world.connections = w.connections := by
  unfold complete
  split
  · split <;> simp
  · simp

/-- A delivery changes no connection. -/
@[simp]
theorem connections_deliver (P : Program S σ) (t : Terminal S) (o : Outcome) :
    (deliver P w t o rest).world.connections = w.connections := by
  cases t with
  | user k => rfl
  | complete cb => exact connections_complete P cb o

/-- The end of a loop changes no connection. -/
@[simp]
theorem connections_finish (P : Program S σ) (run : Loop S) (o : Outcome) :
    (finish P w run o rest).world.connections = w.connections := by
  unfold finish
  split
  · simp
  · split
    · split <;> simp
    · simp

/-- The submission of a task changes no connection. -/
@[simp]
theorem connections_submit (P : Program S σ) (context : Context S.Executor) (task : Task S) :
    (submit P w context task rest).world.connections = w.connections := by
  have hrun : ∀ (w : World S σ) (rest : List (Activation S σ)),
      (runTask P w task rest).world.connections = w.connections := by
    intro w rest
    cases task <;> rfl
  cases context with
  | immediate => exact hrun w rest
  | newThread name spawns =>
      simp only [submit]
      split
      · simp
      · split
        · exact hrun _ _
        · exact hrun _ _
  | pool name worker => exact hrun _ _
  | hosted name executor => rfl

/-- A failure that comes to a driver changes no connection. -/
@[simp]
theorem connections_fail (P : Program S σ) (d : Driver S σ) (e : Failure) :
    (fail P w d e rest).world.connections = w.connections := by
  cases d with
  | loop run => exact connections_finish P run _
  | partially stack resume => rfl

/-- A value that comes to a driver changes no connection. -/
@[simp]
theorem connections_yield (P : Program S σ) (d : Driver S σ) (v : Value) :
    (yield P w d v rest).world.connections = w.connections := by
  cases d with
  | loop run => exact connections_finish P run _
  | partially stack resume => rfl

/-- Taking a node apart sets no flag. -/
@[simp]
theorem connections_reduce (P : Program S σ) (d : Driver S σ) (node : Effect S) :
    (reduce P w d node rest).world.connections = w.connections := by
  cases node with
  | fail e =>
      simp only [reduce]
      split <;> simp
  | async k => cases d <;> simp [reduce, suspend]
  | parked inner stack => cases d <;> simp [reduce, suspend]
  | deferred context b => cases d <;> simp [reduce, suspendOn]
  | switchConnection source modify restore => cases d <;> simp [reduce]
  | _ => rfl

/-- A driver in front of a node changes no connection. -/
@[simp]
theorem connections_eval (P : Program S σ) (d : Driver S σ) (node : Effect S) :
    (eval P w d node rest).world.connections = w.connections := by
  cases d with
  | loop run =>
      simp only [eval]
      split <;> simp
  | partially stack resume => simp [eval]

/-- A driver with a value changes no connection. -/
@[simp]
theorem connections_value (P : Program S σ) (d : Driver S σ) (v : Value) :
    (value P w d v rest).world.connections = w.connections := by
  unfold value
  split <;> simp

/-- The beginning of a region changes no connection: it makes another one active. -/
@[simp]
theorem connections_switched (run : Loop S) (source : Effect S) (restore : Option (Restorer S))
    (new : Connection) : (switched w run source restore new rest).world.connections =
      w.connections := by
  unfold switched
  cases restore <;> simp

/-- A panic in front of a driver changes no connection. -/
@[simp]
theorem connections_panicIn (P : Program S σ) (d : Driver S σ) (payload : Payload) :
    (panicIn P w d payload rest).world.connections = w.connections := by
  cases d with
  | loop run =>
      simp only [panicIn, contain]
      split <;> simp
  | partially stack resume =>
      simp only [panicIn]
      split <;> simp

/-- The result of a piece of code, or its panic, sets no flag. -/
theorem connections_finish_escape (P : Program S σ) {α : Type} (h : Holder S σ α) :
    (∀ a, (h.finish w rest a).world.connections = w.connections) ∧
      ∀ payload, (h.escape P w rest payload).world.connections = w.connections := by
  cases h with
  | node d => exact ⟨fun e => rfl, fun payload => connections_panicIn P d payload⟩
  | outcome d => exact ⟨fun o => by cases o <;> rfl, fun payload => connections_panicIn P d payload⟩
  | switch run source restore =>
      exact ⟨fun new => connections_switched run source restore new,
        fun payload => connections_panicIn P (.loop run) payload⟩
  | owing cb =>
      refine ⟨fun _ => by simp [Holder.finish], fun payload => ?_⟩
      simp only [Holder.escape, contain]
      split <;> simp
  | code => exact ⟨fun _ => by simp [Holder.finish], fun payload => by simp [Holder.escape]⟩

/-! ## Steps of code -/

/-- A command sets no flag, but for the cancellation of a connection. -/
theorem isCanceled_begin (P : Program S σ) (command : Command S) (c : Connection)
    (hc : command ≠ .cancel c) :
    (begin P w command rest).world.connections.isCanceled c = w.connections.isCanceled c := by
  cases command with
  | cancel d =>
      have hcd : c ≠ d := fun hcd => hc (hcd ▸ rfl)
      exact Connections.isCanceled_cancel_of_ne hcd
  | push d token =>
      simp only [begin]
      split
      · next table h =>
          simp only [world_resume]
          exact Connections.isCanceled_push h c
      · rfl
  | complete cb o => simp [begin]
  | run e d t => rfl
  | submit context task => simp [begin]
  | runToken token => rfl
  | runTask task => cases task <;> rfl

/-- The code of an activation is about to cancel a connection. -/
def Cancels (c : Connection) (top : Activation S σ) : Prop :=
  ∃ (α : Type) (h : Holder S σ α) (next : Unit → Code S σ α),
    top = h.wrap (.command (.cancel c) next)

/-- A step of code sets no flag, but for the cancellation of a connection. -/
theorem isCanceled_work_wrap (P : Program S σ) {α : Type} (h : Holder S σ α) (code : Code S σ α)
    (c : Connection) (hc : ¬Cancels c (h.wrap code)) :
    (work P w rest (h.wrap code)).world.connections.isCanceled c =
      w.connections.isCanceled c := by
  rw [work_wrap]
  cases code with
  | done a =>
      simp only [advance]
      rw [(connections_finish_escape P h).1 a]
  | panic payload =>
      simp only [advance]
      rw [(connections_finish_escape P h).2 payload]
  | query q next => simp [advance]
  | command command next =>
      refine isCanceled_begin P command c fun hcommand => hc ?_
      subst hcommand
      exact ⟨α, h, next, rfl⟩
  | step e next => rfl

/-- A step leaves the flag of a connection alone, unless it begins the cancellation of that
connection. -/
theorem isCanceled_work (P : Program S σ) (top : Activation S σ) (c : Connection)
    (hc : ¬Cancels c top) :
    (work P w rest top).world.connections.isCanceled c = w.connections.isCanceled c := by
  cases top with
  | eval d node => simp [work]
  | value d v => simp [work]
  | node d code => exact isCanceled_work_wrap P (.node d) code c hc
  | outcome d code => exact isCanceled_work_wrap P (.outcome d) code c hc
  | switch run source restore code =>
      exact isCanceled_work_wrap P (.switch run source restore) code c hc
  | owing cb code => exact isCanceled_work_wrap P (.owing cb) code c hc
  | code code => exact isCanceled_work_wrap P .code code c hc
  | tokens pending => cases pending <;> simp [work]
  | thread outer => simp [work]

/-- A canceled connection stays canceled. -/
theorem isCanceled_next (P : Program S σ) {s : State S σ} {c : Connection}
    (h : s.world.connections.isCanceled c = true) :
    (s.next P).world.connections.isCanceled c = true := by
  cases s with
  | returned w => exact h
  | unwound w payload => exact h
  | running w top rest =>
      rw [world_running] at h
      by_cases hc : Cancels c top
      · obtain ⟨α, holder, next, rfl⟩ := hc
        have hwork : work P w rest (holder.wrap (.command (.cancel c) next)) =
            begin P w (.cancel c) (holder.wrap (next ()) :: rest) := work_wrap P w rest holder _
        rw [State.next, hwork]
        exact Connections.isCanceled_cancel_of_isCanceled h c
      · rw [State.next, isCanceled_work P top c hc, h]

end State

end Trampoline
