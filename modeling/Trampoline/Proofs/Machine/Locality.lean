import Trampoline.Proofs.Machine.Activations

/-!
# What waits below

A step of the machine never looks at what waits below the activation on top: it puts
activations above it, returns to it, or panics into it.  So whatever happens during a call
is what happens when the call is made with nothing below, until the call returns or a panic
leaves it.

Main definitions and results:

- Definition `State.onto`: a state with more activations below.
- Theorem `State.next_onto`: a step is the same with anything below.
-/

namespace Trampoline

variable {S : Closures} {σ : Type}

namespace State

/-- A state with more activations at the bottom.  Where nothing was left of it, its end is
passed on to them. -/
def onto : State S σ → List (Activation S σ) → State S σ
  | running w top rest, below => running w top (rest ++ below)
  | returned w, below => resume w below
  | unwound w payload, below => unwind w payload below

/-- More activations at the bottom leave the world as it is. -/
@[simp]
theorem world_onto (s : State S σ) (below : List (Activation S σ)) :
    (s.onto below).world = s.world := by
  cases s with
  | running w top rest => rfl
  | returned w => exact world_resume w below
  | unwound w payload => exact world_unwind w payload below

/-- What waits below is added to what is there. -/
theorem length_activations_onto (s : State S σ) (below : List (Activation S σ)) :
    (s.onto below).activations.length = s.activations.length + below.length := by
  cases s with
  | running w top rest => simp [onto, Nat.add_right_comm]
  | returned w => simp [onto]
  | unwound w payload => cases below <;> simp [onto, unwind]

section

variable (P : Program S σ) (w : World S σ) (rest below : List (Activation S σ))

/-- What waits goes on waiting, above what is added. -/
@[simp]
theorem running_onto (top : Activation S σ) :
    (running w top rest).onto below = running w top (rest ++ below) :=
  rfl

/-- Returning is the same with anything below. -/
@[simp]
theorem resume_onto : (resume w rest).onto below = resume w (rest ++ below) := by
  cases rest <;> rfl

/-- Panicking is the same with anything below. -/
@[simp]
theorem unwind_onto (payload : Payload) :
    (unwind w payload rest).onto below = unwind w payload (rest ++ below) := by
  cases rest <;> rfl

/-- A completion is the same with anything below. -/
@[simp]
theorem complete_onto (cb : Callback) (o : Outcome) :
    (complete P w cb o rest).onto below = complete P w cb o (rest ++ below) := by
  unfold complete
  split
  · split <;> simp
  · simp

/-- A delivery is the same with anything below. -/
@[simp]
theorem deliver_onto (t : Terminal S) (o : Outcome) :
    (deliver P w t o rest).onto below = deliver P w t o (rest ++ below) := by
  cases t <;> simp [deliver]

/-- The end of a loop is the same with anything below. -/
@[simp]
theorem finish_onto (run : Loop S) (o : Outcome) :
    (finish P w run o rest).onto below = finish P w run o (rest ++ below) := by
  unfold finish
  repeat' split
  all_goals simp

/-- The start of a task is the same with anything below. -/
@[simp]
theorem runTask_onto (task : Task S) :
    (runTask P w task rest).onto below = runTask P w task (rest ++ below) := by
  cases task <;> simp [runTask]

/-- What a context does with a task is the same with anything below. -/
@[simp]
theorem submit_onto (context : Context S.Executor) (task : Task S) :
    (submit P w context task rest).onto below = submit P w context task (rest ++ below) := by
  cases context with
  | immediate => simp [submit]
  | newThread name spawns =>
      simp only [submit]
      split
      · simp
      · split <;> simp [runTaskOn]
  | pool name worker => simp [submit, runTaskOn]
  | hosted name executor => simp [submit]

/-- What a command starts is the same with anything below. -/
@[simp]
theorem begin_onto (c : Command S) :
    (begin P w c rest).onto below = begin P w c (rest ++ below) := by
  cases c with
  | push c token =>
      simp only [begin]
      split <;> simp
  | _ => simp [begin]

/-- The beginning of a region is the same with anything below. -/
@[simp]
theorem switched_onto (run : Loop S) (source : Effect S) (restore : Option (Restorer S))
    (new : Connection) :
    (switched w run source restore new rest).onto below =
      switched w run source restore new (rest ++ below) := by
  cases restore <;> simp [switched]

/-- A panic in front of a driver is the same with anything below. -/
@[simp]
theorem panicIn_onto (d : Driver S σ) (payload : Payload) :
    (panicIn P w d payload rest).onto below = panicIn P w d payload (rest ++ below) := by
  cases d with
  | loop run =>
      simp only [panicIn, contain]
      split <;> simp
  | partially stack resume =>
      simp only [panicIn]
      split <;> simp

/-- Taking a node apart is the same with anything below. -/
@[simp]
theorem reduce_onto (d : Driver S σ) (node : Effect S) :
    (reduce P w d node rest).onto below = reduce P w d node (rest ++ below) := by
  cases node with
  | fail e =>
      simp only [reduce]
      split
      · simp
      · cases d <;> simp [fail, Driver.withStack]
  | async k => cases d <;> simp [reduce, suspend]
  | parked inner stack => cases d <;> simp [reduce, suspend]
  | deferred context b => cases d <;> simp [reduce, suspendOn]
  | switchConnection source modify restore => cases d <;> simp [reduce]
  | _ => simp [reduce]

/-- The work of a driver in front of a node is the same with anything below. -/
@[simp]
theorem eval_onto (d : Driver S σ) (node : Effect S) :
    (eval P w d node rest).onto below = eval P w d node (rest ++ below) := by
  cases d with
  | loop run =>
      simp only [eval]
      split <;> simp
  | partially stack resume => simp [eval]

/-- The work of a driver with a value is the same with anything below. -/
@[simp]
theorem value_onto (d : Driver S σ) (v : Value) :
    (value P w d v rest).onto below = value P w d v (rest ++ below) := by
  simp only [value]
  split
  · simp
  · cases d <;> simp [yield, Driver.withStack]

/-- A step of code is the same with anything below if what follows its end is. -/
theorem advance_onto {α : Type} {wrap : Code S σ α → Activation S σ}
    {finish finish' : α → State S σ} {escape escape' : Payload → State S σ}
    (hfinish : ∀ a, (finish a).onto below = finish' a)
    (hescape : ∀ payload, (escape payload).onto below = escape' payload) (code : Code S σ α) :
    (advance P w rest wrap finish escape code).onto below =
      advance P w (rest ++ below) wrap finish' escape' code := by
  cases code with
  | done a => exact hfinish a
  | panic payload => exact hescape payload
  | query q next => rfl
  | command c next => exact begin_onto P w _ below c
  | step e next => rfl

/-- The work of an activation is the same with anything below. -/
@[simp]
theorem work_onto (top : Activation S σ) :
    (work P w rest top).onto below = work P w (rest ++ below) top := by
  cases top with
  | eval d node => exact eval_onto P w rest below d node
  | value d v => exact value_onto P w rest below d v
  | node d code => exact advance_onto P w rest below (by simp) (by simp) code
  | outcome d code =>
      refine advance_onto P w rest below (fun o => ?_) (by simp) code
      cases o <;> rfl
  | switch run source restore code => exact advance_onto P w rest below (by simp) (by simp) code
  | owing cb code =>
      refine advance_onto P w rest below (by simp) (fun payload => ?_) code
      simp only [contain]
      split <;> simp
  | code code => exact advance_onto P w rest below (by simp) (by simp) code
  | tokens pending => cases pending <;> simp [work]
  | thread outer => simp [work]

end

/-- A submission makes no bridge. -/
theorem submit_bridges (P : Program S σ) (w : World S σ) (context : Context S.Executor)
    (task : Task S) (rest : List (Activation S σ)) :
    (submit P w context task rest).world.bridges = w.bridges := by
  have hrun : ∀ (w : World S σ) rest, (runTask P w task rest).world.bridges = w.bridges := by
    intro w rest
    cases task <;> rfl
  cases context with
  | immediate => exact hrun w rest
  | newThread name spawns =>
      simp only [submit]
      split
      · rw [world_unwind]
      · split <;> exact hrun _ _
  | pool name worker => exact hrun _ _
  | hosted name executor => rfl

section

variable (P : Program S σ) (below : List (Activation S σ))

/-- A step of a machine that has not come to its end is the same with anything below. -/
theorem next_onto (w : World S σ) (top : Activation S σ) (rest : List (Activation S σ)) :
    ((running w top rest).onto below).next P = ((running w top rest).next P).onto below := by
  simp [next]

/-- A step is the work of the activation on top, with what waits put below. -/
theorem next_running (w : World S σ) (top : Activation S σ) (rest : List (Activation S σ)) :
    (running w top rest).next P = (work P w [] top).onto rest := by
  simp [next]

/-- A machine that has come to its end stays there. -/
theorem next_of_ended {s : State S σ} (h : s.activations = []) : s.next P = s := by
  cases s with
  | running w top rest => cases h
  | returned w => rfl
  | unwound w payload => rfl

/-- More steps begin with a step. -/
theorem run_succ (n : Nat) (s : State S σ) : run P (n + 1) s = run P n (s.next P) := by
  cases s with
  | running w top rest => rfl
  | returned w => cases n <;> rfl
  | unwound w payload => cases n <;> rfl

/-- However many steps it is given. -/
theorem run_of_ended {s : State S σ} (h : s.activations = []) (n : Nat) : run P n s = s := by
  induction n with
  | zero => rfl
  | succ n ih => rw [run_succ, next_of_ended P h, ih]

/-- Some steps and more steps. -/
theorem run_add (m n : Nat) (s : State S σ) : run P (m + n) s = run P n (run P m s) := by
  induction m generalizing s with
  | zero => rw [Nat.zero_add]; rfl
  | succ m ih => rw [Nat.succ_add, run_succ, run_succ, ih]

/-- The last of so many steps. -/
theorem run_succ' (n : Nat) (s : State S σ) : run P (n + 1) s = (run P n s).next P := by
  rw [run_add P n 1 s, run_succ]
  rfl

end

end State

end Trampoline
