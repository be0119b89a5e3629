import Trampoline.Proofs.Machine.Locality
import Trampoline.Proofs.Machine.Completion
import Trampoline.Proofs.Machine.Reachable

/-!
# The thread of a place

The machine works on one thread at a time.  What is put on the control stack for another thread
stands above the bottom of that thread, which remembers the thread below it.  So each place on the
control stack has a thread of its own: the one that the lowest bottom above it remembers, or the
current one, if there is none.  As long as there is an activation in a place, whatever goes on
above it, the place has the same thread.

Main definitions and results:

- Definition `seen`: the thread of a place, from what stands above it.
- Definition `State.ThreadBelow`: the thread that is seen from below all activations.
- Theorem `State.ThreadBelow.next`: a step leaves it the same.
- Theorem `State.seen_next`: a step leaves the thread of a place the same.
- Theorem `State.thread_run`: whenever what was on top is on top again, it is on the same thread.
-/

namespace Trampoline

variable {S : Closures} {σ : Type}

namespace Activation

/-- The thread below an activation, where the activation is on a thread. -/
def under (thread : String) : Activation S σ → String
  | .thread outer => outer
  | _ => thread

/-- An activation is no bottom of a thread, and hides none. -/
def Inner (a : Activation S σ) : Prop :=
  a.Every fun b => ∀ outer, b ≠ .thread outer

/-- An activation hides no bottom of a thread. -/
def Open (a : Activation S σ) : Prop :=
  a.Inner ∨ ∃ outer, a = .thread outer

/-- Below the bottom of a thread is the thread that it remembers. -/
@[simp]
theorem under_thread (thread outer : String) :
    (Activation.thread outer : Activation S σ).under thread = outer :=
  rfl

/-- The bottom of a thread is in view. -/
@[simp]
theorem open_thread (outer : String) : (Activation.thread outer : Activation S σ).Open :=
  .inr ⟨outer, rfl⟩

/-- Below any other activation is the same thread. -/
theorem Inner.under_eq {a : Activation S σ} (h : a.Inner) (thread : String) :
    a.under thread = thread := by
  cases a with
  | thread outer => exact absurd rfl (h outer)
  | _ => rfl

/-- The work of a loop is no bottom of a thread, in view or not. -/
theorem inner_of_every {φ : Activation S σ → Prop} (hφ : ∀ b, φ b → ∃ run, b.loop? = some run)
    {a : Activation S σ} (h : a.Every φ) : a.Inner := by
  refine h.mono fun b hb outer hthread => ?_
  obtain ⟨run, hrun⟩ := hφ b hb
  rw [hthread] at hrun
  cases hrun

/-- A loop in view is no bottom of a thread. -/
theorem inner_of_loop? {a : Activation S σ} {run : Loop S} (h : a.loop? = some run) :
    a.Inner := by
  exact inner_of_every (fun b hb => ⟨run, hb⟩) ((every_iff_of_loop? h).mpr h)

/-- Code of the host is no bottom of a thread. -/
@[simp]
theorem inner_code (code : Code S σ Unit) : (Activation.code code).Inner :=
  nofun

/-- Code that owes an answer is no bottom of a thread. -/
@[simp]
theorem inner_owing (cb : Callback) (code : Code S σ Unit) : (Activation.owing cb code).Inner :=
  nofun

/-- Tokens that wait are no bottom of a thread. -/
@[simp]
theorem inner_tokens (pending : List S.Token) :
    (Activation.tokens pending : Activation S σ).Inner :=
  nofun

/-- How far its code has come makes no difference. -/
theorem Inner.wrap {α : Type} {h : Holder S σ α} {code : Code S σ α} (hi : (h.wrap code).Inner)
    (code' : Code S σ α) : (h.wrap code').Inner := by
  cases h with
  | node d => cases d <;> first | exact hi | exact nofun
  | outcome d => cases d <;> first | exact hi | exact nofun
  | switch run source restore => exact nofun
  | owing cb => exact nofun
  | code => exact nofun

/-- A panic from above changes nothing of it. -/
theorem Open.panicking {a : Activation S σ} (h : a.Open) (payload : Payload) :
    (a.panicking payload).Open ∧
      ∀ thread, (a.panicking payload).under thread = a.under thread := by
  cases a with
  | thread outer => exact ⟨h, fun _ => rfl⟩
  | node d code =>
      refine ⟨.inl ?_, fun _ => rfl⟩
      exact (h.resolve_right (by simp)).wrap (h := .node d) _
  | outcome d code =>
      refine ⟨.inl ?_, fun _ => rfl⟩
      exact (h.resolve_right (by simp)).wrap (h := .outcome d) _
  | switch run source restore code => exact ⟨.inl nofun, fun _ => rfl⟩
  | _ => exact ⟨.inl nofun, fun _ => rfl⟩

end Activation

/-- A driver hides no bottom of a thread. -/
def Driver.Inner : Driver S σ → Prop
  | .loop _ => True
  | .partially _ resume => ∀ r, (resume r).Inner

namespace Activation

/-- In front of a node, an activation hides what its driver hides. -/
@[simp]
theorem inner_eval {d : Driver S σ} {node : Effect S} :
    (Activation.eval d node).Inner ↔ d.Inner := by
  cases d with
  | loop run => exact ⟨fun _ => trivial, fun _ => nofun⟩
  | partially stack resume => exact Iff.rfl

/-- With a value, an activation hides what its driver hides. -/
@[simp]
theorem inner_value {d : Driver S σ} {v : Value} : (Activation.value d v).Inner ↔ d.Inner := by
  cases d with
  | loop run => exact ⟨fun _ => trivial, fun _ => nofun⟩
  | partially stack resume => exact Iff.rfl

/-- While code makes a node, an activation hides what its driver hides. -/
@[simp]
theorem inner_node {d : Driver S σ} {code : Code S σ (Effect S)} :
    (Activation.node d code).Inner ↔ d.Inner := by
  cases d with
  | loop run => exact ⟨fun _ => trivial, fun _ => nofun⟩
  | partially stack resume => exact Iff.rfl

/-- While code makes an outcome, an activation hides what its driver hides. -/
@[simp]
theorem inner_outcome {d : Driver S σ} {code : Code S σ Outcome} :
    (Activation.outcome d code).Inner ↔ d.Inner := by
  cases d with
  | loop run => exact ⟨fun _ => trivial, fun _ => nofun⟩
  | partially stack resume => exact Iff.rfl

/-- A switch of the connection is the work of a loop, and no bottom of a thread. -/
@[simp]
theorem inner_switch {run : Loop S} {source : Effect S} {restore : Option (Restorer S)}
    {code : Code S σ Connection} : (Activation.switch run source restore code).Inner :=
  nofun

end Activation

/-- The frames of a driver make no difference to what it hides. -/
@[simp]
theorem Driver.inner_withStack {d : Driver S σ} {stack : CallStack (Frame S)} :
    (d.withStack stack).Inner ↔ d.Inner := by
  cases d <;> exact Iff.rfl

/-! ## What is seen from below -/

/-- The thread of the place below some activations, where the one on top is on a thread. -/
def seen (thread : String) (above : List (Activation S σ)) : String :=
  above.foldl (fun thread a => a.under thread) thread

/-- Some activations hide no bottom of a thread, and the thread below them is this one. -/
def AboveThread (below thread : String) (above : List (Activation S σ)) : Prop :=
  (∀ a ∈ above, a.Open) ∧ seen thread above = below

section

variable {below thread : String} {a : Activation S σ} {above : List (Activation S σ)}

/-- The thread below some activations, from the one on top on. -/
theorem aboveThread_cons : AboveThread below thread (a :: above) ↔
    a.Open ∧ AboveThread below (a.under thread) above := by
  simp [AboveThread, seen, and_assoc]

/-- One more activation that is no bottom does not change the thread below. -/
theorem AboveThread.cons (h : AboveThread below thread above) (ha : a.Inner) :
    AboveThread below thread (a :: above) :=
  aboveThread_cons.mpr ⟨.inl ha, by rwa [ha.under_eq]⟩

end

namespace State

/-- The thread that is seen from below all activations. -/
def ThreadBelow (s : State S σ) (below : String) : Prop :=
  AboveThread below s.world.thread s.activations

section

variable {P : Program S σ} {w : World S σ} {below : String} {rest : List (Activation S σ)}

/-- An activation that is no bottom of a thread may be put on top. -/
theorem threadBelow_running {top : Activation S σ} (h : AboveThread below w.thread rest)
    (htop : top.Inner) : (running w top rest).ThreadBelow below :=
  h.cons htop

/-- Returning to what waits does not change the thread below it. -/
theorem threadBelow_resume (h : AboveThread below w.thread rest) :
    (resume w rest).ThreadBelow below := by
  cases rest <;> exact h

/-- Panicking into what waits does not change the thread below it. -/
theorem threadBelow_unwind (h : AboveThread below w.thread rest) (payload : Payload) :
    (unwind w payload rest).ThreadBelow below := by
  cases rest with
  | nil => exact h
  | cons a rest =>
      obtain ⟨ha, hrest⟩ := aboveThread_cons.mp h
      obtain ⟨hopen, hunder⟩ := ha.panicking payload
      exact aboveThread_cons.mpr ⟨hopen, (hunder _).symm ▸ hrest⟩

/-- A completion takes a run up, or returns, on the same thread. -/
theorem threadBelow_complete (h : AboveThread below w.thread rest) (cb : Callback) (o : Outcome) :
    (complete P w cb o rest).ThreadBelow below := by
  unfold complete
  repeat' split
  · exact threadBelow_running h (Activation.inner_of_loop? rfl)
  · exact threadBelow_resume h
  · exact threadBelow_resume h

/-- The end of a loop starts its terminal on the same thread. -/
theorem threadBelow_finish (h : AboveThread below w.thread rest) (run : Loop S) (o : Outcome) :
    (finish P w run o rest).ThreadBelow below := by
  have hdeliver : ∀ (w : World S σ) (t : Terminal S), AboveThread below w.thread rest →
      (deliver P w t o rest).ThreadBelow below := by
    intro w t h
    cases t with
    | user k => exact threadBelow_running h (by simp)
    | complete cb => exact threadBelow_complete h cb o
  unfold finish
  repeat' split
  · exact hdeliver _ _ h
  · exact hdeliver _ _ h
  · exact threadBelow_resume h
  · exact threadBelow_resume h

/-- A task is run on the current thread. -/
theorem threadBelow_runTask (h : AboveThread below w.thread rest) (task : Task S) :
    (runTask P w task rest).ThreadBelow below := by
  cases task <;> exact threadBelow_running h (by simp)

/-- A task for another thread is put on the bottom of that thread. -/
theorem threadBelow_runTaskOn (h : AboveThread below w.thread rest) (thread : String)
    (task : Task S) : (runTaskOn P w thread task rest).ThreadBelow below :=
  threadBelow_runTask (aboveThread_cons.mpr ⟨Activation.open_thread _, h⟩) task

/-- Whatever the context does with a task, the thread below what waits stays the same. -/
theorem threadBelow_submit (h : AboveThread below w.thread rest) (context : Context S.Executor)
    (task : Task S) : (submit P w context task rest).ThreadBelow below := by
  cases context with
  | immediate => exact threadBelow_runTask h task
  | newThread name spawns =>
      simp only [submit]
      split
      · exact threadBelow_unwind h _
      · split
        · exact threadBelow_runTaskOn h name task
        · exact threadBelow_runTask (w := w.report P _) h task
  | pool name worker => exact threadBelow_runTaskOn h worker task
  | hosted name executor => exact threadBelow_running h (by simp)

/-- Whatever a command starts, the thread below what waits stays the same. -/
theorem threadBelow_begin (h : AboveThread below w.thread rest) (c : Command S) :
    (begin P w c rest).ThreadBelow below := by
  cases c with
  | cancel c => exact threadBelow_running h (by simp)
  | push c token =>
      simp only [begin]
      split
      · exact threadBelow_resume h
      · exact threadBelow_running h (by simp)
  | complete cb o => exact threadBelow_complete h cb o
  | run e c terminal => exact threadBelow_running h (Activation.inner_of_loop? rfl)
  | submit context task => exact threadBelow_submit h context task
  | runToken token => exact threadBelow_running h (by simp)
  | runTask task => exact threadBelow_runTask h task

variable {d : Driver S σ}

/-- A failure goes to a frame, or out of the driver, on the same thread. -/
theorem threadBelow_fail (h : AboveThread below w.thread rest) (hd : d.Inner) (e : Failure) :
    (fail P w d e rest).ThreadBelow below := by
  cases d with
  | loop run => exact threadBelow_finish h run _
  | partially stack resume => exact threadBelow_running h (hd _)

/-- A value goes to a frame, or out of the driver, on the same thread. -/
theorem threadBelow_yield (h : AboveThread below w.thread rest) (hd : d.Inner) (v : Value) :
    (yield P w d v rest).ThreadBelow below := by
  cases d with
  | loop run => exact threadBelow_finish h run _
  | partially stack resume => exact threadBelow_running h (hd _)

/-- Arming a loop does not change the thread. -/
theorem thread_arm (w : World S σ) (run : Loop S) : (w.arm run).1.thread = w.thread := by
  unfold World.arm
  repeat' split
  all_goals rfl

/-- Following a switch does not change the thread. -/
theorem thread_followSwitch (w : World S σ) (run : Loop S) (new : Connection) :
    (w.followSwitch run new).thread = w.thread := by
  unfold World.followSwitch
  repeat' split
  all_goals rfl

/-- A node is taken apart, or suspends the driver, and the thread below what waits stays the same.
-/
theorem threadBelow_reduce (h : AboveThread below w.thread rest) (hd : d.Inner) (node : Effect S) :
    (reduce P w d node rest).ThreadBelow below := by
  have hgives : ∀ {stack : CallStack (Frame S)}
      {resume : Except Payload (Effect S) → Activation S σ} (residual : Except Payload (Effect S)),
      (Driver.partially stack resume).Inner →
      (running w (resume residual) rest).ThreadBelow below :=
    fun residual hd => threadBelow_running h (hd residual)
  have harmed : ∀ {run : Loop S} {event : TraceEvent},
      AboveThread below ((w.arm run).1.report P event).thread rest := by
    intro run event
    rwa [← thread_arm w run] at h
  cases node with
  | pure v => exact threadBelow_running h (by simpa using hd)
  | fail e =>
      simp only [reduce]
      split
      · exact threadBelow_running h (by simpa using hd)
      · exact threadBelow_fail h (by simpa using hd) e
  | suspend k => exact threadBelow_running h (by simpa using hd)
  | delay k => exact threadBelow_running h (by simpa using hd)
  | bind source frame => exact threadBelow_running h (by simpa [Driver.push] using hd)
  | map source f => exact threadBelow_running h (by simpa [Driver.push] using hd)
  | continueOn context source => exact threadBelow_running h (by simpa using hd)
  | async k =>
      cases d with
      | loop run =>
          exact threadBelow_resume (harmed.cons (by simp))
      | partially stack resume => exact hgives _ hd
  | parked inner stack =>
      cases d with
      | loop run =>
          exact threadBelow_resume ((harmed.cons (by simp)).cons (Activation.inner_of_loop? rfl))
      | partially stack resume => exact hgives _ hd
  | deferred context b =>
      cases d with
      | loop run =>
          exact threadBelow_submit harmed context _
      | partially stack resume => exact hgives _ hd
  | switchConnection source modify restore =>
      cases d with
      | loop run => exact threadBelow_running h (by simp)
      | partially stack resume => exact hgives _ hd

/-- A driver in front of a node does not change the thread below what waits. -/
theorem threadBelow_eval (h : AboveThread below w.thread rest) (hd : d.Inner) (node : Effect S) :
    (eval P w d node rest).ThreadBelow below := by
  cases d with
  | loop run =>
      simp only [eval]
      split
      · exact threadBelow_finish (w := w.report P _) h run _
      · exact threadBelow_reduce h hd node
  | partially stack resume => exact threadBelow_reduce h hd node

/-- A driver with a value does not change the thread below what waits. -/
theorem threadBelow_value (h : AboveThread below w.thread rest) (hd : d.Inner) (v : Value) :
    (value P w d v rest).ThreadBelow below := by
  simp only [value]
  split
  · exact threadBelow_running h (by simpa using hd)
  · exact threadBelow_yield h (by simpa using hd) v

/-- A region begins on the same thread. -/
theorem threadBelow_switched (h : AboveThread below w.thread rest) (run : Loop S)
    (source : Effect S) (restore : Option (Restorer S)) (new : Connection) :
    (switched w run source restore new rest).ThreadBelow below := by
  unfold switched
  split
  all_goals
    refine threadBelow_running ?_ (Activation.inner_of_loop? rfl)
    rwa [thread_followSwitch]

/-- A panic that is survived goes on as a failure, and one that is not in what waits. -/
theorem threadBelow_contain (h : AboveThread below w.thread rest) (payload : Payload)
    {recovered : World S σ → Failure → State S σ}
    (hrecovered : ∀ w e, AboveThread below w.thread rest → (recovered w e).ThreadBelow below) :
    (contain P w payload recovered rest).ThreadBelow below := by
  unfold contain
  split
  · exact hrecovered _ _ h
  · exact threadBelow_unwind h payload

/-- A panic in front of a driver does not change the thread below what waits. -/
theorem threadBelow_panicIn (h : AboveThread below w.thread rest) (hd : d.Inner)
    (payload : Payload) : (panicIn P w d payload rest).ThreadBelow below := by
  cases d with
  | loop run =>
      exact threadBelow_contain h payload fun w e h =>
        threadBelow_running h (Activation.inner_of_loop? rfl)
  | partially stack resume =>
      simp only [panicIn]
      split
      · exact threadBelow_running h (by simpa using hd)
      · exact threadBelow_running h (hd _)

/-- An answer to code does not change the thread. -/
theorem thread_answer (w : World S σ) (q : Query S σ) : (w.answer q).1.thread = w.thread := by
  cases q <;> rfl

/-- A step of code leaves the thread below what it is if what follows the end of the code does. -/
theorem threadBelow_wrap (hrest : AboveThread below w.thread rest) {α : Type} {h : Holder S σ α}
    {code : Code S σ α} (hinner : (h.wrap code).Inner) :
    (work P w rest (h.wrap code)).ThreadBelow below := by
  rw [work_wrap]
  cases code with
  | done a =>
      simp only [advance]
      cases h with
      | node d => exact threadBelow_running hrest (by simpa [Holder.wrap] using hinner)
      | outcome d =>
          cases a <;> exact threadBelow_running hrest (by simpa [Holder.wrap] using hinner)
      | switch run source restore => exact threadBelow_switched hrest run source restore a
      | owing cb => exact threadBelow_resume hrest
      | code => exact threadBelow_resume hrest
  | panic payload =>
      simp only [advance]
      cases h with
      | node d => exact threadBelow_panicIn hrest (by simpa [Holder.wrap] using hinner) payload
      | outcome d => exact threadBelow_panicIn hrest (by simpa [Holder.wrap] using hinner) payload
      | switch run source restore =>
          exact threadBelow_panicIn (d := .loop run) hrest trivial payload
      | owing cb => exact threadBelow_contain hrest payload fun w e h => threadBelow_complete h cb _
      | code => exact threadBelow_unwind hrest payload
  | query q next =>
      rw [← thread_answer w q] at hrest
      exact threadBelow_running hrest (hinner.wrap _)
  | command c next => exact threadBelow_begin (hrest.cons (hinner.wrap _)) c
  | step e next =>
      refine threadBelow_running hrest (Activation.inner_eval.mpr fun r => ?_)
      cases r <;> exact hinner.wrap _

end

variable {P : Program S σ}

/-- A step leaves the thread that is seen from below all activations as it is. -/
theorem ThreadBelow.next {s : State S σ} {below : String} (h : s.ThreadBelow below) :
    (s.next P).ThreadBelow below := by
  cases s with
  | returned w => exact h
  | unwound w payload => exact h
  | running w top rest =>
      obtain ⟨hopen, hrest⟩ := aboveThread_cons.mp h
      cases top with
      | thread outer => exact threadBelow_resume hrest
      | tokens pending =>
          cases pending with
          | nil => exact threadBelow_resume hrest
          | cons token pending => exact threadBelow_running (hrest.cons (by simp)) (by simp)
      | eval d node =>
          exact threadBelow_eval hrest (by simpa using hopen.resolve_right (by simp)) node
      | value d v => exact threadBelow_value hrest (by simpa using hopen.resolve_right (by simp)) v
      | node d code => exact threadBelow_wrap (h := .node d) hrest (hopen.resolve_right (by simp))
      | outcome d code =>
          exact threadBelow_wrap (h := .outcome d) hrest (hopen.resolve_right (by simp))
      | switch run source restore code =>
          exact threadBelow_wrap (h := .switch run source restore) hrest (by simp [Holder.wrap])
      | owing cb code => exact threadBelow_wrap (h := .owing cb) hrest (by simp [Holder.wrap])
      | code code => exact threadBelow_wrap (h := .code) hrest (by simp [Holder.wrap])

/-! ## Completions -/

/-- A completion does not change the thread. -/
theorem thread_complete (P : Program S σ) (w : World S σ) (cb : Callback) (o : Outcome)
    (rest : List (Activation S σ)) : (complete P w cb o rest).world.thread = w.thread := by
  unfold complete
  repeat' split
  all_goals first
    | rfl
    | simp [World.report]

/-- The end of a loop does not change the thread. -/
theorem thread_finish (P : Program S σ) (w : World S σ) (run : Loop S) (o : Outcome)
    (rest : List (Activation S σ)) : (finish P w run o rest).world.thread = w.thread := by
  have hdeliver : ∀ (w : World S σ) (t : Terminal S),
      (deliver P w t o rest).world.thread = w.thread := by
    intro w t
    cases t with
    | user k => rfl
    | complete cb => exact thread_complete P w cb o rest
  unfold finish
  repeat' split
  · exact hdeliver _ _
  · exact hdeliver _ _
  · simp
  · simp

/-- What completes a callback does so on its own thread. -/
theorem thread_work_of_completion (P : Program S σ) {w : World S σ} {top : Activation S σ}
    {cb : Callback} {o : Outcome} (h : top.completion? w = some (cb, o))
    (rest : List (Activation S σ)) : (work P w rest top).world.thread = w.thread := by
  have hcode : ∀ {α : Type} (holder : Holder S σ α) (code : Code S σ α),
      code.completion? = some (cb, o) →
      (work P w rest (holder.wrap code)).world.thread = w.thread := by
    intro α holder code hc
    obtain ⟨code', -, hwork⟩ := work_wrap_complete P w rest holder hc
    rw [hwork]
    exact thread_complete P w cb o _
  have hexit : ∀ (a : Activation S σ) (run : Loop S) (o : Outcome), a.loop? = some run →
      a.exit? w = some o → (work P w rest a).world.thread = w.thread := by
    intro a run o hrun ho
    obtain ⟨w', run', hwork, -, -, hthread⟩ := work_exit P rest hrun ho
    rw [hwork, thread_finish, hthread]
  cases top with
  | eval d n =>
      simp only [Activation.completion?] at h
      split at h
      · next run' o' hrun ho => exact hexit _ run' o' hrun ho
      · cases h
  | value d v =>
      simp only [Activation.completion?] at h
      split at h
      · next run' o' hrun ho => exact hexit _ run' o' hrun ho
      · cases h
  | node d code => exact hcode (.node d) code h
  | outcome d code => exact hcode (.outcome d) code h
  | switch run source restore code => exact hcode (.switch run source restore) code h
  | owing cb' code =>
      cases code with
      | panic payload =>
          simp only [Activation.completion?] at h
          split at h
          · next hp =>
              simp only [work, advance, contain, hp, if_true]
              exact thread_complete P _ cb' _ rest
          · cases h
      | _ => exact hcode (.owing cb') _ h
  | code code => exact hcode .code code h
  | tokens pending => cases h
  | thread outer => cases h

/-! ## The places on the control stack -/

/-- No activation of a state hides the bottom of a thread. -/
def Open (s : State S σ) : Prop :=
  ∀ a ∈ s.activations, a.Open

/-- In a state that hides no bottom of a thread, some thread is seen from below. -/
theorem Open.threadBelow {s : State S σ} (h : s.Open) :
    s.ThreadBelow (seen s.world.thread s.activations) :=
  ⟨h, rfl⟩

/-- A step hides no bottom of a thread. -/
theorem Open.next {s : State S σ} (h : s.Open) : (s.next P).Open :=
  h.threadBelow.next.1

/-- No state that the machine comes to hides the bottom of a thread. -/
theorem Reachable.isOpen {s : State S σ} (h : Reachable P s) : s.Open := by
  have hstart : ∀ (w : World S σ) (code : Code S σ Unit), (State.start w code).Open := by
    intro w code a ha
    rw [List.mem_singleton.mp ha]
    exact .inl (Activation.inner_code code)
  induction h with
  | start host thread code => exact hstart _ code
  | next h ih => exact ih.next
  | again h hs code ih => exact hstart _ code

/-- What happens above a place leaves its thread as it is. -/
theorem seen_next {s : State S σ} (h : s.Open) {above above' below below' : List (Activation S σ)}
    (place : s.activations = above ++ below) (place' : (s.next P).activations = above' ++ below')
    (hne : above ≠ []) (hlength : below'.length = below.length) :
    seen (s.next P).world.thread above' = seen s.world.thread above := by
  cases above with
  | nil => exact absurd rfl hne
  | cons a above =>
      cases s with
      | returned w => simp [activations] at place
      | unwound w payload => simp [activations] at place
      | running w top rest =>
          rw [activations_running, List.cons_append, List.cons.injEq] at place
          obtain ⟨rfl, rfl⟩ := place
          -- The step is the same with nothing below, and there the thread below is the same.
          have hbelow : ((running w top above).next P).ThreadBelow (seen w.thread (top :: above)) :=
            ThreadBelow.next ⟨fun b hb => h b (by
              rw [activations_running] at hb ⊢
              exact List.mem_append_left below hb), rfl⟩
          have honto := next_onto P below w top above
          rw [running_onto] at honto
          rw [honto] at place' ⊢
          rw [world_onto]
          generalize (running w top above).next P = s' at place' hbelow ⊢
          suffices hsplit : above' = s'.activations by
            rw [hsplit]
            exact hbelow.2
          cases s' with
          | running w' top' above'' =>
              have happend : above' ++ below' = (running w' top' above'').activations ++ below := by
                rw [← place']
                rfl
              exact (List.append_inj' happend hlength).1
          | returned w' =>
              have hlen := congrArg List.length place'
              rw [length_activations_onto, List.length_append] at hlen
              exact List.eq_nil_of_length_eq_zero (by simp [activations] at hlen; omega)
          | unwound w' payload =>
              have hlen := congrArg List.length place'
              rw [length_activations_onto, List.length_append] at hlen
              exact List.eq_nil_of_length_eq_zero (by simp [activations] at hlen; omega)

/-- As long as there is something in a place, it has the same thread: when what was on top is on
top again, or what its code has become is, the machine is on the same thread. -/
theorem thread_run {w w' : World S σ} {top top' : Activation S σ}
    {rest rest' : List (Activation S σ)}
    (h : (running w top rest).Open) (htop : top.Inner) {n : Nat}
    (hstays : ∀ m < n, rest.length < (run P m (running w top rest)).activations.length)
    (hn : run P n (running w top rest) = running w' top' rest')
    (hlength : rest'.length = rest.length) (htop' : top'.Inner) : w'.thread = w.thread := by
  have hplace : ∀ m ≤ n, (run P m (running w top rest)).Open ∧
      ∀ above below, (run P m (running w top rest)).activations = above ++ below →
        below.length = rest.length → seen (run P m (running w top rest)).world.thread above =
          w.thread := by
    intro m hm
    induction m with
    | zero =>
        refine ⟨h, fun above below hsplit hbelow => ?_⟩
        have hsplit' : [top] ++ rest = above ++ below := hsplit
        obtain ⟨rfl, rfl⟩ := List.append_inj' hsplit' hbelow.symm
        exact htop.under_eq _
    | succ m ih =>
        obtain ⟨hopen, hseen⟩ := ih (by omega)
        refine ⟨?_, fun above below hsplit hbelow => ?_⟩
        · rw [run_succ']
          exact hopen.next
        · rw [run_succ'] at hsplit ⊢
          have hlt := hstays m (by omega)
          generalize run P m (running w top rest) = s at hopen hseen hsplit hlt ⊢
          have hdrop : (s.activations.drop (s.activations.length - rest.length)).length =
              rest.length := by
            rw [List.length_drop]
            omega
          have hparts := (List.take_append_drop (s.activations.length - rest.length)
            s.activations).symm
          rw [seen_next hopen hparts hsplit (fun hnil => ?_) (by rw [hdrop, hbelow])]
          · exact hseen _ _ hparts hdrop
          · have hzero := congrArg List.length hnil
            rw [List.length_take, List.length_nil] at hzero
            omega
  have hend := (hplace n (Nat.le_refl n)).2 [top'] rest' (by rw [hn]; rfl) hlength
  rw [hn] at hend
  rw [← hend]
  exact (htop'.under_eq _).symm

end State

end Trampoline
