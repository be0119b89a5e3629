import Trampoline.Machine

/-!
# Activations and their code

An activation runs a piece of code for somebody who waits for its result, or takes an
effect apart for a loop or a partial evaluation.  The lemmas here say what stays the same
about an activation while its code goes on: who waits for the result, and which loop it
is the work of.

Main definitions and results:

- Definition `Code.Returns`: what holds of the result of a piece of code, however its
  requests are answered.
- Definition `Holder`: what waits for the result of a piece of code.
- Definition `Activation.Every`: a property of an activation that may be hidden behind a
  partial evaluation.
- Definition `Activation.Idle`: an activation is none of the work of a run.
- Theorem `State.work_wrap`: one step of code is the same for all holders.
-/

namespace Trampoline

variable {S : Closures} {σ : Type}

/-! ## Code in progress -/

namespace Code

variable {α β : Type}

/-- What may be left of a piece of code after a step of the machine. -/
inductive Later : Code S σ α → Code S σ α → Prop
  | answered (q : Query S σ) (next : q.Answer → Code S σ α) (a : q.Answer) :
      Later (.query q next) (next a)
  | returned (c : Command S) (next : Unit → Code S σ α) : Later (.command c next) (next ())
  | stepped (e : Effect S) (next : Effect S → Code S σ α) (residual : Effect S) :
      Later (.step e next) (next residual)
  | panicked (code : Code S σ α) (payload : Payload) : Later code (.panic payload)

/-- Whatever the requests of a piece of code are answered with, its result, if it has one,
has the property. -/
def Returns (p : α → Prop) : Code S σ α → Prop
  | done a => p a
  | panic _ => True
  | query _ next => ∀ a, (next a).Returns p
  | command _ next => (next ()).Returns p
  | step _ next => ∀ residual, (next residual).Returns p

/-- What is left of a piece of code returns what the piece returns. -/
theorem Returns.later {p : α → Prop} {code code' : Code S σ α} (h : code.Returns p)
    (hl : code.Later code') : code'.Returns p := by
  cases hl with
  | answered q next a => exact h a
  | returned c next => exact h
  | stepped e next residual => exact h residual
  | panicked code payload => trivial

/-- Results with a property have every property that follows from it. -/
theorem Returns.mono {p p' : α → Prop} (h : ∀ a, p a → p' a) {code : Code S σ α}
    (hc : code.Returns p) : code.Returns p' := by
  induction code with
  | done a => exact h a hc
  | panic payload => trivial
  | query q next ih => exact fun a => ih a (hc a)
  | command c next ih => exact ih () hc
  | step e next ih => exact fun residual => ih residual (hc residual)

/-- Some answers to its requests let a piece of code come back with a result. -/
inductive CanReturn : Code S σ α → α → Prop
  | done (a : α) : CanReturn (.done a) a
  | query {q : Query S σ} {next : q.Answer → Code S σ α} {a : α} (answer : q.Answer)
      (h : CanReturn (next answer) a) : CanReturn (.query q next) a
  | command {c : Command S} {next : Unit → Code S σ α} {a : α} (h : CanReturn (next ()) a) :
      CanReturn (.command c next) a
  | step {e : Effect S} {next : Effect S → Code S σ α} {a : α} (residual : Effect S)
      (h : CanReturn (next residual) a) : CanReturn (.step e next) a

/-- What a piece of code may come back with: a result, or the failure of a panic. -/
def ComesTo (code : Code S σ α) : Except Failure α → Prop
  | .ok a => code.CanReturn a
  | .error e => ∃ payload : Payload, e = .panicked payload.describe

/-- A piece of code returns only what it can return. -/
theorem returns_canReturn (code : Code S σ α) : code.Returns code.CanReturn := by
  induction code with
  | done a => exact .done a
  | panic payload => trivial
  | query q next ih => exact fun a => (ih a).mono fun _ h => .query a h
  | command c next ih => exact (ih ()).mono fun _ h => .command h
  | step e next ih => exact fun residual => (ih residual).mono fun _ h => .step residual h

/-- What a piece of code can return has the property that its results have. -/
theorem Returns.of_canReturn {p : α → Prop} {code : Code S σ α} (h : code.Returns p) {a : α}
    (ha : code.CanReturn a) : p a := by
  induction ha with
  | done a => exact h
  | query answer _ ih => exact ih (h answer)
  | command _ ih => exact ih h
  | step residual _ ih => exact ih (h residual)

/-- What follows a piece of code returns what it makes of a result of the piece. -/
theorem returns_bind {p : β → Prop} {f : α → Code S σ β} {code : Code S σ α}
    (hc : code.Returns fun a => (f a).Returns p) : (code.bind f).Returns p := by
  induction code with
  | done a => exact hc
  | panic payload => trivial
  | query q next ih => exact fun a => ih a (hc a)
  | command c next ih => exact ih () hc
  | step e next ih => exact fun residual => ih residual (hc residual)

end Code

/-- What waits for the result of a piece of code. -/
inductive Holder (S : Closures) (σ : Type) : Type → Type where
  | node (d : Driver S σ) : Holder S σ (Effect S)
  | outcome (d : Driver S σ) : Holder S σ Outcome
  | switch (run : Loop S) (source : Effect S) (restore : Option (Restorer S)) :
      Holder S σ Connection
  | owing (cb : Callback) : Holder S σ Unit
  | code : Holder S σ Unit

namespace Holder

variable {α : Type}

/-- The activation in which the code runs. -/
def wrap : Holder S σ α → Code S σ α → Activation S σ
  | node d => .node d
  | outcome d => .outcome d
  | switch run source restore => .switch run source restore
  | owing cb => .owing cb
  | code => .code

/-- What follows the result of the code. -/
def finish (w : World S σ) (rest : List (Activation S σ)) : Holder S σ α → α → State S σ
  | node d, e => .running w (.eval d e) rest
  | outcome d, .ok v => .running w (.value d v) rest
  | outcome d, .error e => .running w (.eval d (.fail e)) rest
  | switch run source restore, new => .switched w run source restore new rest
  | owing _, _ => .resume w rest
  | code, _ => .resume w rest

/-- What follows a panic of the code. -/
def escape (P : Program S σ) (w : World S σ) (rest : List (Activation S σ)) :
    Holder S σ α → Payload → State S σ
  | node d, payload => .panicIn P w d payload rest
  | outcome d, payload => .panicIn P w d payload rest
  | switch run _ _, payload => .panicIn P w (.loop run) payload rest
  | owing cb, payload =>
    .contain P w payload (fun w e => .complete P w cb (.error e) rest) rest
  | code, payload => .unwind w payload rest

end Holder

/-- Work on a piece of code is the same whatever waits for its result. -/
theorem State.work_wrap {α : Type} (P : Program S σ) (w : World S σ)
    (rest : List (Activation S σ)) (h : Holder S σ α) (code : Code S σ α) :
    State.work P w rest (h.wrap code) =
      State.advance P w rest h.wrap (h.finish w rest) (h.escape P w rest) code := by
  cases h with
  | outcome d =>
      cases code with
      | done o => cases o <;> rfl
      | panic payload => rfl
      | query q next => rfl
      | command c next => rfl
      | step e next => rfl
  | node d => rfl
  | switch run source restore => rfl
  | owing cb => rfl
  | code => rfl

/-! ## The loops on the control stack -/

namespace Activation

/-- The run loop that an activation is the work of. -/
def loop? : Activation S σ → Option (Loop S)
  | .eval (.loop run) _ | .value (.loop run) _ | .node (.loop run) _ | .outcome (.loop run) _ =>
    some run
  | .switch run _ _ _ => some run
  | _ => none

/-- A property of an activation, or, where a partial evaluation stands in front of it, of
all that may take its place when the partial evaluation has ended. -/
def Every (φ : Activation S σ → Prop) : Activation S σ → Prop
  | .eval (.partially _ resume) _ => ∀ r, Every φ (resume r)
  | .value (.partially _ resume) _ => ∀ r, Every φ (resume r)
  | .node (.partially _ resume) _ => ∀ r, Every φ (resume r)
  | .outcome (.partially _ resume) _ => ∀ r, Every φ (resume r)
  | a => φ a

/-- A property that does not depend on how far the code of an activation has come. -/
def Stable (φ : Activation S σ → Prop) : Prop :=
  ∀ {α : Type} (h : Holder S σ α) (code code' : Code S σ α),
    code.Later code' → φ (h.wrap code) → φ (h.wrap code')

/-- An activation is not the work of a loop of the run with this bridge. -/
def Idle (i : Nat) (a : Activation S σ) : Prop :=
  a.Every fun a => ∀ run, a.loop? = some run → run.outlet ≠ .bridge i

/-- A property that follows from another holds wherever that does. -/
theorem Every.mono {φ ψ : Activation S σ → Prop} (h : ∀ a, φ a → ψ a) :
    (a : Activation S σ) → a.Every φ → a.Every ψ
  | .eval (.partially _ resume) _, ha => fun r => mono h (resume r) (ha r)
  | .value (.partially _ resume) _, ha => fun r => mono h (resume r) (ha r)
  | .node (.partially _ resume) _, ha => fun r => mono h (resume r) (ha r)
  | .outcome (.partially _ resume) _, ha => fun r => mono h (resume r) (ha r)
  | .eval (.loop _) _, ha | .value (.loop _) _, ha | .node (.loop _) _, ha
  | .outcome (.loop _) _, ha | .switch _ _ _ _, ha | .owing _ _, ha | .code _, ha
  | .tokens _, ha | .thread _, ha => h _ ha

/-- Two properties of an activation, which may be hidden, hold of one that is in view. -/
theorem Every.both {φ ψ : Activation S σ → Prop} :
    (a : Activation S σ) → a.Every φ → a.Every ψ → ∃ b, φ b ∧ ψ b
  | .eval (.partially _ resume) _, ha, hb => both (resume (.ok .unit)) (ha _) (hb _)
  | .value (.partially _ resume) _, ha, hb => both (resume (.ok .unit)) (ha _) (hb _)
  | .node (.partially _ resume) _, ha, hb => both (resume (.ok .unit)) (ha _) (hb _)
  | .outcome (.partially _ resume) _, ha, hb => both (resume (.ok .unit)) (ha _) (hb _)
  | .eval (.loop _) _, ha, hb | .value (.loop _) _, ha, hb | .node (.loop _) _, ha, hb
  | .outcome (.loop _) _, ha, hb | .switch _ _ _ _, ha, hb | .owing _ _, ha, hb
  | .code _, ha, hb | .tokens _, ha, hb | .thread _, ha, hb => ⟨_, ha, hb⟩

/-- The work of a loop is in view. -/
theorem every_iff_of_loop? {φ : Activation S σ → Prop} {a : Activation S σ} {run : Loop S}
    (h : a.loop? = some run) : a.Every φ ↔ φ a := by
  cases a with
  | eval d n => cases d <;> first | exact Iff.rfl | cases h
  | value d v => cases d <;> first | exact Iff.rfl | cases h
  | node d code => cases d <;> first | exact Iff.rfl | cases h
  | outcome d code => cases d <;> first | exact Iff.rfl | cases h
  | switch run source restore code => exact Iff.rfl
  | _ => cases h

/-- A loop leaves a bridge alone if and only if its run has its outlet elsewhere. -/
theorem idle_iff_of_loop? {i : Nat} {a : Activation S σ} {run : Loop S} (h : a.loop? = some run) :
    a.Idle i ↔ run.outlet ≠ .bridge i := by
  refine (every_iff_of_loop? h).trans ⟨fun hidle => hidle run h, fun hout run' hrun' => ?_⟩
  rw [h, Option.some.injEq] at hrun'
  exact hrun' ▸ hout

/-- A stable property of an activation stays with it while its code runs. -/
theorem Every.later {φ : Activation S σ → Prop} (hφ : Stable φ) {α : Type} (h : Holder S σ α)
    {code code' : Code S σ α} (hl : code.Later code') (ha : (h.wrap code).Every φ) :
    (h.wrap code').Every φ := by
  cases h with
  | node d => cases d with
    | loop run => exact hφ (.node (.loop run)) code code' hl ha
    | partially stack resume => exact ha
  | outcome d => cases d with
    | loop run => exact hφ (.outcome (.loop run)) code code' hl ha
    | partially stack resume => exact ha
  | switch run source restore => exact hφ (.switch run source restore) code code' hl ha
  | owing cb => exact hφ (.owing cb) code code' hl ha
  | code => exact hφ .code code code' hl ha

/-- A run that has ended is no loop, whatever it owes. -/
@[simp]
theorem idle_owing (i : Nat) (cb : Callback) (code : Code S σ Unit) :
    (Activation.owing cb code).Idle i := by
  intro run hr
  cases hr

/-- Code outside any run is no loop. -/
@[simp]
theorem idle_code (i : Nat) (code : Code S σ Unit) : (Activation.code code).Idle i := by
  intro run hr
  cases hr

/-- The tokens of a cancellation are no loop. -/
@[simp]
theorem idle_tokens (i : Nat) (pending : List S.Token) :
    (Activation.tokens pending : Activation S σ).Idle i := by
  intro run hr
  cases hr

/-- The end of a thread is no loop. -/
@[simp]
theorem idle_thread (i : Nat) (outer : String) :
    (Activation.thread outer : Activation S σ).Idle i := by
  intro run hr
  cases hr

/-- A switch of the connection is work of the loop it was asked by. -/
@[simp]
theorem idle_switch {i : Nat} {run : Loop S} {source : Effect S} {restore : Option (Restorer S)}
    {code : Code S σ Connection} :
    (Activation.switch run source restore code).Idle i ↔ run.outlet ≠ .bridge i := by
  constructor
  · intro h
    exact h run rfl
  · intro h run' hr
    cases hr
    exact h

end Activation

/-- A driver is not a loop of the run with this bridge, and hides none. -/
def Driver.Idle (i : Nat) : Driver S σ → Prop
  | .loop run => run.outlet ≠ .bridge i
  | .partially _ resume => ∀ r, (resume r).Idle i

namespace Driver

/-- The driver of a run leaves a bridge alone if and only if the run has its outlet elsewhere. -/
@[simp]
theorem idle_loop {i : Nat} {run : Loop S} :
    (Driver.loop run : Driver S σ).Idle i ↔ run.outlet ≠ .bridge i :=
  Iff.rfl

/-- The frames of a driver do not matter to whose loop it is. -/
@[simp]
theorem idle_withStack {i : Nat} {d : Driver S σ} {stack : CallStack (Frame S)} :
    (d.withStack stack).Idle i ↔ d.Idle i := by
  cases d <;> rfl

/-- A pushed frame does not change whose loop a driver is. -/
@[simp]
theorem idle_push {i : Nat} {d : Driver S σ} {frame : Frame S} :
    (d.push frame).Idle i ↔ d.Idle i :=
  idle_withStack

end Driver

namespace Activation

/-- Work leaves a bridge alone as its driver does, where it is so for a loop and for a partial
evaluation. -/
private theorem idle_driver_iff {i : Nat} {d : Driver S σ} (act : Driver S σ → Activation S σ)
    (hloop : ∀ run, (act (.loop run)).Idle i ↔ run.outlet ≠ .bridge i)
    (hpart : ∀ stack resume, (act (.partially stack resume)).Idle i ↔
      ∀ r, (resume r).Idle i) : (act d).Idle i ↔ d.Idle i := by
  cases d with
  | loop run => exact hloop run
  | partially stack resume => exact hpart stack resume

/-- The evaluation of a node is a loop as its driver is. -/
@[simp]
theorem idle_eval {i : Nat} {d : Driver S σ} {node : Effect S} :
    (Activation.eval d node).Idle i ↔ d.Idle i :=
  idle_driver_iff (fun d => .eval d node)
    (fun _ => ⟨fun h => h _ rfl, fun h _ hr => Option.some.inj hr ▸ h⟩) fun _ _ => Iff.rfl

/-- A value is handed on in a loop as its driver is. -/
@[simp]
theorem idle_value {i : Nat} {d : Driver S σ} {v : Value} :
    (Activation.value d v).Idle i ↔ d.Idle i :=
  idle_driver_iff (fun d => .value d v)
    (fun _ => ⟨fun h => h _ rfl, fun h _ hr => Option.some.inj hr ▸ h⟩) fun _ _ => Iff.rfl

/-- The code that comes to a node is called by a loop as its driver is. -/
@[simp]
theorem idle_node {i : Nat} {d : Driver S σ} {code : Code S σ (Effect S)} :
    (Activation.node d code).Idle i ↔ d.Idle i :=
  idle_driver_iff (fun d => .node d code)
    (fun _ => ⟨fun h => h _ rfl, fun h _ hr => Option.some.inj hr ▸ h⟩) fun _ _ => Iff.rfl

/-- The code that comes to an outcome is called by a loop as its driver is. -/
@[simp]
theorem idle_outcome {i : Nat} {d : Driver S σ} {code : Code S σ Outcome} :
    (Activation.outcome d code).Idle i ↔ d.Idle i :=
  idle_driver_iff (fun d => .outcome d code)
    (fun _ => ⟨fun h => h _ rfl, fun h _ hr => Option.some.inj hr ▸ h⟩) fun _ _ => Iff.rfl

/-- A panic does not change whose work an activation is. -/
theorem Idle.panicking {i : Nat} {a : Activation S σ} (h : a.Idle i) (payload : Payload) :
    (a.panicking payload).Idle i := by
  cases a <;> simp_all [Activation.panicking]

end Activation

/-- What waits behind the partial evaluation that an activation is the work of. -/
def Activation.behind? : Activation S σ → Option (Except Payload (Effect S) → Activation S σ)
  | .eval (.partially _ resume) _ | .value (.partially _ resume) _
  | .node (.partially _ resume) _ | .outcome (.partially _ resume) _ => some resume
  | _ => none

/-- An activation that may wait for others: it has code that asked for something. -/
def Activation.Waits : Activation S σ → Prop
  | .node _ _ | .outcome _ _ | .switch _ _ _ _ | .owing _ _ | .code _ => True
  | _ => False

/-- An activation may wait for others while its code runs. -/
@[simp]
theorem Activation.waits_wrap {α : Type} (h : Holder S σ α) (code : Code S σ α) :
    (h.wrap code).Waits := by
  cases h <;> trivial

/-- A panic from above is one more thing that may happen to the code of an activation that
waits. -/
theorem Activation.Every.panicking {φ : Activation S σ → Prop} (hφ : Stable φ)
    {a : Activation S σ} (ha : a.Every φ) (hw : a.Waits) (payload : Payload) :
    (a.panicking payload).Every φ := by
  cases a with
  | node d code => exact ha.later hφ (.node d) (.panicked code payload)
  | outcome d code => exact ha.later hφ (.outcome d) (.panicked code payload)
  | switch run source restore code =>
      exact ha.later hφ (.switch run source restore) (.panicked code payload)
  | owing cb code => exact ha.later hφ (.owing cb) (.panicked code payload)
  | code code => exact ha.later hφ .code (.panicked code payload)
  | _ => exact hw.elim

/-! ## The control stack of a state -/

namespace State

/-- The activations on the control stack, the working one first. -/
def activations : State S σ → List (Activation S σ)
  | running _ top rest => top :: rest
  | returned _ | unwound _ _ => []

/-- A running state has its top above the rest. -/
@[simp]
theorem activations_running (w : World S σ) (top : Activation S σ)
    (rest : List (Activation S σ)) : (running w top rest).activations = top :: rest :=
  rfl

/-- Nothing is left of a stack that has returned. -/
@[simp]
theorem activations_returned (w : World S σ) : (returned w).activations = [] :=
  rfl

/-- Nothing is left of a stack that has been unwound. -/
@[simp]
theorem activations_unwound (w : World S σ) (payload : Payload) :
    (unwound w payload).activations = [] :=
  rfl

/-- How a machine has come to its end. -/
def end? : State S σ → Option (Except Payload Unit)
  | running _ _ _ => none
  | returned _ => some (.ok ())
  | unwound _ payload => some (.error payload)

/-- A state has ended if and only if nothing is left of its stack. -/
theorem end?_eq_none_iff {s : State S σ} : s.end? = none ↔ s.activations ≠ [] := by
  cases s <;> simp [end?]

/-- What is resumed is what was below. -/
@[simp]
theorem activations_resume (w : World S σ) (rest : List (Activation S σ)) :
    (resume w rest).activations = rest := by
  cases rest <;> rfl

/-- A panic is met by the topmost activation, the others wait. -/
@[simp]
theorem activations_unwind_cons (w : World S σ) (payload : Payload) (a : Activation S σ)
    (rest : List (Activation S σ)) :
    (unwind w payload (a :: rest)).activations = a.panicking payload :: rest :=
  rfl

/-- The world of a running state. -/
@[simp]
theorem world_running (w : World S σ) (top : Activation S σ) (rest : List (Activation S σ)) :
    (running w top rest).world = w :=
  rfl

/-- A return to the activation below leaves the world. -/
@[simp]
theorem world_resume (w : World S σ) (rest : List (Activation S σ)) :
    (resume w rest).world = w := by
  cases rest <;> rfl

/-- A panic leaves the world. -/
@[simp]
theorem world_unwind (w : World S σ) (payload : Payload) (rest : List (Activation S σ)) :
    (unwind w payload rest).world = w := by
  cases rest <;> rfl

end State

end Trampoline
