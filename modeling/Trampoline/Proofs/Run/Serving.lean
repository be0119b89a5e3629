import Trampoline.Proofs.Machine.Place
import Trampoline.Proofs.Run.Story

/-!
# Activations that work for a run

An activation that works for a run either stands for an evaluation, if the loop has the
turn, or serves a question, if code of the host does.  This file says which evaluation and
which question, node by node and frame by frame.

Main definitions and results:

- Definition `Stands`: the evaluation that a loop in its turn stands for.
- Definition `Question.Yields`: what the code of a question may come back with.
- Definition `Activation.Serves`: code that works on the answer to a question.
- Theorem `Activation.stable_serves`: it does so until it has the answer.
- Theorems `Frame.resolves`, `Modifier.chooses`: the code that the machine starts is the
  code of the question that the evaluator asks.
-/

namespace Trampoline

variable {S : Closures} {σ : Type}

/-! ## Loops in their turn -/

/-- The evaluation that a loop in its turn stands for, apart from the pending frames. -/
inductive Stands : Activation S σ → Loop S → Course S → Prop
  | eval (run : Loop S) (e : Effect S) :
      Stands (.eval (.loop run) e) run (.eval run.connection e)
  | value (run : Loop S) (v : Value) :
      Stands (.value (.loop run) v) run (.exit run.connection (.ok v))
  | node (run : Loop S) (e : Effect S) :
      Stands (.node (.loop run) (.done e)) run (.eval run.connection e)
  | switch (run : Loop S) (source : Effect S) (restore : Option (Restorer S))
      (new : Connection) :
      Stands (.switch run source restore (.done new)) run
        (.region source restore run.connection new)

/-- A loop in its turn is one. -/
theorem Stands.loop?_eq {act : Activation S σ} {run : Loop S} {m : Course S}
    (h : Stands act run m) : act.loop? = some run := by
  cases h <;> rfl

/-! ## Code that serves a question -/

/-- The code of a question may come back with this answer.  Nothing is said of questions
whose answer is no result of code. -/
def Question.Yields (P : Program S σ) : (q : Question S) → q.Answer → Prop
  | thunk k, a => (P.thunk k).ComesTo a
  | delay k, a => ∃ r, (P.delay k).ComesTo r ∧ a = r.bind id
  | bind k v, a => (P.bind k v).ComesTo a
  | map k v, a => (P.map k v).ComesTo a
  | handler k e, a => (P.handler k e).ComesTo a
  | rescue k e, a => (P.rescue k e).ComesTo a
  | modify k c, a => (P.modify k c).ComesTo a
  | restore k exit old c, a => (P.restore k exit old c).ComesTo a
  | canceled _, _ | async _ _, _ | parked _ _ _, _ | deferred _ _ _, _ => True

namespace Holder

variable {α : Type}

/-- The loop that waits for the result of the code. -/
def loop? : Holder S σ α → Option (Loop S)
  | node (.loop run) | outcome (.loop run) => some run
  | switch run _ _ => some run
  | _ => none

/-- The code works for the loop of the activation that holds it. -/
theorem loop?_wrap (h : Holder S σ α) (code : Code S σ α) : (h.wrap code).loop? = h.loop? := by
  cases h with
  | node d => cases d <;> rfl
  | outcome d => cases d <;> rfl
  | _ => rfl

/-- The reply in the result of the code. -/
def reply : Holder S σ α → Except Failure α → Reply S
  | node _, r => .node r
  | outcome _, r => .outcome (r.bind id)
  | switch _ _ _, r => .connection r
  | owing _, _ | code, _ => .outcome (.ok .null)

/-- The evaluation that a loop goes on with after the result of the code. -/
def course (run : Loop S) : Holder S σ α → α → Course S
  | node _, e => .eval run.connection e
  | outcome _, o => .result run.connection o
  | switch _ source restore, new => .region source restore run.connection new
  | owing _, _ | code, _ => .abort

/-- The run does not suspend for the answer to the question.  Whatever the code comes back
with is an answer that the code of the question may give, and the evaluation that has asked
the question goes on with it as the loop does. -/
structure Serves (P : Program S σ) (run : Loop S) (q : Question S) (next : q.Answer → Course S)
    (h : Holder S σ α) (piece : Code S σ α) : Prop where
  loop : h.loop? = some run
  calls : ¬q.Suspends
  returns : piece.Returns fun a => next (q.read (h.reply (.ok a))) = h.course run a ∧
    q.Yields P (q.read (h.reply (.ok a)))
  fails : ∀ e, next (q.read (h.reply (.error e))) = .eval run.connection (.fail e)
  panics : ∀ payload : Payload, q.Yields P (q.read (h.reply (.error (.panicked payload.describe))))

end Holder

namespace Activation

/-- An activation in which code works on the answer to a question of a loop. -/
def Serves (P : Program S σ) (run : Loop S) (q : Question S) (next : q.Answer → Course S) :
    Activation S σ → Prop
  | .node d piece => (Holder.node d).Serves P run q next piece
  | .outcome d piece => (Holder.outcome d).Serves P run q next piece
  | .switch run' source restore piece =>
    (Holder.switch run' source restore).Serves P run q next piece
  | _ => False

variable {P : Program S σ} {run : Loop S} {q : Question S} {next : q.Answer → Course S}
  {α : Type}

/-- An activation serves a question of a loop if its holder serves it with the code. -/
theorem serves_wrap {h : Holder S σ α} {code : Code S σ α} :
    (h.wrap code).Serves P run q next ↔ h.Serves P run q next code := by
  cases h with
  | owing cb => exact ⟨False.elim, fun hs => nomatch hs.loop⟩
  | code => exact ⟨False.elim, fun hs => nomatch hs.loop⟩
  | _ => exact Iff.rfl

/-- Code serves its question until it has the answer. -/
theorem stable_serves (P : Program S σ) (run : Loop S) (q : Question S)
    (next : q.Answer → Course S) : Stable (Serves P run q next) := by
  intro α h code code' hl hs
  rw [serves_wrap] at hs ⊢
  exact ⟨hs.loop, hs.calls, hs.returns.later hl, hs.fails, hs.panics⟩

/-- An activation that serves a question is code that a loop waits for. -/
theorem Serves.wrap {a : Activation S σ} (hs : a.Serves P run q next) :
    ∃ (α : Type) (h : Holder S σ α) (code : Code S σ α), a = h.wrap code ∧
      h.Serves P run q next code := by
  cases a with
  | node d code => exact ⟨_, .node d, code, rfl, hs⟩
  | outcome d code => exact ⟨_, .outcome d, code, rfl, hs⟩
  | switch run' source restore code => exact ⟨_, .switch run' source restore, code, rfl, hs⟩
  | _ => exact hs.elim

/-- An activation that serves a question of a loop is in view. -/
theorem Serves.every {a : Activation S σ} (hs : a.Serves P run q next) :
    a.Every (Serves P run q next) := by
  cases a with
  | node d code => cases d with
    | loop run' => exact hs
    | partially stack resume => cases hs.1
  | outcome d code => cases d with
    | loop run' => exact hs
    | partially stack resume => cases hs.1
  | switch run' source restore code => exact hs
  | _ => exact hs.elim

/-- An activation that serves a question works for the loop. -/
theorem Serves.loop?_eq {a : Activation S σ} (hs : a.Serves P run q next) :
    a.loop? = some run := by
  cases a with
  | node d code => cases d <;> exact hs.1
  | outcome d code => cases d <;> exact hs.1
  | switch run' source restore code => exact hs.1
  | _ => exact hs.elim

/-- What has a property is in view, or behind a partial evaluation. -/
theorem Every.cases {φ : Activation S σ → Prop} {a : Activation S σ} (ha : a.Every φ) :
    φ a ∨ ∃ resume, a.behind? = some resume := by
  cases a with
  | eval d n => cases d with
    | loop run => exact .inl ha
    | partially stack resume => exact .inr ⟨resume, rfl⟩
  | value d v => cases d with
    | loop run => exact .inl ha
    | partially stack resume => exact .inr ⟨resume, rfl⟩
  | node d code => cases d with
    | loop run => exact .inl ha
    | partially stack resume => exact .inr ⟨resume, rfl⟩
  | outcome d code => cases d with
    | loop run => exact .inl ha
    | partially stack resume => exact .inr ⟨resume, rfl⟩
  | _ => exact .inl ha

/-- A partial evaluation is no loop. -/
theorem loop?_of_behind? {a : Activation S σ}
    {resume : Except Payload (Effect S) → Activation S σ} (h : a.behind? = some resume) :
    a.loop? = none := by
  cases a with
  | eval d n => cases d <;> first | rfl | cases h
  | value d v => cases d <;> first | rfl | cases h
  | node d code => cases d <;> first | rfl | cases h
  | outcome d code => cases d <;> first | rfl | cases h
  | _ => cases h

end Activation

/-! ## The code of frames and of modifiers -/

/-- The code of a frame on an exit. -/
def Program.resolve (P : Program S σ) (frame : Frame S) (o : Outcome) : Code S σ (Effect S) :=
  match o with
  | .ok v => P.apply frame v
  | .error e => P.recover frame e

section Codes

variable (P : Program S σ) (run : Loop S)

/-- The code that the machine starts yields a node at once, with which the evaluation goes
on, or it is the code of the question that the evaluation asks. -/
inductive Resolves : Code S σ (Effect S) → Option (Question S) → Course S → Prop
  | done (e : Effect S) : Resolves (.done e) none (.eval run.connection e)
  | asks {code : Code S σ (Effect S)} {q : Question S} {next : q.Answer → Course S}
      (h : (Activation.node (.loop run) code).Serves P run q next) :
      Resolves code (some q) (.ask q next)

/-- Code that yields the node for a question serves the question. -/
theorem Resolves.node {q : Question S} {next : q.Answer → Course S}
    (code : Code S σ (Effect S)) (hcalls : ¬q.Suspends)
    (hnext : ∀ r, next (q.read (.node r)) = Course.node run.connection r)
    (hyields : ∀ r, code.ComesTo r → q.Yields P (q.read (.node r))) :
    Resolves P run code (some q) (.ask q next) :=
  .asks ⟨rfl, hcalls, code.returns_canReturn.mono fun e he => ⟨hnext (.ok e), hyields (.ok e) he⟩,
    fun e => hnext (.error e), fun payload => hyields (.error _) ⟨payload, rfl⟩⟩

/-- Code that makes the node of a value serves a question for the value. -/
theorem Resolves.value {q : Question S} {next : q.Answer → Course S} (code : Code S σ Value)
    (hcalls : ¬q.Suspends)
    (hnext : ∀ r : Outcome, next (q.read (.node (r.map Effect.pure))) =
      Course.completion run.connection r)
    (hyields : ∀ r : Outcome, code.ComesTo r → q.Yields P (q.read (.node (r.map Effect.pure)))) :
    Resolves P run (code.bind fun v => .done (.pure v)) (some q) (.ask q next) := by
  refine .asks ⟨rfl, hcalls, Code.returns_bind (code.returns_canReturn.mono fun v hv => ?_),
    fun e => hnext (.error e), fun payload => hyields (.error _) ⟨payload, rfl⟩⟩
  exact ⟨hnext (.ok v), hyields (.ok v) hv⟩

/-- A binder asks its question, and goes on with the answer. -/
theorem Binder.resolves (f : Binder S) (v : Value) :
    Resolves P run (P.bindWith f v) (f.question? v) (f.move run.connection v) := by
  cases f with
  | user k => exact .node P run _ id (fun r => by cases r <;> rfl) fun r hr => hr
  | pure => exact .done _
  | shift context => exact .done _

/-- A handler asks its question, and goes on with the answer. -/
theorem Recovery.resolves (h : Recovery S) (e : Failure) :
    Resolves P run (P.recoverWith h e) (h.question? e) (h.move run.connection e) := by
  cases h with
  | user k => exact .node P run _ id (fun r => by cases r <;> rfl) fun r hr => hr
  | rescue k =>
      exact .value P run _ id (fun r => by cases r <;> rfl) fun r hr => by cases r <;> exact hr
  | reify => exact .done _

/-- The code of a frame on an exit that it takes does what the evaluator does with both. -/
theorem Frame.resolves {frame : Frame S} {o : Outcome} (h : frame.takes o = true) :
    Resolves P run (P.resolve frame o) (frame.question? o) (frame.move run.connection o) := by
  cases o with
  | ok v =>
      cases frame with
      | bind f => exact f.resolves P run v
      | map k =>
          exact .value P run _ id (fun r => by cases r <;> rfl) fun r hr => by cases r <;> exact hr
      | handle f => cases h
      | fold f g => exact f.resolves P run v
      | restore old r => exact .done _
  | error e =>
      cases frame with
      | bind f => cases h
      | map k => cases h
      | handle f => exact f.resolves P run e
      | fold f g => exact g.resolves P run e
      | restore old r => exact .done _

/-- The code that chooses a connection has chosen it at once, or it is the code of the
question that the evaluation asks. -/
inductive Chooses (source : Effect S) (restore : Option (Restorer S)) :
    Code S σ Connection → Option (Question S) → Course S → Prop
  | done (new : Connection) : Chooses source restore (.done new) none
      (.region source restore run.connection new)
  | asks {code : Code S σ Connection} {q : Question S} {next : q.Answer → Course S}
      (h : (Activation.switch run source restore code).Serves P run q next) :
      Chooses source restore code (some q) (.ask q next)

/-- The code of a modifier does what the evaluator does with it. -/
theorem Modifier.chooses (m : Modifier S) (source : Effect S) (restore : Option (Restorer S)) :
    Chooses P run source restore (P.modifyWith m run.connection) (m.question? run.connection)
      (m.choose run.connection (.region source restore run.connection)) := by
  have hserves : ∀ {q : Question S} (code : Code S σ Connection)
      {next : q.Answer → Course S}, ¬q.Suspends → (∀ r, next (q.read (.connection r)) =
        Course.connection run.connection (.region source restore run.connection) r) →
      (∀ r, code.ComesTo r → q.Yields P (q.read (.connection r))) →
      (Activation.switch run source restore code).Serves P run q next :=
    fun code next hcalls hnext hyields =>
      ⟨rfl, hcalls,
        code.returns_canReturn.mono fun new hnew => ⟨hnext (.ok new), hyields (.ok new) hnew⟩,
        fun e => hnext (.error e), fun payload => hyields (.error _) ⟨payload, rfl⟩⟩
  cases m with
  | user k => exact .asks (hserves _ id (fun r => rfl) fun r hr => hr)
  | uncancelable => exact .done _
  | restoring exit old r =>
      cases r with
      | user k => exact .asks (hserves _ id (fun r => rfl) fun r hr => hr)
      | old => exact .done _

end Codes

end Trampoline
