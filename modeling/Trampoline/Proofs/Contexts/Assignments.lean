import Mathlib.Data.List.Forall2
import Trampoline.Proofs.Contexts.Plain

/-!
# Assignments of contexts

A host whose effects are all plain, and another one whose code does the same, but gives other
contexts to the nodes of the effects that it makes: the latter assigns contexts to the nodes of
the former.  Its code looks neither at the name of the thread on which it runs nor at a context in
what a partial evaluation gives back to it.

Run in the same place, the two bring the machine into states that are the same up to contexts.

Main definitions and results:

- Definitions `Code.Assigns`, `Program.Assigns`: code and hosts up to contexts.
- Definitions `Activation.Assigns`, `World.Assigns`, `State.Assigns`: states up to contexts.
- Theorems `Program.Assigns.apply`, `Program.Assigns.recover`, `Program.Assigns.modifyWith`,
  `Program.Assigns.bodyWith`: the code that the engine starts.
-/

namespace Trampoline

variable {S : Closures} {σ : Type} {α β γ : Type}

/-! ## Code -/

/-- A query that has to do with neither the state of the host nor the thread. -/
def Query.Placeless : Query S σ → Prop
  | .host | .modifyHost _ | .threadName => False
  | _ => True

/-- A command with a plain effect. -/
def Command.plain : Command S → Command S
  | .run e c terminal => .run e.plain c terminal
  | c => c

/-- Two pieces of code that make the same requests, up to the contexts of effects, while the
states of the host are related.  The one on the right makes plain effects, and comes to what `f`
makes of the result of the one on the left. -/
inductive Code.Assigns (E : σ → σ → Prop) (f : α → β) : Code S σ α → Code S σ β → Prop
  | done (a : α) : Assigns E f (.done a) (.done (f a))
  | panic (payload : Payload) : Assigns E f (.panic payload) (.panic payload)
  | host {next : σ → Code S σ α} {next' : σ → Code S σ β}
      (h : ∀ s s', E s s' → Assigns E f (next s) (next' s')) :
      Assigns E f (.query .host next) (.query .host next')
  | modifyHost {g g' : σ → σ} {next : Unit → Code S σ α} {next' : Unit → Code S σ β}
      (hg : ∀ s s', E s s' → E (g s) (g' s')) (h : Assigns E f (next ()) (next' ())) :
      Assigns E f (.query (.modifyHost g) next) (.query (.modifyHost g') next')
  | query {q : Query S σ} {next : q.Answer → Code S σ α} {next' : q.Answer → Code S σ β}
      (hq : q.Placeless) (h : ∀ a, Assigns E f (next a) (next' a)) :
      Assigns E f (.query q next) (.query q next')
  | command (c : Command S) {next : Unit → Code S σ α} {next' : Unit → Code S σ β}
      (h : Assigns E f (next ()) (next' ())) :
      Assigns E f (.command c next) (.command c.plain next')
  | step (e : Effect S) {next : Effect S → Code S σ α} {next' : Effect S → Code S σ β}
      (h : ∀ residual, Assigns E f (next residual) (next' residual.plain)) :
      Assigns E f (.step e next) (.step e.plain next')

/-- Code that is alike comes to results that are alike, whatever is made of them at the end. -/
theorem Code.Assigns.map {E : σ → σ → Prop} {δ : Type} {f : α → β} {p : γ → δ} {g : α → γ}
    {q : β → δ} (hpq : ∀ a, p (g a) = q (f a)) {code : Code S σ α} {code' : Code S σ β}
    (h : code.Assigns E f code') :
    (code.bind fun a => .done (g a)).Assigns E p (code'.bind fun b => .done (q b)) := by
  induction h with
  | done a =>
      rw [done_bind, done_bind, ← hpq a]
      exact .done (g a)
  | panic payload => exact .panic payload
  | host _ ih => exact .host ih
  | modifyHost hs _ ih => exact .modifyHost hs ih
  | query hq _ ih => exact .query hq ih
  | command c _ ih => exact .command c ih
  | step e _ ih => exact .step e ih

/-! ## Hosts -/

/-- A trace event apart from the name of the context in it. -/
def TraceEvent.placeless : TraceEvent → TraceEvent
  | suspendedDeferred _ epoch frames => suspendedDeferred "" epoch frames
  | event => event

/-- A host that assigns contexts to the nodes of the effects of another one.  Their code does the
same, and makes nothing of what they have noted of contexts. -/
structure Program.Assigns (E : σ → σ → Prop) (P P' : Program S σ) : Prop where
  observe : ∀ event event' s s', event.placeless = event'.placeless → E s s' →
    E (P.observe event s) (P'.observe event' s')
  refused : ∀ name s s', E s s' → E (P.observe (.spawnRefused name) s) s'
  thunk : ∀ k, (P.thunk k).Assigns E Effect.plain (P'.thunk k)
  delay : ∀ k, (P.delay k).Assigns E id (P'.delay k)
  registration : ∀ k c cb, (P.registration k c cb).Assigns E id (P'.registration k c cb)
  body : ∀ k cb, (P.body k cb).Assigns E id (P'.body k cb)
  bind : ∀ k v, (P.bind k v).Assigns E Effect.plain (P'.bind k v)
  map : ∀ k v, (P.map k v).Assigns E id (P'.map k v)
  handler : ∀ k e, (P.handler k e).Assigns E Effect.plain (P'.handler k e)
  rescue : ∀ k e, (P.rescue k e).Assigns E id (P'.rescue k e)
  modify : ∀ k c, (P.modify k c).Assigns E id (P'.modify k c)
  restore : ∀ k exit old c, (P.restore k exit old c).Assigns E id (P'.restore k exit old c)
  token : ∀ k, (P.token k).Assigns E id (P'.token k)
  terminal : ∀ k o, (P.terminal k o).Assigns E id (P'.terminal k o)
  task : ∀ k, (P.task k).Assigns E id (P'.task k)
  executor : ∀ k task, (P.executor k task).Assigns E id (P'.executor k task)

namespace Program.Assigns

variable {P P' : Program S σ} {E : σ → σ → Prop} (hP : P.Assigns E P')

include hP

theorem bindWith (f : Binder S) (v : Value) :
    (P.bindWith f v).Assigns E Effect.plain (P'.bindWith f.plain v) := by
  cases f with
  | user k => exact hP.bind k v
  | pure => exact .done _
  | shift context => exact .done _

theorem recoverWith (h : Recovery S) (e : Failure) :
    (P.recoverWith h e).Assigns E Effect.plain (P'.recoverWith h e) := by
  cases h with
  | user k => exact hP.handler k e
  | rescue k => exact (hP.rescue k e).map (g := Effect.pure) (q := Effect.pure) fun _ => rfl
  | reify => exact .done _

theorem restoreWith (r : Restorer S) (exit : Outcome) (old c : Connection) :
    (P.restoreWith r exit old c).Assigns E id (P'.restoreWith r exit old c) := by
  cases r with
  | user k => exact hP.restore k exit old c
  | old => exact .done _

/-- The code that chooses a connection. -/
theorem modifyWith (m : Modifier S) (c : Connection) :
    (P.modifyWith m c).Assigns E id (P'.modifyWith m c) := by
  cases m with
  | user k => exact hP.modify k c
  | uncancelable => exact .done _
  | restoring exit old r => exact hP.restoreWith r exit old c

/-- The code of a deferred body. -/
theorem bodyWith (b : Body S) (cb : Callback) :
    (P.bodyWith b cb).Assigns E id (P'.bodyWith b cb) := by
  cases b with
  | user k => exact hP.body k cb
  | succeed v => exact .command _ (.done _)

/-- The code of a frame for a value. -/
theorem apply (frame : Frame S) (v : Value) :
    (P.apply frame v).Assigns E Effect.plain (P'.apply frame.plain v) := by
  cases frame with
  | bind f => exact hP.bindWith f v
  | map k => exact (hP.map k v).map (g := Effect.pure) (q := Effect.pure) fun _ => rfl
  | handle h => exact .done _
  | fold f h => exact hP.bindWith f v
  | restore old r => exact .done _

/-- The code of a frame for a failure. -/
theorem recover (frame : Frame S) (e : Failure) :
    (P.recover frame e).Assigns E Effect.plain (P'.recover frame.plain e) := by
  cases frame with
  | handle h => exact hP.recoverWith h e
  | fold f h => exact hP.recoverWith h e
  | bind f => exact .done _
  | map f => exact .done _
  | restore old r => exact .done _

end Program.Assigns

/-! ## States -/

section

variable (E : σ → σ → Prop)

mutual

/-- Two drivers, up to contexts. -/
inductive Driver.Assigns : Driver S σ → Driver S σ → Prop
  | loop (run : Loop S) : Driver.Assigns (.loop run) (.loop run.plain)
  | partially (stack : CallStack (Frame S))
      {resume resume' : Except Payload (Effect S) → Activation S σ}
      (h : ∀ r, Activation.Assigns (resume r) (resume' (r.map Effect.plain))) :
      Driver.Assigns (.partially stack resume) (.partially stack.plain resume')

/-- Two activations, up to contexts. -/
inductive Activation.Assigns : Activation S σ → Activation S σ → Prop
  | eval {d d' : Driver S σ} (h : Driver.Assigns d d') (e : Effect S) :
      Activation.Assigns (.eval d e) (.eval d' e.plain)
  | value {d d' : Driver S σ} (h : Driver.Assigns d d') (v : Value) :
      Activation.Assigns (.value d v) (.value d' v)
  | node {d d' : Driver S σ} {code code' : Code S σ (Effect S)} (h : Driver.Assigns d d')
      (alike : code.Assigns E Effect.plain code') :
      Activation.Assigns (.node d code) (.node d' code')
  | outcome {d d' : Driver S σ} {code code' : Code S σ Outcome} (h : Driver.Assigns d d')
      (alike : code.Assigns E id code') : Activation.Assigns (.outcome d code) (.outcome d' code')
  | switch (run : Loop S) (source : Effect S) (restore : Option (Restorer S))
      {code code' : Code S σ Connection} (alike : code.Assigns E id code') :
      Activation.Assigns (.switch run source restore code)
        (.switch run.plain source.plain restore code')
  | owing (cb : Callback) {code code' : Code S σ Unit} (alike : code.Assigns E id code') :
      Activation.Assigns (.owing cb code) (.owing cb code')
  | code {code code' : Code S σ Unit} (alike : code.Assigns E id code') :
      Activation.Assigns (.code code) (.code code')
  | tokens (pending : List S.Token) : Activation.Assigns (.tokens pending) (.tokens pending)
  /-- The thread below may have another name. -/
  | thread (outer outer' : String) : Activation.Assigns (.thread outer) (.thread outer')

end

/-- Two worlds, up to contexts.  The current thread may have another name. -/
structure World.Assigns (w w' : World S σ) : Prop where
  host : E w.host w'.host
  connections : w'.connections = w.connections
  bridges : w'.bridges = w.bridges.map Bridge.plain
  classifier : w'.classifier = w.classifier

/-- Two states of the machine, up to contexts. -/
inductive State.Assigns : State S σ → State S σ → Prop
  | running {w w' : World S σ} {top top' : Activation S σ} {rest rest' : List (Activation S σ)}
      (world : World.Assigns E w w') (work : Activation.Assigns E top top')
      (waiting : List.Forall₂ (Activation.Assigns E) rest rest') :
      State.Assigns (.running w top rest) (.running w' top' rest')
  | returned {w w' : World S σ} (world : World.Assigns E w w') :
      State.Assigns (.returned w) (.returned w')
  | unwound {w w' : World S σ} (world : World.Assigns E w w') (payload : Payload) :
      State.Assigns (.unwound w payload) (.unwound w' payload)

end

end Trampoline
