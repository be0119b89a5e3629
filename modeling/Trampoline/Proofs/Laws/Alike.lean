import Trampoline.Code

/-!
# Code in hosts that are alike

The engine tells the host how many frames it has parked or given up.  Two runs that mean the
same may differ in that, and so may what their hosts have noted; the code of the host does the
same in both as long as it makes nothing of the difference.

A relation between the states of the host says what the difference may be.

Main definitions and results:

- Definition `Code.Alike`: two pieces of code that make the same requests.
- Theorem `Code.Alike.bind`: sequences of such pieces.
- Definition `Program.Discreet`: a host whose code makes nothing of the number of frames.
-/

namespace Trampoline

variable {S : Closures} {σ : Type} {α β γ δ : Type}

/-- A query that has nothing to do with the state of the host. -/
def Query.Impersonal : Query S σ → Prop
  | .host | .modifyHost _ => False
  | _ => True

/-- Two pieces of code that make the same requests while the states of the host are related,
and come to related results. -/
inductive Code.Alike (E : σ → σ → Prop) (R : α → β → Prop) : Code S σ α → Code S σ β → Prop
  | done {a : α} {b : β} (h : R a b) : Alike E R (.done a) (.done b)
  | panic (payload : Payload) : Alike E R (.panic payload) (.panic payload)
  | host {next : σ → Code S σ α} {next' : σ → Code S σ β}
      (h : ∀ s s', E s s' → Alike E R (next s) (next' s')) :
      Alike E R (.query .host next) (.query .host next')
  | modifyHost {f f' : σ → σ} {next : Unit → Code S σ α} {next' : Unit → Code S σ β}
      (hf : ∀ s s', E s s' → E (f s) (f' s')) (h : Alike E R (next ()) (next' ())) :
      Alike E R (.query (.modifyHost f) next) (.query (.modifyHost f') next')
  | query {q : Query S σ} {next : q.Answer → Code S σ α} {next' : q.Answer → Code S σ β}
      (hq : q.Impersonal) (h : ∀ a, Alike E R (next a) (next' a)) :
      Alike E R (.query q next) (.query q next')
  | command {c : Command S} {next : Unit → Code S σ α} {next' : Unit → Code S σ β}
      (h : Alike E R (next ()) (next' ())) : Alike E R (.command c next) (.command c next')
  | step {e : Effect S} {next : Effect S → Code S σ α} {next' : Effect S → Code S σ β}
      (h : ∀ residual, Alike E R (next residual) (next' residual)) :
      Alike E R (.step e next) (.step e next')

namespace Code.Alike

variable {E : σ → σ → Prop} {R : α → β → Prop} {R' : γ → δ → Prop}

/-- What goes on alike after related results goes on alike after code that is alike. -/
theorem bind {code : Code S σ α} {code' : Code S σ β} (h : code.Alike E R code')
    {f : α → Code S σ γ} {f' : β → Code S σ δ} (hf : ∀ a b, R a b → (f a).Alike E R' (f' b)) :
    (code.bind f).Alike E R' (code'.bind f') := by
  induction h with
  | done h => exact hf _ _ h
  | panic payload => exact .panic payload
  | host _ ih => exact .host ih
  | modifyHost hs _ ih => exact .modifyHost hs ih
  | query hq _ ih => exact .query hq ih
  | command _ ih => exact .command ih
  | step _ ih => exact .step ih

/-- Where the states of the host are the same, any code is like itself. -/
theorem refl (code : Code S σ α) : code.Alike Eq Eq code := by
  induction code with
  | done a => exact .done rfl
  | panic payload => exact .panic payload
  | command c next ih => exact .command (ih ())
  | step e next ih => exact .step ih
  | query q next ih =>
      cases q with
      | host => exact .host fun s s' hs => hs ▸ ih s
      | modifyHost f => exact .modifyHost (fun s s' hs => congrArg f hs) (ih ())
      | _ => exact .query trivial ih

/-- The same may be made of the results. -/
theorem map {code code' : Code S σ α} (h : code.Alike E Eq code') (f : α → γ) :
    (code.bind fun a => .done (f a)).Alike E Eq (code'.bind fun a => .done (f a)) := by
  refine h.bind ?_
  rintro a b rfl
  exact .done rfl

/-- What comes after the code of one side only may relate the results in another way. -/
theorem followed {code code' : Code S σ α} (h : code.Alike E Eq code')
    (f : α → γ) : code.Alike E (fun a b => b = f a) (code'.bind fun a => .done (f a)) := by
  rw [← code.bind_done]
  refine h.bind ?_
  rintro a b rfl
  exact .done rfl

end Code.Alike

/-! ## Hosts -/

/-- A trace event apart from the number of frames that it names. -/
def TraceEvent.uncounted : TraceEvent → TraceEvent
  | suspendedAsync epoch _ => suspendedAsync epoch 0
  | suspendedDeferred context epoch _ => suspendedDeferred context epoch 0
  | resumed epoch _ => resumed epoch 0
  | runCancelled connection _ => runCancelled connection 0
  | event => event

/-- A host that may note how many frames there were, but whose code makes nothing of it. -/
structure Program.Discreet (P : Program S σ) (E : σ → σ → Prop) : Prop where
  observe : ∀ event event' s s', event.uncounted = event'.uncounted → E s s' →
    E (P.observe event s) (P.observe event' s')
  thunk : ∀ k, (P.thunk k).Alike E Eq (P.thunk k)
  delay : ∀ k, (P.delay k).Alike E Eq (P.delay k)
  registration : ∀ k c cb, (P.registration k c cb).Alike E Eq (P.registration k c cb)
  body : ∀ k cb, (P.body k cb).Alike E Eq (P.body k cb)
  bind : ∀ k v, (P.bind k v).Alike E Eq (P.bind k v)
  map : ∀ k v, (P.map k v).Alike E Eq (P.map k v)
  handler : ∀ k e, (P.handler k e).Alike E Eq (P.handler k e)
  rescue : ∀ k e, (P.rescue k e).Alike E Eq (P.rescue k e)
  modify : ∀ k c, (P.modify k c).Alike E Eq (P.modify k c)
  restore : ∀ k exit old c, (P.restore k exit old c).Alike E Eq (P.restore k exit old c)
  token : ∀ k, (P.token k).Alike E Eq (P.token k)
  terminal : ∀ k o, (P.terminal k o).Alike E Eq (P.terminal k o)
  task : ∀ k, (P.task k).Alike E Eq (P.task k)
  executor : ∀ k task, (P.executor k task).Alike E Eq (P.executor k task)

namespace Program

variable {P : Program S σ} {E : σ → σ → Prop}

/-- A host that does not even note the number of frames is discreet, whatever its code does. -/
theorem discreet_of_observe
    (h : ∀ event event' s, event.uncounted = event'.uncounted →
      P.observe event s = P.observe event' s) : P.Discreet Eq where
  observe event event' s _ hevent hs := hs ▸ h event event' s hevent
  thunk _ := .refl _
  delay _ := .refl _
  registration _ _ _ := .refl _
  body _ _ := .refl _
  bind _ _ := .refl _
  map _ _ := .refl _
  handler _ _ := .refl _
  rescue _ _ := .refl _
  modify _ _ := .refl _
  restore _ _ _ _ := .refl _
  token _ := .refl _
  terminal _ _ := .refl _
  task _ := .refl _
  executor _ _ := .refl _

namespace Discreet

variable (hP : P.Discreet E)

include hP

/-- The continuation of a node makes the same requests while the hosts are alike. -/
theorem bindWith (f : Binder S) (v : Value) :
    (P.bindWith f v).Alike E Eq (P.bindWith f v) := by
  cases f with
  | user k => exact hP.bind k v
  | pure => exact .done rfl
  | shift context => exact .done rfl

/-- A handler makes the same requests while the hosts are alike. -/
theorem recoverWith (h : Recovery S) (e : Failure) :
    (P.recoverWith h e).Alike E Eq (P.recoverWith h e) := by
  cases h with
  | user k => exact hP.handler k e
  | rescue k => exact (hP.rescue k e).map _
  | reify => exact .done rfl

/-- The code that restores a connection makes the same requests while the hosts are alike. -/
theorem restoreWith (r : Restorer S) (exit : Outcome) (old c : Connection) :
    (P.restoreWith r exit old c).Alike E Eq (P.restoreWith r exit old c) := by
  cases r with
  | user k => exact hP.restore k exit old c
  | old => exact .done rfl

/-- The code that modifies a connection makes the same requests while the hosts are alike. -/
theorem modifyWith (m : Modifier S) (c : Connection) :
    (P.modifyWith m c).Alike E Eq (P.modifyWith m c) := by
  cases m with
  | user k => exact hP.modify k c
  | uncancelable => exact .done rfl
  | restoring exit old r => exact hP.restoreWith r exit old c

/-- The body of a node makes the same requests while the hosts are alike. -/
theorem bodyWith (b : Body S) (cb : Callback) :
    (P.bodyWith b cb).Alike E Eq (P.bodyWith b cb) := by
  cases b with
  | user k => exact hP.body k cb
  | succeed v => exact .command (.done rfl)

/-- A frame that is given a value makes the same requests while the hosts are alike. -/
theorem apply (frame : Frame S) (v : Value) :
    (P.apply frame v).Alike E Eq (P.apply frame v) := by
  cases frame with
  | bind f => exact hP.bindWith f v
  | map k => exact (hP.map k v).map _
  | handle h => exact .done rfl
  | fold f h => exact hP.bindWith f v
  | restore old r => exact .done rfl

/-- A frame that is given a failure makes the same requests while the hosts are alike. -/
theorem recover (frame : Frame S) (e : Failure) :
    (P.recover frame e).Alike E Eq (P.recover frame e) := by
  cases frame with
  | handle h => exact hP.recoverWith h e
  | fold f h => exact hP.recoverWith h e
  | _ => exact .done rfl

end Discreet

end Program

end Trampoline
