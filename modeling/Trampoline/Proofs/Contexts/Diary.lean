import Trampoline.Proofs.Contexts.Assignments
import Trampoline.Proofs.Machine.Activations

/-!
# Diaries

A host may keep a diary of all calls of its closures: which closure the engine called, in which
order, and with which arguments.  Each closure writes its own entry before it does what it does.
Nothing that the host does besides depends on the diary.

Main definitions and results:

- Definition `Use`: a call of a closure of the host, with its arguments.
- Definitions `Code.aside`, `Activation.aside`, `State.aside`: code and machines that keep
  something beside the state of the host.
- Definition `Program.noting`: a host with a diary.
- Theorem `Code.aside_injective`: the code is the same without what is kept.
- Theorem `Program.Assigns.noting`: a host that assigns contexts does so with a diary too.
-/

namespace Trampoline

variable {S : Closures} {σ δ : Type} {α β : Type}

/-- A call of a closure of the host, with its arguments. -/
inductive Use (S : Closures) where
  | thunk (k : S.Thunk)
  | delay (k : S.Delay)
  | registration (k : S.Registration) (c : Connection) (cb : Callback)
  | body (k : S.Body) (cb : Callback)
  | bind (k : S.Bind) (v : Value)
  | map (k : S.Map) (v : Value)
  | handler (k : S.Handler) (e : Failure)
  | rescue (k : S.Rescue) (e : Failure)
  | modify (k : S.Modify) (c : Connection)
  | restore (k : S.Restore) (exit : Outcome) (old c : Connection)
  | token (k : S.Token)
  /-- The run of the terminal has come to an outcome. -/
  | terminal (k : S.Terminal) (o : Outcome)
  | task (k : S.Task)
  | executor (k : S.Executor) (task : Task S)

/-! ## Something beside the state -/

/-- The code of a host that keeps something beside its state, which the code does not touch. -/
def Code.aside : Code S σ α → Code S (σ × δ) α
  | .done a => .done a
  | .panic payload => .panic payload
  | .query .host next => .query .host fun s => (next s.1).aside
  | .query (.modifyHost f) next => .query (.modifyHost (Prod.map f id)) fun u => (next u).aside
  | .query .threadName next => .query .threadName fun name => (next name).aside
  | .query .newConnection next => .query .newConnection fun c => (next c).aside
  | .query (.isCanceled c) next => .query (.isCanceled c) fun b => (next b).aside
  | .query (.pop c) next => .query (.pop c) fun token => (next token).aside
  | .query (.connectionOf cb) next => .query (.connectionOf cb) fun c => (next c).aside
  | .query (.isNonFatal payload) next => .query (.isNonFatal payload) fun b => (next b).aside
  | .query (.setClassifier f) next => .query (.setClassifier f) fun u => (next u).aside
  | .command c next => .command c fun u => (next u).aside
  | .step e next => .step e fun residual => (next residual).aside

namespace Code

/-- Code with something beside its state is put together as it is without. -/
theorem aside_bind (code : Code S σ α) (f : α → Code S σ β) :
    ((code.bind f).aside : Code S (σ × δ) β) = code.aside.bind fun a => (f a).aside := by
  induction code with
  | done a => rfl
  | panic payload => rfl
  | query q next ih => cases q <;> simp [bind, aside, ih]
  | command c next ih => simp [bind, aside, ih]
  | step e next ih => simp [bind, aside, ih]

/-- Code without what it keeps beside its state, had it not changed it. -/
def drop (d : δ) : Code S (σ × δ) α → Code S σ α
  | .done a => .done a
  | .panic payload => .panic payload
  | .query .host next => .query .host fun s => (next (s, d)).drop d
  | .query (.modifyHost f) next =>
    .query (.modifyHost fun s => (f (s, d)).1) fun u => (next u).drop d
  | .query .threadName next => .query .threadName fun name => (next name).drop d
  | .query .newConnection next => .query .newConnection fun c => (next c).drop d
  | .query (.isCanceled c) next => .query (.isCanceled c) fun b => (next b).drop d
  | .query (.pop c) next => .query (.pop c) fun token => (next token).drop d
  | .query (.connectionOf cb) next => .query (.connectionOf cb) fun c => (next c).drop d
  | .query (.isNonFatal payload) next => .query (.isNonFatal payload) fun b => (next b).drop d
  | .query (.setClassifier f) next => .query (.setClassifier f) fun u => (next u).drop d
  | .command c next => .command c fun u => (next u).drop d
  | .step e next => .step e fun residual => (next residual).drop d

theorem drop_aside (d : δ) (code : Code S σ α) : (code.aside : Code S (σ × δ) α).drop d = code := by
  induction code with
  | done a => rfl
  | panic payload => rfl
  | query q next ih => cases q <;> simp [aside, drop, ih]
  | command c next ih => simp [aside, drop, ih]
  | step e next ih => simp [aside, drop, ih]

theorem aside_injective (d : δ) : Function.Injective (aside : Code S σ α → Code S (σ × δ) α) :=
  Function.LeftInverse.injective (g := drop d) (drop_aside d)

end Code

mutual

/-- A driver in a machine that keeps something beside its state. -/
def Driver.aside : Driver S σ → Driver S (σ × δ)
  | .loop run => .loop run
  | .partially stack resume => .partially stack fun r => (resume r).aside

/-- An activation in such a machine. -/
def Activation.aside : Activation S σ → Activation S (σ × δ)
  | .eval d node => .eval d.aside node
  | .value d v => .value d.aside v
  | .node d code => .node d.aside code.aside
  | .outcome d code => .outcome d.aside code.aside
  | .switch run source restore code => .switch run source restore code.aside
  | .owing cb code => .owing cb code.aside
  | .code code => .code code.aside
  | .tokens pending => .tokens pending
  | .thread outer => .thread outer

end

/-- What waits for the result of code, in such a machine. -/
def Holder.aside : Holder S σ α → Holder S (σ × δ) α
  | .node d => .node d.aside
  | .outcome d => .outcome d.aside
  | .switch run source restore => .switch run source restore
  | .owing cb => .owing cb
  | .code => .code

namespace Driver

theorem stack_aside (driver : Driver S σ) :
    (driver.aside : Driver S (σ × δ)).stack = driver.stack := by
  cases driver <;> rfl

theorem withStack_aside (driver : Driver S σ) (stack : CallStack (Frame S)) :
    (driver.aside : Driver S (σ × δ)).withStack stack = (driver.withStack stack).aside := by
  cases driver <;> rfl

theorem push_aside (driver : Driver S σ) (frame : Frame S) :
    (driver.aside : Driver S (σ × δ)).push frame = (driver.push frame).aside := by
  cases driver <;> rfl

end Driver

/-- A world with something beside the state of the host. -/
def World.aside (w : World S σ) (d : δ) : World S (σ × δ) where
  host := (w.host, d)
  connections := w.connections
  bridges := w.bridges
  classifier := w.classifier
  thread := w.thread

/-- A machine with something beside the state of the host. -/
def State.aside (d : δ) : State S σ → State S (σ × δ)
  | running w top rest => running (w.aside d) top.aside (rest.map .aside)
  | returned w => returned (w.aside d)
  | unwound w payload => unwound (w.aside d) payload

/-! ## Diaries -/

/-- The code of a closure, after its entry in the diary. -/
def Code.noting (u : Use S) (code : Code S σ α) : Code S (σ × List (Use S)) α :=
  .query (.modifyHost (Prod.map id (· ++ [u]))) fun _ => code.aside

/-- A host that keeps a diary. -/
def Program.noting (P : Program S σ) : Program S (σ × List (Use S)) where
  thunk k := (P.thunk k).noting (.thunk k)
  delay k := (P.delay k).noting (.delay k)
  registration k c cb := (P.registration k c cb).noting (.registration k c cb)
  body k cb := (P.body k cb).noting (.body k cb)
  bind k v := (P.bind k v).noting (.bind k v)
  map k v := (P.map k v).noting (.map k v)
  handler k e := (P.handler k e).noting (.handler k e)
  rescue k e := (P.rescue k e).noting (.rescue k e)
  modify k c := (P.modify k c).noting (.modify k c)
  restore k exit old c := (P.restore k exit old c).noting (.restore k exit old c)
  token k := (P.token k).noting (.token k)
  terminal k o := (P.terminal k o).noting (.terminal k o)
  task k := (P.task k).noting (.task k)
  executor k task := (P.executor k task).noting (.executor k task)
  observe event := Prod.map (P.observe event) id

/-- Code that keeps something beside its state writes no entry. -/
theorem Code.aside_ne_noting (s : σ) (code code' : Code S σ α) (u : Use S) :
    code.aside ≠ code'.noting u := by
  intro h
  cases code with
  | query q next =>
      cases q with
      | modifyHost f =>
          simp only [aside, noting, query.injEq, Query.modifyHost.injEq] at h
          have hd := congrArg Prod.snd (congrFun h.1 (s, []))
          simp at hd
      | _ => simp [aside, noting] at h
  | _ => simp [aside, noting] at h

/-! ## Diaries of both sides -/

/-- States of the host that are the same, with the same diary. -/
def Noted (E : σ → σ → Prop) (x y : σ × δ) : Prop :=
  E x.1 y.1 ∧ x.2 = y.2

theorem noted_equivalence {E : σ → σ → Prop} (hE : Equivalence E) :
    Equivalence (Noted E : σ × δ → σ × δ → Prop) where
  refl := fun x => ⟨hE.refl x.1, rfl⟩
  symm := fun h => ⟨hE.symm h.1, h.2.symm⟩
  trans := fun h h' => ⟨hE.trans h.1 h'.1, h.2.trans h'.2⟩

namespace Code.Assigns

variable {E : σ → σ → Prop} {f : α → β} {code : Code S σ α} {code' : Code S σ β}

/-- Code does nothing with what is kept beside the state. -/
theorem aside (h : code.Assigns E f code') :
    (code.aside : Code S (σ × δ) α).Assigns (Noted E) f code'.aside := by
  induction h with
  | done a => exact .done a
  | panic payload => exact .panic payload
  | host _ ih => exact .host fun x y hxy => ih x.1 y.1 hxy.1
  | modifyHost hg _ ih => exact .modifyHost (fun x y hxy => ⟨hg x.1 y.1 hxy.1, hxy.2⟩) ih
  | @query q next next' hq _ ih =>
      cases q with
      | host => exact hq.elim
      | modifyHost f => exact hq.elim
      | threadName => exact hq.elim
      | _ => exact .query trivial ih
  | command c _ ih => exact .command c ih
  | step e _ ih => exact .step e ih

/-- The same entry comes first on both sides. -/
theorem noting (h : code.Assigns E f code') (u : Use S) :
    (code.noting u).Assigns (Noted E) f (code'.noting u) :=
  .modifyHost (fun _ _ hxy => ⟨hxy.1, congrArg (· ++ [u]) hxy.2⟩) h.aside

end Code.Assigns

/-- A host that assigns contexts does so with a diary too. -/
theorem Program.Assigns.noting {P P' : Program S σ} {E : σ → σ → Prop} (hP : P.Assigns E P') :
    P.noting.Assigns (Noted E) P'.noting where
  observe := fun event event' x y h hxy => ⟨hP.observe event event' x.1 y.1 h hxy.1, hxy.2⟩
  refused := fun name x y hxy => ⟨hP.refused name x.1 y.1 hxy.1, hxy.2⟩
  thunk := fun k => (hP.thunk k).noting _
  delay := fun k => (hP.delay k).noting _
  registration := fun k c cb => (hP.registration k c cb).noting _
  body := fun k cb => (hP.body k cb).noting _
  bind := fun k v => (hP.bind k v).noting _
  map := fun k v => (hP.map k v).noting _
  handler := fun k e => (hP.handler k e).noting _
  rescue := fun k e => (hP.rescue k e).noting _
  modify := fun k c => (hP.modify k c).noting _
  restore := fun k exit old c => (hP.restore k exit old c).noting _
  token := fun k => (hP.token k).noting _
  terminal := fun k o => (hP.terminal k o).noting _
  task := fun k => (hP.task k).noting _
  executor := fun k task => (hP.executor k task).noting _

end Trampoline
