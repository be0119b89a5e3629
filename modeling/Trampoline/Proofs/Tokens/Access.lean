import Trampoline.Proofs.Machine.Cancellation
import Trampoline.Proofs.Machine.Locality
import Trampoline.Proofs.Machine.Place

/-!
# The connections and the control stack

All that a step does to the table of connections, and to the cancellations in progress.  The table
changes only when a piece of code creates a connection, or pushes, pops or cancels on one; and a
cancellation comes on the control stack only with the command to cancel, goes when its tokens have
run, and is lost to a panic of a token only.

Main definitions and results:

- Definitions `Access`, `Activation.access?`: what an activation is about to do with the table.
- Definition `State.cancellations`: the tokens that the cancellations in progress have still to
  run.
- Definition `State.breaks`: a panic leaves a token that a cancellation runs.
- Theorems `State.work_accesses`, `State.work_aloof`: what a step with, and one without, such a
  request does.
- Theorem `State.cancellations_next`: the cancellations in progress below a step stay.
-/

namespace Trampoline

variable {S : Closures} {σ : Type}

/-! ## Requests about connections -/

/-- What a piece of code may ask of the table of connections, beyond a look at a flag. -/
inductive Access (S : Closures) where
  | create
  | push (c : Connection) (token : S.Token)
  | pop (c : Connection)
  | cancel (c : Connection)

namespace Access

/-- The connection that is pushed on, popped from or canceled. -/
def on? : Access S → Option Connection
  | create => none
  | push c _ | pop c | cancel c => some c

end Access

/-- What a piece of code asks of the table with its next step. -/
def Code.access? {α : Type} : Code S σ α → Option (Access S)
  | .query .newConnection _ => some .create
  | .query (.pop c) _ => some (.pop c)
  | .command (.push c token) _ => some (.push c token)
  | .command (.cancel c) _ => some (.cancel c)
  | _ => none

namespace Activation

/-- What the code of an activation asks of the table with its next step. -/
def access? : Activation S σ → Option (Access S)
  | .node _ c => c.access?
  | .outcome _ c => c.access?
  | .switch _ _ _ c => c.access?
  | .owing _ c => c.access?
  | .code c => c.access?
  | _ => none

/-- The code of an activation asks for it what it asks of the table. -/
@[simp]
theorem access?_wrap {α : Type} (h : Holder S σ α) (code : Code S σ α) :
    (h.wrap code).access? = code.access? := by
  cases h <;> rfl

/-- The tokens that an activation has still to run, if it is a cancellation. -/
def pending? : Activation S σ → Option (List S.Token)
  | .tokens pending => some pending
  | _ => none

/-- An activation is no cancellation, and hides none. -/
def Plain (a : Activation S σ) : Prop :=
  a.Every fun b => b.pending? = none

/-- A plain activation has no tokens left to run. -/
theorem Plain.pending? {a : Activation S σ} (h : a.Plain) : a.pending? = none := by
  cases a with
  | tokens pending => exact h
  | _ => rfl

/-- How far its code has come makes no difference. -/
theorem Plain.wrap {α : Type} {h : Holder S σ α} {code : Code S σ α} (hp : (h.wrap code).Plain)
    (code' : Code S σ α) : (h.wrap code').Plain := by
  cases h with
  | node d => cases d <;> exact hp
  | outcome d => cases d <;> exact hp
  | switch run source restore => rfl
  | owing cb => rfl
  | code => rfl

/-- The work of a loop hides nothing. -/
theorem plain_of_loop? {a : Activation S σ} {run : Loop S} (h : a.loop? = some run) :
    a.Plain := by
  refine (every_iff_of_loop? h).mpr ?_
  cases a with
  | tokens pending => cases h
  | _ => rfl

/-- Code outside any run is plain. -/
@[simp]
theorem plain_code (code : Code S σ Unit) : (Activation.code code).Plain :=
  rfl

/-- A run that has ended is plain. -/
@[simp]
theorem plain_owing (cb : Callback) (code : Code S σ Unit) : (Activation.owing cb code).Plain :=
  rfl

/-- The end of a thread is plain. -/
@[simp]
theorem plain_thread (outer : String) : (Activation.thread outer : Activation S σ).Plain :=
  rfl

/-- After a panic, no cancellation is left of an activation. -/
theorem plain_panicking {a : Activation S σ} (h : a.pending? = none → a.Plain)
    (payload : Payload) : (a.panicking payload).Plain := by
  cases a with
  | node d code => exact (h rfl).wrap (h := .node d) _
  | outcome d code => exact (h rfl).wrap (h := .outcome d) _
  | _ => rfl

end Activation

namespace State

/-- The tokens that each cancellation in progress has still to run, the innermost first. -/
def cancellations (s : State S σ) : List (List S.Token) :=
  s.activations.filterMap Activation.pending?

/-- A panic leaves the code of a token that a cancellation runs. -/
def breaks (P : Program S σ) : State S σ → Bool
  | running w top (.tokens _ :: _) =>
    match work P w [] top with
    | unwound _ _ => true
    | _ => false
  | _ => false

/-- No activation of a state is a cancellation, or hides one. -/
def Plain (s : State S σ) : Prop :=
  ∀ a ∈ s.activations, a.Plain

/-- No cancellation is at work in a plain state. -/
theorem Plain.cancellations {s : State S σ} (h : s.Plain) : s.cancellations = [] :=
  List.filterMap_eq_nil_iff.mpr fun a ha => (h a ha).pending?

/-- A running state is plain if and only if its activations are. -/
@[simp]
theorem plain_running {w : World S σ} {top : Activation S σ} {rest : List (Activation S σ)} :
    (running w top rest).Plain ↔ top.Plain ∧ ∀ a ∈ rest, a.Plain := by
  simp [Plain]

/-- A return to the activation below is plain if and only if those that wait are. -/
@[simp]
theorem plain_resume {w : World S σ} {rest : List (Activation S σ)} :
    (resume w rest).Plain ↔ ∀ a ∈ rest, a.Plain := by
  simp [Plain]

/-- An unwound state is plain. -/
@[simp]
theorem plain_unwind_nil (w : World S σ) (payload : Payload) :
    (unwind w payload [] : State S σ).Plain := by
  intro a ha
  cases ha

/-! ## Steps without such a request -/

variable {P : Program S σ} {w : World S σ}

/-- The completion of a callback is plain. -/
theorem plain_complete (cb : Callback) (o : Outcome) : (complete P w cb o []).Plain := by
  unfold complete
  repeat' split
  · exact plain_running.mpr ⟨Activation.plain_of_loop? rfl, by simp⟩
  · simp
  · simp

/-- The end of a loop is plain. -/
theorem plain_finish (run : Loop S) (o : Outcome) : (finish P w run o []).Plain := by
  have hdeliver : ∀ (w : World S σ) (t : Terminal S), (deliver P w t o []).Plain := by
    intro w t
    cases t with
    | user k => simp [deliver]
    | complete cb => exact plain_complete cb o
  unfold finish
  repeat' split
  all_goals first
    | exact hdeliver _ _
    | simp

/-- A submission is plain if what waits is. -/
theorem plain_submit (context : Context S.Executor) (task : Task S)
    {rest : List (Activation S σ)} (hrest : ∀ a ∈ rest, a.Plain) :
    (submit P w context task rest).Plain := by
  have hrun : ∀ (w : World S σ) (rest : List (Activation S σ)), (∀ a ∈ rest, a.Plain) →
      (runTask P w task rest).Plain := by
    intro w rest hrest
    cases task with
    | body cb b => exact plain_running.mpr ⟨by simp, hrest⟩
    | user k => exact plain_running.mpr ⟨by simp, hrest⟩
  have hthread : ∀ a ∈ (.thread w.thread :: rest : List (Activation S σ)), a.Plain := by
    simpa using hrest
  cases context with
  | immediate => exact hrun w rest hrest
  | newThread name spawns =>
      simp only [submit]
      split
      · cases rest with
        | nil => simp
        | cons a rest =>
            have ha := Activation.plain_panicking (a := a) fun _ => hrest a (by simp)
            exact plain_running.mpr ⟨ha _, fun b hb => hrest b (by simp [hb])⟩
      · split
        · exact hrun _ _ hthread
        · exact hrun _ _ hrest
  | pool name worker => exact hrun _ _ hthread
  | hosted name executor => exact plain_running.mpr ⟨by simp, hrest⟩

/-- The step of a node is plain. -/
theorem plain_reduce (run : Loop S) (node : Effect S) :
    (reduce P w (.loop run) node []).Plain := by
  cases node with
  | fail e =>
      simp only [reduce]
      split
      · exact plain_running.mpr ⟨Activation.plain_of_loop? rfl, by simp⟩
      · exact plain_finish _ _
  | async k => simp [reduce, suspend]
  | parked inner stack =>
      simp only [reduce, suspend, List.append_nil, plain_resume, List.forall_mem_cons]
      exact ⟨Activation.plain_of_loop? rfl, by simp⟩
  | deferred context b => exact plain_submit _ _ (by simp)
  | _ => exact plain_running.mpr ⟨Activation.plain_of_loop? rfl, by simp⟩

/-- A panic within a loop is plain. -/
theorem plain_panicIn (run : Loop S) (payload : Payload) :
    (panicIn P w (.loop run) payload []).Plain := by
  simp only [panicIn, contain]
  split
  · exact plain_running.mpr ⟨Activation.plain_of_loop? rfl, by simp⟩
  · simp

/-- A request of a piece of code that is not about the table brings no cancellation. -/
theorem plain_work_wrap {α : Type} {h : Holder S σ α} {code : Code S σ α}
    (hp : (h.wrap code).Plain) (ha : code.access? = none) (hdone : ∀ a, code ≠ .done a)
    (hpanic : ∀ payload, code ≠ .panic payload) : (work P w [] (h.wrap code)).Plain := by
  have hrest : ∀ code' : Code S σ α, ∀ a ∈ [h.wrap code'], a.Plain := by
    simpa using hp.wrap
  rw [work_wrap]
  cases code with
  | done a => exact absurd rfl (hdone a)
  | panic payload => exact absurd rfl (hpanic payload)
  | query q next => exact plain_running.mpr ⟨hp.wrap _, by simp⟩
  | command c next =>
      cases c with
      | push c token => cases ha
      | cancel c => cases ha
      | complete cb o =>
          simp only [advance, begin, complete]
          repeat' split
          · exact plain_running.mpr ⟨Activation.plain_of_loop? rfl, hrest _⟩
          · exact plain_resume.mpr (hrest _)
          · exact plain_resume.mpr (hrest _)
      | run e c t => exact plain_running.mpr ⟨Activation.plain_of_loop? rfl, hrest _⟩
      | submit context task => exact plain_submit context task (hrest _)
      | runToken token => exact plain_running.mpr ⟨by simp, hrest _⟩
      | runTask task => exact plain_submit .immediate task (hrest _)
  | step e next =>
      refine plain_running.mpr ⟨fun r => ?_, by simp⟩
      cases r with
      | ok residual => exact hp.wrap _
      | error payload => exact hp.wrap _

/-- The result of a piece of code, its panic, or a request of it that is not about the table. -/
theorem plain_work_view {α : Type} {h : Holder S σ α} {code : Code S σ α}
    (hp : (h.wrap code).Plain) (ha : code.access? = none) (hfinish : ∀ a, (h.finish w [] a).Plain)
    (hescape : ∀ payload, (h.escape P w [] payload).Plain) :
    (work P w [] (h.wrap code)).Plain := by
  cases code with
  | done a =>
      rw [work_wrap]
      exact hfinish a
  | panic payload =>
      rw [work_wrap]
      exact hescape payload
  | _ => exact plain_work_wrap hp ha (by simp) (by simp)

/-- No cancellation comes of the work of an activation that is none, and asks nothing of the
table. -/
theorem plain_work {top : Activation S σ} (hp : top.Plain) (ha : top.access? = none) :
    (work P w [] top).Plain := by
  have hloop : ∀ {w : World S σ} {a : Activation S σ} {run : Loop S}, a.loop? = some run →
      (running w a [] : State S σ).Plain := fun h =>
    plain_running.mpr ⟨Activation.plain_of_loop? h, by simp⟩
  cases hb : top.behind? with
  | some resume =>
      have hstep : StepsAside P w [] resume top (work P w [] top) := work_behind P hb
      have hbehind := (Activation.every_iff_of_behind? hb).mp hp
      generalize work P w [] top = s at hstep ⊢
      cases hstep with
      | goes bridges h =>
          exact plain_running.mpr ⟨(Activation.every_iff_of_behind? h).mpr hbehind, by simp⟩
      | gives residual => exact plain_running.mpr ⟨hbehind _, by simp⟩
      | raises h fatal => exact plain_running.mpr ⟨hbehind _, by simp⟩
      | asks h code hdone hpanic =>
          rw [Activation.access?_wrap] at ha
          exact plain_work_wrap hp ha hdone hpanic
  | none =>
      cases top with
      | eval d node =>
          cases d with
          | partially stack resume => cases hb
          | loop run =>
              simp only [work, eval]
              split
              · exact plain_finish run _
              · exact plain_reduce run node
      | value d v =>
          cases d with
          | partially stack resume => cases hb
          | loop run =>
              simp only [work, value]
              split
              · exact hloop rfl
              · exact plain_finish _ _
      | node d code =>
          cases d with
          | partially stack resume => cases hb
          | loop run =>
              exact plain_work_view (h := .node (.loop run)) hp ha (fun e => hloop rfl)
                (plain_panicIn run)
      | outcome d code =>
          cases d with
          | partially stack resume => cases hb
          | loop run =>
              refine plain_work_view (h := .outcome (.loop run)) hp ha (fun o => ?_)
                (plain_panicIn run)
              cases o <;> exact hloop rfl
      | switch run source restore code =>
          refine plain_work_view (h := .switch run source restore) hp ha (fun new => ?_)
            (plain_panicIn run)
          cases restore <;> exact hloop rfl
      | owing cb code =>
          refine plain_work_view (h := .owing cb) hp ha (fun _ => by simp [Holder.finish])
            fun payload => ?_
          simp only [Holder.escape, contain]
          split
          · exact plain_complete cb _
          · simp
      | code code =>
          exact plain_work_view (h := .code) hp ha (fun _ => by simp [Holder.finish])
            fun payload => by simp [Holder.escape]
      | tokens pending => cases hp
      | thread outer => simp [work]

/-- A step of code that asks nothing of the table leaves the table. -/
theorem connections_work_wrap {rest : List (Activation S σ)} {α : Type} (h : Holder S σ α)
    {code : Code S σ α} (ha : code.access? = none) :
    (work P w rest (h.wrap code)).world.connections = w.connections := by
  rw [work_wrap]
  cases code with
  | done a => exact (connections_finish_escape P h).1 a
  | panic payload => exact (connections_finish_escape P h).2 payload
  | query q next =>
      cases q with
      | newConnection => cases ha
      | pop c => cases ha
      | _ => rfl
  | command c next =>
      cases c with
      | push c token => cases ha
      | cancel c => cases ha
      | complete cb o => exact connections_complete P cb o
      | run e c t => rfl
      | submit context task => exact connections_submit P context task
      | runToken token => rfl
      | runTask task => exact connections_submit P .immediate task
  | step e next => rfl

/-- The work of an activation that asks nothing of the table leaves it as it was. -/
theorem connections_work {rest : List (Activation S σ)} {top : Activation S σ}
    (ha : top.access? = none) : (work P w rest top).world.connections = w.connections := by
  cases top with
  | eval d node => exact connections_eval P d node
  | value d v => exact connections_value P d v
  | node d code => exact connections_work_wrap (.node d) ha
  | outcome d code => exact connections_work_wrap (.outcome d) ha
  | switch run source restore code => exact connections_work_wrap (.switch run source restore) ha
  | owing cb code => exact connections_work_wrap (.owing cb) ha
  | code code => exact connections_work_wrap .code ha
  | tokens pending => cases pending <;> simp [work]
  | thread outer => simp [work]

/-! ## Steps with such a request -/

/-- What comes of a request about the table. -/
inductive Accesses (P : Program S σ) (w : World S σ) : Access S → State S σ → Prop
  | create {a : Activation S σ} (plain : a.Plain) :
      Accesses P w .create (running { w with connections := w.connections.create.1 } a [])
  | pop {c : Connection} {a : Activation S σ} (plain : a.Plain) :
      Accesses P w (.pop c) (running { w with connections := (w.connections.pop c).1 } a [])
  | registers {c : Connection} {token : S.Token} {table : Connections S.Token}
      {a : Activation S σ} (plain : a.Plain) (kept : w.connections.push c token = .kept table) :
      Accesses P w (.push c token) (running { w with connections := table } a [])
  | runs {c : Connection} {token : S.Token} {a : Activation S σ} (plain : a.Plain)
      (due : w.connections.push c token = .due) :
      Accesses P w (.push c token) (running w (.code (P.token token)) [a])
  | cancels {c : Connection} {a : Activation S σ} (plain : a.Plain) :
      Accesses P w (.cancel c) (running { w with connections := (w.connections.cancel c).1 }
        (.tokens (w.connections.cancel c).2) [a])

/-- A step of an activation that asks something of the table does what comes of the request. -/
theorem accesses_wrap {α : Type} {h : Holder S σ α} {code : Code S σ α} {x : Access S}
    (hp : (h.wrap code).Plain) (ha : code.access? = some x) :
    Accesses P w x (work P w [] (h.wrap code)) := by
  rw [work_wrap]
  cases code with
  | query q next =>
      cases q with
      | newConnection =>
          cases ha
          exact .create (hp.wrap _)
      | pop c =>
          cases ha
          exact .pop (hp.wrap _)
      | _ => cases ha
  | command c next =>
      cases c with
      | push c token =>
          cases ha
          simp only [advance, begin]
          split
          · next table hkept => exact .registers (hp.wrap _) hkept
          · next hdue => exact .runs (hp.wrap _) hdue
      | cancel c =>
          cases ha
          exact .cancels (hp.wrap _)
      | _ => cases ha
  | _ => cases ha

/-- The work of an activation that asks something of the table. -/
theorem work_accesses {top : Activation S σ} {x : Access S} (hp : top.Plain)
    (ha : top.access? = some x) : Accesses P w x (work P w [] top) := by
  cases top with
  | node d code => exact accesses_wrap (h := .node d) hp ha
  | outcome d code => exact accesses_wrap (h := .outcome d) hp ha
  | switch run source restore code => exact accesses_wrap (h := .switch run source restore) hp ha
  | owing cb code => exact accesses_wrap (h := .owing cb) hp ha
  | code code => exact accesses_wrap (h := .code) hp ha
  | _ => cases ha

/-- No cancellation waits behind a partial evaluation because of such a request. -/
theorem Accesses.hides {x : Access S} {s : State S σ} (h : Accesses P w x s) :
    ∀ a ∈ s.activations, a.pending? = none → a.Plain := by
  cases h with
  | create plain => simpa using fun _ => plain
  | pop plain => simpa using fun _ => plain
  | registers plain kept => simpa using fun _ => plain
  | runs plain due => simpa using fun _ => plain
  | cancels plain => simpa [Activation.pending?] using fun _ => plain

/-! ## What waits below -/

section

variable {top : Activation S σ} {rest : List (Activation S σ)}

/-- The cancellations in progress below a step stay, unless a panic of a token breaks one off. -/
theorem cancellations_next (hb : (running w top rest).breaks P = false) :
    ((running w top rest).next P).cancellations =
      (work P w [] top).cancellations ++ rest.filterMap Activation.pending? := by
  rw [next_running]
  cases hs : work P w [] top with
  | running w' top' rest' =>
      simp only [running_onto, cancellations, activations_running, ← List.cons_append,
        List.filterMap_append]
  | returned w' =>
      rw [onto, cancellations, activations_resume]
      rfl
  | unwound w' payload =>
      cases rest with
      | nil => rfl
      | cons a rest =>
          cases a with
          | tokens pending => simp [breaks, hs] at hb
          | _ => rfl

/-- Nothing that waits below a step comes to hide a cancellation. -/
theorem hides_next (hp : ∀ a ∈ rest, a.pending? = none → a.Plain)
    (hs : ∀ a ∈ (work P w [] top).activations, a.pending? = none → a.Plain) :
    ∀ a ∈ ((running w top rest).next P).activations, a.pending? = none → a.Plain := by
  rw [next_running]
  cases hw : work P w [] top with
  | running w' top' rest' =>
      rw [hw] at hs
      intro a ha
      rw [running_onto, activations_running, ← List.cons_append, List.mem_append] at ha
      exact ha.elim (hs a) (hp a)
  | returned w' =>
      rw [onto, activations_resume]
      exact hp
  | unwound w' payload =>
      cases rest with
      | nil => simp [onto, unwind, activations]
      | cons a rest =>
          intro b hb
          rcases List.mem_cons.mp hb with rfl | hb
          · exact fun _ => Activation.plain_panicking (hp a (by simp)) payload
          · exact hp b (by simp [hb])

end

end State

end Trampoline
