import Trampoline.Proofs.Contexts.Diary
import Trampoline.Proofs.Machine.Containment

/-!
# A diary changes nothing

A machine with a diary does what the machine without it does.  It takes the same steps, and one
step more for each call of a closure, with which the closure writes its entry.  The two come to the
same ends, and a panic leaves the code that runs in the one only if it leaves that in the other.

Main definitions and results:

- Definition `Code.Enters`: code that may write an entry first.
- Definition `State.Erases`: a machine with a diary is where the machine without it is.
- Theorems `State.erases_deliver`, `State.erases_submit`, `State.erases_work`, ...: what a step
  does, with a diary.
- Theorems `State.Erases.next`, `State.Erases.run`: the machine with a diary does nothing else.
- Theorem `State.Erases.contained`: it lets no more panics out.
-/

namespace Trampoline

variable {S : Closures} {σ δ : Type} {α β : Type}

/-! ## Entries -/

/-- A piece of code, beside a diary, that may write an entry first. -/
inductive Code.Enters (code : Code S σ α) : Code S (σ × List (Use S)) α → Prop
  | never : Enters code code.aside
  | first (u : Use S) : Enters code (code.noting u)

namespace Code.Enters

/-- An entry comes before what follows the code, too. -/
theorem bind {code : Code S σ α} {code' : Code S (σ × List (Use S)) α} (h : code.Enters code')
    (f : α → Code S σ β) : (code.bind f).Enters (code'.bind fun a => (f a).aside) := by
  cases h with
  | never =>
      rw [← aside_bind]
      exact .never
  | first u =>
      have hbind : (code.noting u).bind (fun a => (f a).aside) = (code.bind f).noting u := by
        simp [noting, Code.bind, aside_bind]
      rw [hbind]
      exact .first u

end Code.Enters

namespace Program

variable (P : Program S σ)

/-- A binder enters its call and does what it does without a diary. -/
theorem enters_bindWith (f : Binder S) (v : Value) :
    (P.bindWith f v).Enters (P.noting.bindWith f v) := by
  cases f with
  | user k => exact .first (.bind k v)
  | pure => exact .never
  | shift context => exact .never

/-- A recovery enters its call and does what it does without a diary. -/
theorem enters_recoverWith (h : Recovery S) (e : Failure) :
    (P.recoverWith h e).Enters (P.noting.recoverWith h e) := by
  cases h with
  | user k => exact .first (.handler k e)
  | rescue k => exact Code.Enters.bind (.first (.rescue k e)) _
  | reify => exact .never

/-- A restorer enters its call and does what it does without a diary. -/
theorem enters_restoreWith (r : Restorer S) (exit : Outcome) (old c : Connection) :
    (P.restoreWith r exit old c).Enters (P.noting.restoreWith r exit old c) := by
  cases r with
  | user k => exact .first (.restore k exit old c)
  | old => exact .never

/-- A modifier enters its call and does what it does without a diary. -/
theorem enters_modifyWith (m : Modifier S) (c : Connection) :
    (P.modifyWith m c).Enters (P.noting.modifyWith m c) := by
  cases m with
  | user k => exact .first (.modify k c)
  | uncancelable => exact .never
  | restoring exit old r => exact P.enters_restoreWith r exit old c

/-- A body enters its call and does what it does without a diary. -/
theorem enters_bodyWith (b : Body S) (cb : Callback) :
    (P.bodyWith b cb).Enters (P.noting.bodyWith b cb) := by
  cases b with
  | user k => exact .first (.body k cb)
  | succeed v => exact .never

/-- What a frame starts with a value enters its call. -/
theorem enters_apply (frame : Frame S) (v : Value) :
    (P.apply frame v).Enters (P.noting.apply frame v) := by
  cases frame with
  | bind f => exact P.enters_bindWith f v
  | map k => exact Code.Enters.bind (.first (.map k v)) _
  | handle h => exact .never
  | fold f h => exact P.enters_bindWith f v
  | restore old r => exact .never

/-- What a frame starts with a failure enters its call. -/
theorem enters_recover (frame : Frame S) (e : Failure) :
    (P.recover frame e).Enters (P.noting.recover frame e) := by
  cases frame with
  | handle h => exact P.enters_recoverWith h e
  | fold f h => exact P.enters_recoverWith h e
  | bind f => exact .never
  | map k => exact .never
  | restore old r => exact .never

end Program

/-! ## Steps -/

namespace State

/-- A machine with a diary is where the machine without it is, with these entries.  Where a
closure has just been called, its entry may be due. -/
inductive Erases (d : List (Use S)) : State S σ →
    State S (σ × List (Use S)) → Prop
  | now (s : State S σ) : Erases d s (s.aside d)
  | soon {α : Type} (h : Holder S σ α) (code : Code S σ α) (u : Use S) (w : World S σ)
      (rest : List (Activation S σ)) :
      Erases d (running w (h.wrap code) rest)
        (running (w.aside d) (h.aside.wrap (code.noting u)) (rest.map .aside))

variable {P : Program S σ} {d : List (Use S)} {w : World S σ} {rest : List (Activation S σ)}

/-- A state with the diary beside it is where the state without is. -/
theorem Erases.of_eq {s : State S σ} {t : State S (σ × List (Use S))} (h : t = s.aside d) :
    Erases d s t :=
  h ▸ .now s

/-- Code is held in the same way with a diary. -/
@[simp]
theorem aside_wrap (h : Holder S σ α) (code : Code S σ α) :
    ((h.wrap code).aside : Activation S (σ × δ)) = h.aside.wrap code.aside := by
  cases h <;> rfl

/-- Code that may write an entry first. -/
theorem erases_wrap (h : Holder S σ α) {code : Code S σ α} {code' : Code S (σ × List (Use S)) α}
    (hc : code.Enters code') :
    Erases d (running w (h.wrap code) rest)
      (running (w.aside d) (h.aside.wrap code') (rest.map .aside)) := by
  cases hc with
  | never => exact .of_eq (by rw [aside, aside_wrap])
  | first u => exact .soon h _ u w rest

/-- A diary makes no difference to returning. -/
theorem resume_aside (w : World S σ) :
    resume (w.aside d) (rest.map .aside) = (resume w rest).aside d := by
  cases rest <;> rfl

/-- A diary makes no difference to panicking. -/
theorem unwind_aside (payload : Payload) :
    unwind (w.aside d) payload (rest.map .aside) = (unwind w payload rest).aside d := by
  cases rest with
  | nil => rfl
  | cons a rest => cases a <;> rfl

/-- A diary makes no difference to a completion, which calls no closure. -/
theorem complete_aside (cb : Callback) (o : Outcome) :
    complete P.noting (w.aside d) cb o (rest.map .aside) = (complete P w cb o rest).aside d := by
  have hbridges : (w.aside d).bridges = w.bridges := rfl
  unfold complete
  rw [hbridges]
  cases w.bridges[cb.bridge]? with
  | none => exact resume_aside (w.report P (.staleCompletion cb.epoch))
  | some b =>
      dsimp only
      split
      · rfl
      · exact resume_aside (w.report P (.staleCompletion cb.epoch))

/-- The terminal of the host enters its call. -/
theorem erases_deliver (t : Terminal S) (o : Outcome) :
    Erases d (deliver P w t o rest) (deliver P.noting (w.aside d) t o (rest.map .aside)) := by
  cases t with
  | user k => exact erases_wrap .code (.first (.terminal k o))
  | complete cb => exact .of_eq (complete_aside cb o)

/-- A loop that ends gives its outcome to a terminal, which may enter its call. -/
theorem erases_finish (run : Loop S) (o : Outcome) :
    Erases d (finish P w run o rest) (finish P.noting (w.aside d) run o (rest.map .aside)) := by
  have hbridges : (w.aside d).bridges = w.bridges := rfl
  unfold finish
  rw [hbridges]
  cases run.outlet with
  | terminal t => exact erases_deliver t o
  | bridge i =>
      dsimp only
      cases w.bridges[i]? with
      | none => exact .of_eq (resume_aside w)
      | some b =>
          cases hterminal : b.terminal with
          | none =>
              simp only [hterminal]
              exact .of_eq (resume_aside w)
          | some t =>
              simp only [hterminal]
              exact erases_deliver t o

/-- A task of the host enters its call. -/
theorem erases_runTask (task : Task S) :
    Erases d (runTask P w task rest) (runTask P.noting (w.aside d) task (rest.map .aside)) := by
  cases task with
  | body cb b => exact erases_wrap (.owing cb) (P.enters_bodyWith b cb)
  | user k => exact erases_wrap .code (.first (.task k))

/-- What a context does with a task is the same with a diary. -/
theorem erases_submit (context : Context S.Executor) (task : Task S) :
    Erases d (submit P w context task rest)
      (submit P.noting (w.aside d) context task (rest.map .aside)) := by
  cases context with
  | immediate => exact erases_runTask task
  | newThread name spawns =>
      simp only [submit]
      cases Context.threadNameFault? name with
      | some message => exact .of_eq (unwind_aside _)
      | none =>
          cases spawns with
          | false => exact erases_runTask task
          | true => exact erases_runTask task
  | pool name worker => exact erases_runTask task
  | hosted name executor => exact erases_wrap .code (.first (.executor executor task))

/-- What a command starts is the same with a diary. -/
theorem erases_begin (c : Command S) :
    Erases d (begin P w c rest) (begin P.noting (w.aside d) c (rest.map .aside)) := by
  cases c with
  | cancel c => exact .now _
  | push c token =>
      have hconnections : (w.aside d).connections = w.connections := rfl
      simp only [begin, hconnections]
      cases w.connections.push c token with
      | kept table => exact .of_eq (resume_aside { w with connections := table })
      | due => exact erases_wrap .code (.first (.token token))
  | complete cb o => exact .of_eq (complete_aside cb o)
  | run e c terminal => exact .now _
  | submit context task => exact erases_submit context task
  | runToken token => exact erases_wrap .code (.first (.token token))
  | runTask task => exact erases_runTask task

/-- One step of code with a diary: it ends, or it goes on after the same request. -/
theorem erases_advance (h : Holder S σ α) {finish : α → State S σ}
    {finish' : α → State S (σ × List (Use S))} {escape : Payload → State S σ}
    {escape' : Payload → State S (σ × List (Use S))}
    (hfinish : ∀ a, Erases d (finish a) (finish' a))
    (hescape : ∀ payload, Erases d (escape payload) (escape' payload)) (code : Code S σ α) :
    Erases d (advance P w rest h.wrap finish escape code)
      (advance P.noting (w.aside d) (rest.map .aside) h.aside.wrap finish' escape' code.aside) := by
  cases code with
  | done a => exact hfinish a
  | panic payload => exact hescape payload
  | query q next =>
      refine .of_eq ?_
      cases q <;> simp only [advance, aside, aside_wrap] <;> rfl
  | command c next =>
      have hbegin : Erases d (begin P w c (h.wrap (next ()) :: rest))
          (begin P.noting (w.aside d) c ((h.wrap (next ()) :: rest).map .aside)) :=
        erases_begin c
      rw [List.map_cons, aside_wrap] at hbegin
      exact hbegin
  | step e next =>
      refine .of_eq ?_
      simp only [advance, Code.aside, aside, Activation.aside, Driver.aside]
      congr 3
      funext r
      cases r with
      | ok residual => exact (aside_wrap h (next residual)).symm
      | error payload => exact (aside_wrap h (.panic payload)).symm

/-- A loop is armed in the same bridge with a diary. -/
theorem arm_aside (run : Loop S) :
    (w.aside d).arm run = ((w.arm run).1.aside d, (w.arm run).2) := by
  have hbridges : (w.aside d).bridges = w.bridges := rfl
  unfold World.arm
  rw [hbridges]
  cases run.outlet with
  | terminal t => rfl
  | bridge i =>
      dsimp only
      cases w.bridges[i]? <;> rfl

/-- A suspension is the same with a diary, if what it starts is. -/
theorem erases_suspend (run : Loop S) {start : Connection → Callback → List (Activation S σ)}
    {start' : Connection → Callback → List (Activation S (σ × List (Use S)))}
    (h : ∀ w c cb, Erases d (resume w (start c cb ++ rest))
      (resume (w.aside d) (start' c cb ++ rest.map .aside))) :
    Erases d (suspend P w run start rest)
      (suspend P.noting (w.aside d) run start' (rest.map .aside)) := by
  unfold suspend
  rw [arm_aside]
  exact h _ _ _

/-- A suspension for a deferred body submits the same body with a diary. -/
theorem erases_suspendOn (run : Loop S) (context : Context S.Executor) (b : Body S) :
    Erases d (suspendOn P w run context b rest)
      (suspendOn P.noting (w.aside d) run context b (rest.map .aside)) := by
  unfold suspendOn
  rw [arm_aside]
  exact erases_submit context _

/-- A failure comes to the same frame with a diary. -/
theorem erases_fail (driver : Driver S σ) (e : Failure) :
    Erases d (fail P w driver e rest)
      (fail P.noting (w.aside d) driver.aside e (rest.map .aside)) := by
  cases driver with
  | loop run => exact erases_finish run _
  | partially stack resume => exact .now _

/-- A value comes to the same frame with a diary. -/
theorem erases_yield (driver : Driver S σ) (v : Value) :
    Erases d (yield P w driver v rest)
      (yield P.noting (w.aside d) driver.aside v (rest.map .aside)) := by
  cases driver with
  | loop run => exact erases_finish run _
  | partially stack resume => exact .now _

/-- A node is taken apart in the same way with a diary. -/
theorem erases_reduce (driver : Driver S σ) (node : Effect S) :
    Erases d (reduce P w driver node rest)
      (reduce P.noting (w.aside d) driver.aside node (rest.map .aside)) := by
  cases node with
  | pure v => exact .now _
  | fail e =>
      simp only [reduce, Driver.stack_aside, Driver.withStack_aside]
      cases driver.stack.findErrorHandler with
      | mk frame below =>
          cases frame with
          | some frame =>
              exact erases_wrap (.node (driver.withStack below)) (P.enters_recover frame e)
          | none => exact erases_fail (driver.withStack below) e
  | suspend k => exact erases_wrap (.node driver) (.first (.thunk k))
  | delay k => exact erases_wrap (.outcome driver) (.first (.delay k))
  | bind source frame => exact .of_eq (by simp only [reduce, Driver.push_aside]; rfl)
  | map source f => exact .of_eq (by simp only [reduce, Driver.push_aside]; rfl)
  | continueOn context source => exact .now _
  | async k =>
      cases driver with
      | partially stack resume => exact .now _
      | loop run =>
          have hstart : ∀ w c cb, Erases d (resume w ([.owing cb (P.registration k c cb)] ++ rest))
              (resume (w.aside d)
                ([.owing cb (P.noting.registration k c cb)] ++ rest.map .aside)) :=
            fun w c cb => erases_wrap (.owing cb) (.first (.registration k c cb))
          exact erases_suspend run hstart
  | parked inner stack =>
      cases driver with
      | partially stack resume => exact .now _
      | loop run =>
          have hstart : ∀ w c cb, Erases d
              (resume w ([.eval (.loop ⟨c, stack, .terminal (.complete cb)⟩) inner,
                .owing cb (.done ())] ++ rest))
              (resume (w.aside d) ([.eval (.loop ⟨c, stack, .terminal (.complete cb)⟩) inner,
                .owing cb (.done ())] ++ rest.map .aside)) :=
            fun w c cb => .now _
          exact erases_suspend run hstart
  | deferred context b =>
      cases driver with
      | partially stack resume => exact .now _
      | loop run => exact erases_suspendOn run context b
  | switchConnection source modify restore =>
      cases driver with
      | partially stack resume => exact .now _
      | loop run =>
          exact erases_wrap (.switch run source restore) (P.enters_modifyWith modify _)

/-- A driver in front of a node goes on in the same way with a diary. -/
theorem erases_eval (driver : Driver S σ) (node : Effect S) :
    Erases d (eval P w driver node rest)
      (eval P.noting (w.aside d) driver.aside node (rest.map .aside)) := by
  cases driver with
  | partially stack resume => exact erases_reduce (.partially stack resume) node
  | loop run =>
      have hconnections : (w.aside d).connections = w.connections := rfl
      simp only [eval, Driver.aside, hconnections]
      split
      · exact erases_finish (w := w.report P (.runCancelled _ _)) run _
      · exact erases_reduce (.loop run) node

/-- A driver with a value goes on in the same way with a diary. -/
theorem erases_value (driver : Driver S σ) (v : Value) :
    Erases d (value P w driver v rest)
      (value P.noting (w.aside d) driver.aside v (rest.map .aside)) := by
  simp only [value, Driver.stack_aside, Driver.withStack_aside]
  cases driver.stack.popNext with
  | mk frame below =>
      cases frame with
      | some frame => exact erases_wrap (.node (driver.withStack below)) (P.enters_apply frame v)
      | none => exact erases_yield (driver.withStack below) v

/-- A region begins on the same connection with a diary. -/
theorem switched_aside (run : Loop S) (source : Effect S) (restore : Option (Restorer S))
    (new : Connection) :
    switched (w.aside d) run source restore new (rest.map .aside) =
      (switched w run source restore new rest).aside d := by
  have hfollow : (w.aside d).followSwitch run new = (w.followSwitch run new).aside d := by
    have hbridges : (w.aside d).bridges = w.bridges := rfl
    unfold World.followSwitch
    rw [hbridges]
    split
    · rfl
    · cases run.outlet with
      | terminal t => rfl
      | bridge i =>
          dsimp only
          cases w.bridges[i]? <;> rfl
  unfold switched
  rw [hfollow]
  cases restore <;> rfl

/-- A panic is survived with a diary if it is without. -/
theorem erases_contain {recovered : World S σ → Failure → State S σ}
    {recovered' : World S (σ × List (Use S)) → Failure → State S (σ × List (Use S))}
    (h : ∀ w e, Erases d (recovered w e) (recovered' (w.aside d) e)) (payload : Payload) :
    Erases d (contain P w payload recovered rest)
      (contain P.noting (w.aside d) payload recovered' (rest.map .aside)) := by
  have hclassifier : (w.aside d).classifier = w.classifier := rfl
  simp only [contain, hclassifier]
  split
  · exact h (w.report P _) _
  · exact .of_eq (unwind_aside payload)

/-- A panic in front of a driver goes on in the same way with a diary. -/
theorem erases_panicIn (driver : Driver S σ) (payload : Payload) :
    Erases d (panicIn P w driver payload rest)
      (panicIn P.noting (w.aside d) driver.aside payload (rest.map .aside)) := by
  cases driver with
  | loop run =>
      simp only [panicIn, Driver.aside]
      exact erases_contain (fun w e => .now _) payload
  | partially stack resume =>
      have hclassifier : (w.aside d).classifier = w.classifier := rfl
      simp only [panicIn, Driver.aside, hclassifier]
      split <;> exact .now _

/-- A step of an activation, with a diary. -/
theorem erases_work (top : Activation S σ) :
    Erases d (work P w rest top)
      (work P.noting (w.aside d) (rest.map .aside) top.aside) := by
  cases top with
  | eval driver node => exact erases_eval driver node
  | value driver v => exact erases_value driver v
  | node driver code =>
      exact erases_advance (.node driver) (fun _ => .now _) (erases_panicIn driver) code
  | outcome driver code =>
      refine erases_advance (.outcome driver) (fun o => ?_) (erases_panicIn driver) code
      cases o <;> exact .now _
  | switch run source restore code =>
      exact erases_advance (.switch run source restore)
        (fun new => .of_eq (switched_aside run source restore new)) (erases_panicIn (.loop run))
        code
  | owing cb code =>
      exact erases_advance (.owing cb) (fun _ => .of_eq (resume_aside w))
        (erases_contain fun w e => .of_eq (complete_aside cb (.error e))) code
  | code code =>
      exact erases_advance .code (fun _ => .of_eq (resume_aside w))
        (fun payload => .of_eq (unwind_aside payload)) code
  | tokens pending =>
      cases pending with
      | nil => exact .of_eq (resume_aside w)
      | cons token pending =>
          have hwrap : Erases d (running w (.code (P.token token)) (.tokens pending :: rest))
              (running (w.aside d) (.code (P.noting.token token))
                ((.tokens pending :: rest).map .aside)) :=
            erases_wrap .code (.first (.token token))
          exact hwrap
  | thread outer => exact .of_eq (resume_aside { w with thread := outer })

/-- A step of a machine, with a diary. -/
theorem erases_next (s : State S σ) : Erases d (s.next P) ((s.aside d).next P.noting) := by
  cases s with
  | running w top rest => exact erases_work top
  | returned w => exact .now (returned w)
  | unwound w payload => exact .now (unwound w payload)

/-- The next step writes the entry that is due. -/
theorem next_soon (h : Holder S σ α) (code : Code S σ α) (u : Use S) :
    (running (w.aside d) (h.aside.wrap (code.noting u)) (rest.map .aside)).next P.noting =
      (running w (h.wrap code) rest).aside (d ++ [u]) := by
  cases h <;> rfl

/-- A machine with a diary has written all entries after one more step. -/
theorem Erases.settle (P : Program S σ) {s : State S σ} {t : State S (σ × List (Use S))}
    (h : Erases d s t) : ∃ n d', State.run P.noting n t = s.aside d' := by
  cases h with
  | now s => exact ⟨0, d, rfl⟩
  | soon h code u w rest => exact ⟨1, d ++ [u], next_soon h code u⟩

/-- A step of a machine with a diary is one of the machine without, or it writes the entry that
is due. -/
theorem Erases.next {s : State S σ} {t : State S (σ × List (Use S))} (h : Erases d s t) :
    Erases d (s.next P) (t.next P.noting) ∨ ∃ u, t.next P.noting = s.aside (d ++ [u]) := by
  cases h with
  | now s => exact .inl (erases_next s)
  | soon h code u w rest => exact .inr ⟨u, next_soon h code u⟩

/-- A machine with a diary takes the steps of the machine without. -/
theorem Erases.run {s : State S σ} {t : State S (σ × List (Use S))} (h : Erases d s t) (m : Nat) :
    ∃ n d', Erases d' (State.run P n s) (State.run P.noting m t) := by
  induction m with
  | zero => exact ⟨0, d, h⟩
  | succ m ih =>
      obtain ⟨n, d', hm⟩ := ih
      rw [run_succ']
      rcases hm.next with hnext | ⟨u, hnext⟩
      · exact ⟨n + 1, d', by rwa [run_succ']⟩
      · exact ⟨n, d' ++ [u], hnext ▸ .now _⟩

/-- Both machines have come to the same end, or neither has. -/
theorem Erases.end?_eq {s : State S σ} {t : State S (σ × List (Use S))} (h : Erases d s t) :
    t.end? = s.end? := by
  cases h with
  | now s => cases s <;> rfl
  | soon h code u w rest => rfl

/-- The machine with a diary comes to its end when the one without does. -/
theorem Erases.ended_iff {s : State S σ} {t : State S (σ × List (Use S))} (h : Erases d s t) :
    s.activations = [] ↔ t.activations = [] := by
  cases h with
  | now s => cases s <;> simp [aside]
  | soon h code u w rest => simp

/-- The two machines have the same world, apart from the diary. -/
theorem Erases.world {s : State S σ} {t : State S (σ × List (Use S))} (h : Erases d s t) :
    t.world = s.world.aside d := by
  cases h with
  | now s => cases s <;> rfl
  | soon h code u w rest => rfl

/-- No panic leaves a machine with a diary if none leaves the machine without. -/
theorem Erases.neverUnwinds {s : State S σ} {t : State S (σ × List (Use S))} (h : Erases d s t)
    (hs : s.NeverUnwinds P) : t.NeverUnwinds P.noting := by
  intro m w payload hm
  obtain ⟨n, d', hrun⟩ := h.run m
  have hend := hrun.end?_eq
  rw [hm] at hend
  generalize hn : State.run P n s = s' at hend
  cases s' with
  | running w top rest => cases hend
  | returned w => cases hend
  | unwound w payload => exact hs n w payload hn

end State

/-- Code that panics in a machine with a diary panics in the machine without. -/
theorem Activation.wrap_panic_of_aside {a : Activation S σ} {h' : Holder S (σ × δ) α}
    {payload : Payload} (d : δ) (ha : a.aside = h'.wrap (.panic payload)) :
    ∃ h : Holder S σ α, a = h.wrap (.panic payload) ∧ h' = h.aside := by
  have hpanic : ∀ {γ : Type} {code : Code S σ γ},
      (code.aside : Code S (σ × δ) γ) = .panic payload → code = .panic payload :=
    fun h => Code.aside_injective d (h.trans rfl)
  cases h' with
  | node driver' =>
      cases a <;> simp only [aside, Holder.wrap, reduceCtorEq] at ha
      next driver code =>
        obtain ⟨rfl, hc⟩ := Activation.node.inj ha
        exact ⟨.node driver, by rw [hpanic hc]; rfl, rfl⟩
  | outcome driver' =>
      cases a <;> simp only [aside, Holder.wrap, reduceCtorEq] at ha
      next driver code =>
        obtain ⟨rfl, hc⟩ := Activation.outcome.inj ha
        exact ⟨.outcome driver, by rw [hpanic hc]; rfl, rfl⟩
  | switch run source restore =>
      cases a <;> simp only [aside, Holder.wrap, reduceCtorEq] at ha
      next run' source' restore' code =>
        obtain ⟨rfl, rfl, rfl, hc⟩ := Activation.switch.inj ha
        exact ⟨.switch run' source' restore', by rw [hpanic hc]; rfl, rfl⟩
  | owing cb =>
      cases a <;> simp only [aside, Holder.wrap, reduceCtorEq] at ha
      next cb' code =>
        obtain ⟨rfl, hc⟩ := Activation.owing.inj ha
        exact ⟨.owing cb', by rw [hpanic hc]; rfl, rfl⟩
  | code =>
      cases a <;> simp only [aside, Holder.wrap, reduceCtorEq] at ha
      next code =>
        exact ⟨.code, by rw [hpanic (Activation.code.inj ha)]; rfl, rfl⟩

namespace State.Erases

variable {P : Program S σ} {d : List (Use S)} {s : State S σ} {t : State S (σ × List (Use S))}

/-- What the entry that is due is about comes next in the machine without a diary. -/
theorem starts (h : Erases d s t) {w' : World S (σ × List (Use S))} {code : Code S σ Unit}
    {u : Use S} (ht : t = running w' (.code (code.noting u)) []) :
    ∃ w, s = running w (.code code) [] := by
  cases h with
  | now s =>
      cases s with
      | returned w => cases ht
      | unwound w payload => cases ht
      | running w top rest =>
          obtain ⟨-, htop, -⟩ := State.running.inj ht
          cases top <;> simp only [Activation.aside, reduceCtorEq] at htop
          next c => exact absurd (Activation.code.inj htop) (c.aside_ne_noting w.host code u)
  | soon h c u' w rest =>
      obtain ⟨-, htop, hrest⟩ := State.running.inj ht
      cases h <;> simp only [Holder.aside, Holder.wrap, reduceCtorEq] at htop
      have hnoting := Activation.code.inj htop
      simp only [Code.noting, Code.query.injEq, heq_eq_eq] at hnoting
      obtain rfl := Code.aside_injective [] (congrFun hnoting.2 ())
      obtain rfl := List.map_eq_nil_iff.mp hrest
      exact ⟨w, rfl⟩

/-- A machine with a diary asks of its code what the machine without asks. -/
theorem panicsContained (h : Erases d s t) (hs : PanicsContained P s) :
    PanicsContained P.noting t where
  survives := fun {α} holder {w'} {payload} ht hcode => by
    cases h with
    | now s =>
        cases s with
        | returned w => cases ht
        | unwound w payload => cases ht
        | running w top rest =>
            obtain ⟨rfl, htop, hrest⟩ := State.running.inj ht
            obtain ⟨holder, rfl, rfl⟩ := Activation.wrap_panic_of_aside d htop
            obtain rfl := List.map_eq_nil_iff.mp hrest
            refine hs.survives holder rfl fun hc => hcode ?_
            have haside : ((holder.wrap (.panic payload)).aside : Activation S (σ × List (Use S))) =
                .code (.panic payload) := by
              rw [hc]
              rfl
            rwa [aside_wrap] at haside
    | soon h c u w rest =>
        obtain ⟨-, htop, -⟩ := State.running.inj ht
        cases h <;> cases holder <;> cases htop
  terminal := fun ht => by
    obtain ⟨w, hw⟩ := h.starts ht
    exact h.neverUnwinds (hs.terminal hw)
  executor := fun ht => by
    obtain ⟨w, hw⟩ := h.starts ht
    exact h.neverUnwinds (hs.executor hw)
  named := fun ht => by
    cases h with
    | now s =>
        cases s with
        | returned w => cases ht
        | unwound w payload => cases ht
        | running w top rest =>
            obtain ⟨-, htop, hrest⟩ := State.running.inj ht
            obtain rfl := List.map_eq_nil_iff.mp hrest
            cases top <;> simp only [Activation.aside, reduceCtorEq] at htop
            next driver node =>
              obtain ⟨hdriver, rfl⟩ := Activation.eval.inj htop
              cases driver <;> cases hdriver
              exact hs.named rfl
    | soon h c u w rest =>
        obtain ⟨-, htop, -⟩ := State.running.inj ht
        cases h <;> cases htop

/-- A machine with a diary lets no panic out if the machine without lets none out. -/
theorem contained (h : Erases d s t) (hs : s.StepContained P) : t.StepContained P.noting := by
  intro w' top' rest' ht
  cases h with
  | now s =>
      cases s with
      | returned w => cases ht
      | unwound w payload => cases ht
      | running w top rest =>
          cases ht
          exact panicsContained (.now (running w top [])) (hs w top rest rfl)
  | soon h c u w rest =>
      cases ht
      exact panicsContained (.soon h c u w []) (hs w (h.wrap c) rest rfl)

end State.Erases

end Trampoline
