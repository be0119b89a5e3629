import Mathlib.Data.List.Forall2
import Trampoline.Proofs.Laws.Alike
import Trampoline.Proofs.Machine.Bridges

/-!
# Machines side by side

Two machines that run side by side may differ: in what their hosts have noted, in the name of the
thread, in the frames that are pending.  Whatever they may differ in, the engine does the same with
bridges, callbacks, tasks and commands on both sides, as long as what it starts on the one side is
like what it starts on the other.

Main definitions and results:

- Definition `Likeness`: in what two machines may differ.
- Definitions `Likeness.Worlds`, `Likeness.Controls`, `Likeness.States`: worlds, control stacks and
  states that differ in nothing else.
- Definition `Likeness.Kept`: what the engine starts for two hosts is alike.
- Theorems `Likeness.Worlds.arm`, `Likeness.Worlds.followSwitch`, `Likeness.Worlds.answer`: the
  world.
- Theorems `Likeness.Kept.complete`, `Likeness.Kept.finish`, `Likeness.Kept.submit`,
  `Likeness.Kept.begin_of_ne_run`, `Likeness.Kept.suspendOn`, ...: what an activation does.
-/

namespace Trampoline

variable {S : Closures} {σ : Type}

/-- Optional values related more closely are related more loosely. -/
theorem optionRel_mono {α β : Type} {R R' : α → β → Prop} (h : ∀ a b, R a b → R' a b)
    {a? : Option α} {b? : Option β} : Option.Rel R a? b? → Option.Rel R' a? b?
  | .none => .none
  | .some hab => .some (h _ _ hab)

/-- In what two machines that run side by side may differ. -/
structure Likeness (S : Closures) (σ : Type) where
  /-- The states of the hosts. -/
  host : σ → σ → Prop
  /-- The names of the threads. -/
  thread : String → String → Prop
  /-- The trace events. -/
  event : TraceEvent → TraceEvent → Prop
  /-- The frames in the bridge with a number. -/
  parked : Nat → CallStack (Frame S) → CallStack (Frame S) → Prop
  /-- The activations with so many others below them. -/
  activation : Nat → Activation S σ → Activation S σ → Prop

namespace Likeness

section

variable (L : Likeness S σ)

/-- Two bridges with a number. -/
structure Bridges (i : Nat) (b b' : Bridge S) : Prop where
  connection : b.connection = b'.connection
  terminal : b.terminal = b'.terminal
  stack : L.parked i b.stack b'.stack
  armed : b.armed = b'.armed
  epochs : b.epochs = b'.epochs

/-- Two worlds. -/
structure Worlds (w w' : World S σ) : Prop where
  host : L.host w.host w'.host
  connections : w.connections = w'.connections
  bridges : ∀ i : Nat, Option.Rel (L.Bridges i) w.bridges[i]? w'.bridges[i]?
  classifier : w.classifier = w'.classifier
  thread : L.thread w.thread w'.thread

/-- Two control stacks. -/
inductive Controls : List (Activation S σ) → List (Activation S σ) → Prop
  | nil : Controls [] []
  | cons {a a' : Activation S σ} {rest rest' : List (Activation S σ)}
      (top : L.activation rest.length a a') (waiting : Controls rest rest') :
      Controls (a :: rest) (a' :: rest')

/-- Two states of the machine. -/
inductive States : State S σ → State S σ → Prop
  | running {w w' : World S σ} {top top' : Activation S σ} {rest rest' : List (Activation S σ)}
      (world : L.Worlds w w') (work : L.activation rest.length top top')
      (waiting : L.Controls rest rest') : States (.running w top rest) (.running w' top' rest')
  | returned {w w' : World S σ} (world : L.Worlds w w') : States (.returned w) (.returned w')
  | unwound {w w' : World S σ} (world : L.Worlds w w') (payload : Payload) :
      States (.unwound w payload) (.unwound w' payload)

/-- What the engine reports to two hosts and starts for them is alike. -/
structure Kept (P P' : Program S σ) : Prop where
  observe : ∀ {event event' s s'}, L.event event event' → L.host s s' →
    L.host (P.observe event s) (P'.observe event' s')
  same_event : ∀ event, L.event event event
  resumed : ∀ {i stack stack'}, L.parked i stack stack' → ∀ epoch,
    L.event (.resumed epoch stack.length) (.resumed epoch stack'.length)
  suspended : ∀ {i stack stack'}, L.parked i stack stack' → ∀ epoch,
    L.event (.suspendedAsync epoch stack.length) (.suspendedAsync epoch stack'.length)
  deferred : ∀ {i stack stack'}, L.parked i stack stack' → ∀ name epoch,
    L.event (.suspendedDeferred name epoch stack.length)
      (.suspendedDeferred name epoch stack'.length)
  same_thread : ∀ name, L.thread name name
  /-- Nothing is left in a bridge that has been taken up. -/
  emptied : ∀ i, L.parked i .empty .empty
  panicking : ∀ {n a a'}, L.activation n a a' → ∀ payload,
    L.activation n (a.panicking payload) (a'.panicking payload)
  taken : ∀ {i stack stack'}, L.parked i stack stack' → ∀ n c o,
    L.activation n (.eval (.loop ⟨c, stack, .bridge i⟩) (.ofOutcome o))
      (.eval (.loop ⟨c, stack', .bridge i⟩) (.ofOutcome o))
  terminal : ∀ n k o, L.activation n (.code (P.terminal k o)) (.code (P'.terminal k o))
  token : ∀ n k, L.activation n (.code (P.token k)) (.code (P'.token k))
  task : ∀ n k, L.activation n (.code (P.task k)) (.code (P'.task k))
  executor : ∀ n k task, L.activation n (.code (P.executor k task)) (.code (P'.executor k task))
  body : ∀ n b cb, L.activation n (.owing cb (P.bodyWith b cb)) (.owing cb (P'.bodyWith b cb))
  tokens : ∀ n pending, L.activation n (.tokens pending) (.tokens pending)
  bottom : ∀ {outer outer'}, L.thread outer outer' → ∀ n,
    L.activation n (.thread outer) (.thread outer')

end

variable {L : Likeness S σ} {P P' : Program S σ} {w w' : World S σ}
  {rest rest' : List (Activation S σ)}

/-- Where it does not matter how many activations are below, the control stacks are alike one by
one. -/
theorem forall_iff_controls {A : Activation S σ → Activation S σ → Prop}
    (hA : ∀ n a a', A a a' ↔ L.activation n a a') :
    List.Forall₂ A rest rest' ↔ L.Controls rest rest' := by
  constructor
  · intro h
    induction h with
    | nil => exact .nil
    | cons top waiting ih => exact .cons ((hA _ _ _).mp top) ih
  · intro h
    induction h with
    | nil => exact .nil
    | cons top waiting ih => exact .cons ((hA _ _ _).mpr top) ih

/-! ## The world -/

namespace Worlds

/-- Worlds that are alike have as many bridges. -/
theorem size_eq (hw : L.Worlds w w') : w.bridges.size = w'.bridges.size := by
  have hnone : ∀ i : Nat, w.bridges[i]? = none ↔ w'.bridges[i]? = none := by
    intro i
    have hrel := hw.bridges i
    generalize w.bridges[i]? = b, w'.bridges[i]? = b' at hrel
    cases hrel <;> simp
  simp only [Array.getElem?_eq_none_iff] at hnone
  exact Nat.le_antisymm ((hnone _).mpr (Nat.le_refl _)) ((hnone _).mp (Nat.le_refl _))

/-- Reports of events that are alike keep worlds alike. -/
theorem report (hw : L.Worlds w w') (hL : L.Kept P P') {event event' : TraceEvent}
    (h : L.event event event') : L.Worlds (w.report P event) (w'.report P' event') :=
  ⟨hL.observe h hw.host, hw.connections, hw.bridges, hw.classifier, hw.thread⟩

/-- Worlds stay alike with the same table of connections. -/
theorem withConnections (hw : L.Worlds w w') (table : Connections S.Token) :
    L.Worlds { w with connections := table } { w' with connections := table } :=
  ⟨hw.host, rfl, hw.bridges, hw.classifier, hw.thread⟩

/-- Worlds stay alike on threads that are alike. -/
theorem withThread (hw : L.Worlds w w') {thread thread' : String} (h : L.thread thread thread') :
    L.Worlds { w with thread := thread } { w' with thread := thread' } :=
  ⟨hw.host, hw.connections, hw.bridges, hw.classifier, h⟩

/-- Worlds stay alike with bridges that are alike set in both. -/
theorem setBridge (hw : L.Worlds w w') {i : Nat} {b b' : Bridge S} (hb : L.Bridges i b b') :
    L.Worlds (w.setBridge i b) (w'.setBridge i b') where
  host := hw.host
  connections := hw.connections
  bridges j := by
    simp only [World.setBridge, Array.getElem?_setIfInBounds, hw.size_eq]
    split
    · next hij =>
        subst hij
        split
        · exact .some hb
        · exact .none
    · exact hw.bridges j
  classifier := hw.classifier
  thread := hw.thread

/-- A callback has the same connection in worlds that are alike. -/
theorem connectionOf_eq (hw : L.Worlds w w') (cb : Callback) :
    w.connectionOf cb = w'.connectionOf cb := by
  unfold World.connectionOf
  have hrel := hw.bridges cb.bridge
  generalize w.bridges[cb.bridge]? = b, w'.bridges[cb.bridge]? = b' at hrel ⊢
  cases hrel with
  | none => rfl
  | some hb => exact hb.connection

/-- The terminal of a loop is the same on both sides. -/
theorem terminal?_eq (hw : L.Worlds w w') (outlet : Outlet S) :
    w.terminal? outlet = w'.terminal? outlet := by
  cases outlet with
  | terminal t => rfl
  | bridge i =>
      have hrel := hw.bridges i
      simp only [World.terminal?]
      generalize w.bridges[i]? = b, w'.bridges[i]? = b' at hrel ⊢
      cases hrel with
      | none => rfl
      | some hb => exact hb.terminal

/-- A callback is armed in both of two worlds that are alike, or in neither. -/
theorem isArmed_eq (hw : L.Worlds w w') (cb : Callback) : w.isArmed cb = w'.isArmed cb := by
  unfold World.isArmed
  have hrel := hw.bridges cb.bridge
  generalize w.bridges[cb.bridge]? = b, w'.bridges[cb.bridge]? = b' at hrel ⊢
  cases hrel with
  | none => rfl
  | some hb => simp [hb.armed]

/-- A query that has nothing to do with the host is answered alike, unless it is for a name of the
thread in which the two sides differ. -/
theorem answer (hw : L.Worlds w w') {q : Query S σ} (hq : q.Impersonal)
    (hthread : q = .threadName → w.thread = w'.thread) :
    L.Worlds (w.answer q).1 (w'.answer q).1 ∧ (w.answer q).2 = (w'.answer q).2 := by
  cases q with
  | host => exact hq.elim
  | modifyHost f => exact hq.elim
  | threadName => exact ⟨hw, hthread rfl⟩
  | newConnection =>
      simp only [World.answer, hw.connections]
      exact ⟨hw.withConnections _, trivial⟩
  | isCanceled c => exact ⟨hw, by simp only [World.answer, hw.connections]⟩
  | pop c =>
      simp only [World.answer, hw.connections]
      exact ⟨hw.withConnections _, trivial⟩
  | connectionOf cb => exact ⟨hw, hw.connectionOf_eq cb⟩
  | isNonFatal payload => exact ⟨hw, by simp only [World.answer, hw.classifier]⟩
  | setClassifier f => exact ⟨⟨hw.host, hw.connections, hw.bridges, rfl, hw.thread⟩, rfl⟩

section

variable {run run' : Loop S}

/-- Both sides park in the same bridge and hand the same callback out. -/
theorem arm (hw : L.Worlds w w') (hconnection : run.connection = run'.connection)
    (houtlet : run.outlet = run'.outlet)
    (hstack : L.parked (w.arm run).2.bridge run.stack run'.stack) :
    L.Worlds (w.arm run).1 (w'.arm run').1 ∧ (w.arm run).2 = (w'.arm run').2 := by
  unfold World.arm at hstack ⊢
  rw [← houtlet]
  cases hout : run.outlet with
  | terminal t =>
      simp only [hout] at hstack ⊢
      refine ⟨⟨hw.host, hw.connections, fun i => ?_, hw.classifier, hw.thread⟩, by
        rw [hw.size_eq]⟩
      simp only [Array.getElem?_push, hw.size_eq]
      split
      · next hi => exact .some ⟨hconnection, rfl, by rwa [hi, ← hw.size_eq], rfl, rfl⟩
      · exact hw.bridges i
  | bridge i =>
      simp only [hout] at hstack ⊢
      have hrel := hw.bridges i
      generalize w.bridges[i]? = b, w'.bridges[i]? = b' at hrel hstack ⊢
      cases hrel with
      | none => exact ⟨hw, rfl⟩
      | some hb =>
          refine ⟨hw.setBridge ⟨hb.connection, hb.terminal, hstack, ?_, ?_⟩, ?_⟩
          · simp only [hb.epochs]
          · simp only [hb.epochs]
          · simp only [hb.epochs]

/-- What both sides come to when they park. -/
theorem armed (hw : L.Worlds w w') (hconnection : run.connection = run'.connection)
    (houtlet : run.outlet = run'.outlet)
    (hstack : L.parked (w.arm run).2.bridge run.stack run'.stack) :
    ∃ w₁ w₁' cb, w.arm run = (w₁, cb) ∧ w'.arm run' = (w₁', cb) ∧ L.Worlds w₁ w₁' := by
  obtain ⟨hworld, hcb⟩ := hw.arm hconnection houtlet hstack
  exact ⟨_, _, _, rfl, Prod.ext rfl hcb.symm, hworld⟩

/-- The bridge of a run follows it on both sides. -/
theorem followSwitch (hw : L.Worlds w w') (hconnection : run.connection = run'.connection)
    (houtlet : run.outlet = run'.outlet) (new : Connection) :
    L.Worlds (w.followSwitch run new) (w'.followSwitch run' new) := by
  unfold World.followSwitch
  rw [← houtlet, ← hconnection]
  split
  · exact hw
  · cases run.outlet with
    | terminal t => exact hw
    | bridge i =>
        have hrel := hw.bridges i
        simp only
        generalize w.bridges[i]? = b, w'.bridges[i]? = b' at hrel ⊢
        cases hrel with
        | none => exact hw
        | some hb => exact hw.setBridge ⟨rfl, hb.terminal, hb.stack, hb.armed, hb.epochs⟩

end

end Worlds

/-! ## What an activation does -/

namespace Kept

variable (hL : L.Kept P P') (hw : L.Worlds w w') (hrest : L.Controls rest rest')

include hw hrest

/-- The activations below are resumed alike. -/
theorem resume : L.States (.resume w rest) (.resume w' rest') := by
  cases hrest with
  | nil => exact .returned hw
  | cons top waiting => exact .running hw top waiting

include hL

/-- Stacks that are alike are unwound alike. -/
theorem unwind (payload : Payload) :
    L.States (.unwind w payload rest) (.unwind w' payload rest') := by
  cases hrest with
  | nil => exact .unwound hw payload
  | cons top waiting => exact .running hw (hL.panicking top payload) waiting

/-- Both sides survive the panic of guarded code, or neither does. -/
theorem contain {recovered recovered' : World S σ → Failure → State S σ} (payload : Payload)
    (h : ∀ w w' e, L.Worlds w w' → L.States (recovered w e) (recovered' w' e)) :
    L.States (.contain P w payload recovered rest) (.contain P' w' payload recovered' rest') := by
  simp only [State.contain, hw.classifier]
  split
  · exact h _ _ _ (hw.report hL (hL.same_event _))
  · exact hL.unwind hw hrest payload

/-- A completion takes the same run up on both sides, or is ignored on both. -/
theorem complete (cb : Callback) (o : Outcome) :
    L.States (.complete P w cb o rest) (.complete P' w' cb o rest') := by
  have hignored : L.States (.resume (w.report P (.staleCompletion cb.epoch)) rest)
      (.resume (w'.report P' (.staleCompletion cb.epoch)) rest') :=
    resume (hw.report hL (hL.same_event _)) hrest
  unfold State.complete
  have hrel := hw.bridges cb.bridge
  generalize w.bridges[cb.bridge]? = b, w'.bridges[cb.bridge]? = b' at hrel ⊢
  cases hrel with
  | none => exact hignored
  | @some b b' hb =>
      have hset : L.Worlds (w.setBridge cb.bridge { b with armed := none, stack := .empty })
          (w'.setBridge cb.bridge { b' with armed := none, stack := .empty }) :=
        hw.setBridge ⟨hb.connection, hb.terminal, hL.emptied _, rfl, hb.epochs⟩
      simp only [hb.armed]
      split
      · refine .running (hset.report hL (hL.resumed hb.stack cb.epoch)) ?_ hrest
        rw [hb.connection]
        exact hL.taken hb.stack _ _ o
      · exact hignored

/-- An outcome is delivered alike. -/
theorem deliver (t : Terminal S) (o : Outcome) :
    L.States (.deliver P w t o rest) (.deliver P' w' t o rest') := by
  cases t with
  | user k => exact .running hw (hL.terminal _ k o) hrest
  | complete cb => exact hL.complete hw hrest cb o

/-- A loop ends alike on both sides, whatever frames are left. -/
theorem finish {run run' : Loop S} (houtlet : run.outlet = run'.outlet) (o : Outcome) :
    L.States (.finish P w run o rest) (.finish P' w' run' o rest') := by
  unfold State.finish
  rw [← houtlet]
  cases run.outlet with
  | terminal t => exact hL.deliver hw hrest t o
  | bridge i =>
      have hrel := hw.bridges i
      simp only
      generalize w.bridges[i]? = b, w'.bridges[i]? = b' at hrel ⊢
      cases hrel with
      | none => exact resume hw hrest
      | @some b b' hb =>
          simp only [hb.terminal]
          cases b'.terminal with
          | none => exact resume hw hrest
          | some t =>
              refine hL.deliver (hw.setBridge ?_) hrest t o
              exact ⟨hb.connection, rfl, hb.stack, hb.armed, hb.epochs⟩

/-- A task is run alike. -/
theorem runTask (task : Task S) :
    L.States (.runTask P w task rest) (.runTask P' w' task rest') := by
  cases task with
  | body cb b => exact .running hw (hL.body _ b cb) hrest
  | user k => exact .running hw (hL.task _ k) hrest

/-- A task is run alike on another thread. -/
theorem runTaskOn (thread : String) (task : Task S) :
    L.States (.runTaskOn P w thread task rest) (.runTaskOn P' w' thread task rest') :=
  hL.runTask (hw.withThread (hL.same_thread thread)) (.cons (hL.bottom hw.thread _) hrest) task

/-- A task runs on the same context on both sides. -/
theorem submit (context : Context S.Executor) (task : Task S) :
    L.States (.submit P w context task rest) (.submit P' w' context task rest') := by
  cases context with
  | immediate => exact hL.runTask hw hrest task
  | newThread name spawns =>
      simp only [State.submit]
      cases Context.threadNameFault? name with
      | some message => exact hL.unwind hw hrest _
      | none =>
          cases spawns with
          | false => exact hL.runTask (hw.report hL (hL.same_event _)) hrest task
          | true => exact hL.runTaskOn hw hrest name task
  | pool name worker => exact hL.runTaskOn hw hrest worker task
  | hosted name executor => exact .running hw (hL.executor _ executor task) hrest

/-- A command other than a new run does the same on both sides. -/
theorem begin_of_ne_run (c : Command S)
    (hc : ∀ e connection terminal, c ≠ .run e connection terminal) :
    L.States (.begin P w c rest) (.begin P' w' c rest') := by
  cases c with
  | cancel c =>
      simp only [State.begin, hw.connections]
      exact .running (hw.withConnections _) (hL.tokens _ _) hrest
  | push c token =>
      simp only [State.begin, hw.connections]
      cases w'.connections.push c token with
      | kept table => exact resume (hw.withConnections table) hrest
      | due => exact .running hw (hL.token _ token) hrest
  | complete cb o => exact hL.complete hw hrest cb o
  | run e c terminal => exact absurd rfl (hc e c terminal)
  | submit context task => exact hL.submit hw hrest context task
  | runToken token => exact .running hw (hL.token _ token) hrest
  | runTask task => exact hL.runTask hw hrest task

section

variable {run run' : Loop S} (hconnection : run.connection = run'.connection)
  (houtlet : run.outlet = run'.outlet)
  (hstack : L.parked (w.arm run).2.bridge run.stack run'.stack)

include hconnection houtlet hstack

omit hrest in
/-- Both loops suspend alike, with what is started. -/
theorem suspend {start start' : Connection → Callback → List (Activation S σ)}
    (hstart : ∀ c cb, L.Controls (start c cb ++ rest) (start' c cb ++ rest')) :
    L.States (.suspend P w run start rest) (.suspend P' w' run' start' rest') := by
  obtain ⟨w₁, w₁', cb, harm, harm', hworld⟩ := hw.armed hconnection houtlet hstack
  unfold State.suspend
  rw [harm, harm']
  have hreported := hworld.report hL (hL.suspended hstack cb.epoch)
  refine resume hreported ?_
  rw [hreported.connectionOf_eq]
  exact hstart _ cb

/-- Both loops suspend alike and give the same body to the same context. -/
theorem suspendOn (context : Context S.Executor) (b : Body S) :
    L.States (.suspendOn P w run context b rest) (.suspendOn P' w' run' context b rest') := by
  obtain ⟨w₁, w₁', cb, harm, harm', hworld⟩ := hw.armed hconnection houtlet hstack
  unfold State.suspendOn
  rw [harm, harm']
  exact hL.submit (hworld.report hL (hL.deferred hstack _ _)) hrest context (.body cb b)

end

end Kept

end Likeness

end Trampoline
