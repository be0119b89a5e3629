import Trampoline.Proofs.Machine.Bridges

/-!
# Quiet steps

The control stack holds loops of many runs at once, and a step may push, pop, unwind or
resume.  This file says once what a step can do to a run other than the one that works:
its bridge keeps its fields, its loop keeps its place, and what comes above is not its
own.  The only exception is a completion of its armed epoch.

Main definitions and results:

- Definition `Quiet`: the shape of a step that leaves the run of a bridge alone.
- Theorem `State.quiet_work`: a step of another activation is quiet, unless it completes
  the armed epoch of the bridge.
-/

namespace Trampoline

variable {S : Closures} {σ : Type}

/-! ## Quiet steps -/

/-- What the run of bridge `i` sees of a step that leaves it alone: what was on top is
replaced by activations that are none of its work, or a panic goes on below, and its
bridge, if there is one already, stays as it was. -/
inductive Quiet (i : Nat) (w : World S σ) (rest : List (Activation S σ)) : State S σ → Prop
  | goes (w' : World S σ) (new : List (Activation S σ))
      (size : w.bridges.size ≤ w'.bridges.size)
      (bridge : i < w.bridges.size → w'.bridges[i]? = w.bridges[i]?)
      (idle : ∀ a ∈ new, a.Idle i) : Quiet i w rest (.resume w' (new ++ rest))
  | panics (w' : World S σ) (payload : Payload)
      (size : w.bridges.size ≤ w'.bridges.size)
      (bridge : i < w.bridges.size → w'.bridges[i]? = w.bridges[i]?) :
      Quiet i w rest (.unwind w' payload rest)

namespace Quiet

variable {i : Nat} {w w₁ : World S σ} {rest : List (Activation S σ)} {s : State S σ}

/-- Return to what was waiting. -/
theorem returns {w' : World S σ} (hb : w'.bridges = w.bridges) :
    Quiet i w rest (.resume w' rest) :=
  .goes w' [] (by simp [hb]) (fun _ => by rw [hb]) (by simp)

/-- Go on with one activation. -/
theorem runs {w' : World S σ} {a : Activation S σ} (hb : w'.bridges = w.bridges)
    (ha : a.Idle i) : Quiet i w rest (.running w' a rest) :=
  .goes w' [a] (by simp [hb]) (fun _ => by rw [hb]) (by simpa using ha)

/-- Panic into what was waiting. -/
theorem unwinds {w' : World S σ} {payload : Payload} (hb : w'.bridges = w.bridges) :
    Quiet i w rest (.unwind w' payload rest) :=
  .panics w' payload (by simp [hb]) (fun _ => by rw [hb])

/-- A change of the world that spares the bridge may come before a quiet step. -/
theorem after (h : Quiet i w₁ rest s) (hsize : w.bridges.size ≤ w₁.bridges.size)
    (hb : i < w.bridges.size → w₁.bridges[i]? = w.bridges[i]?) : Quiet i w rest s := by
  cases h with
  | goes w' new size bridge idle =>
      exact .goes w' new (Nat.le_trans hsize size)
        (fun hi => (bridge (Nat.lt_of_lt_of_le hi hsize)).trans (hb hi)) idle
  | panics w' payload size bridge =>
      exact .panics w' payload (Nat.le_trans hsize size)
        fun hi => (bridge (Nat.lt_of_lt_of_le hi hsize)).trans (hb hi)

/-- What a step leaves of an activation on top may count as new. -/
theorem below {a : Activation S σ} (ha : a.Idle i) (h : Quiet i w (a :: rest) s) :
    Quiet i w rest s := by
  cases h with
  | goes w' new size bridge idle =>
      have hnew : ∀ x ∈ new ++ [a], x.Idle i := by
        intro x hx
        rcases List.mem_append.mp hx with hx | hx
        · exact idle x hx
        · rw [List.mem_singleton.mp hx]
          exact ha
      have h' : Quiet i w rest (.resume w' ((new ++ [a]) ++ rest)) := .goes w' _ size bridge hnew
      rwa [List.append_assoc, List.singleton_append] at h'
  | panics w' payload size bridge =>
      exact .goes w' [a.panicking payload] size bridge (by simpa using ha.panicking payload)

end Quiet

namespace State

variable {i : Nat} {w : World S σ} {rest : List (Activation S σ)}

/-- A completion of any epoch but the armed one changes nothing. -/
theorem complete_of_not_armed (P : Program S σ) {cb : Callback} (o : Outcome)
    (h : w.isArmed cb = false) :
    complete P w cb o rest = resume (w.report P (.staleCompletion cb.epoch)) rest := by
  unfold complete
  unfold World.isArmed at h
  cases hb : w.bridges[cb.bridge]? with
  | none => rfl
  | some b =>
      have ha : b.armed ≠ some cb.epoch := by simpa [hb] using h
      simp only [ha, if_false]

/-- A completion of the armed epoch takes the parked run up. -/
theorem complete_of_armed (P : Program S σ) {cb : Callback} {b : Bridge S} (o : Outcome)
    (hb : w.bridges[cb.bridge]? = some b) (ha : b.armed = some cb.epoch) :
    complete P w cb o rest =
      running ((w.setBridge cb.bridge { b with armed := none, stack := .empty }).report P
          (.resumed cb.epoch b.stack.length))
        (.eval (.loop ⟨b.connection, b.stack, .bridge cb.bridge⟩) (.ofOutcome o)) rest := by
  unfold complete
  rw [hb]
  simp only [ha, if_true]

/-- A completion that does not win the callback of a run leaves the run alone. -/
theorem quiet_complete (P : Program S σ) {cb : Callback} (o : Outcome) (h : ¬w.Wins i cb) :
    Quiet i w rest (complete P w cb o rest) := by
  cases ha : w.isArmed cb with
  | false =>
      rw [complete_of_not_armed P o ha]
      exact .returns rfl
  | true =>
      obtain ⟨b, hb, hba⟩ := World.isArmed_eq_true_iff.mp ha
      have hne : cb.bridge ≠ i := fun hcb => h ⟨hcb, ha⟩
      rw [complete_of_armed P o hb hba]
      refine .goes _ [_] (by simp) (fun _ => ?_) ?_
      · exact World.setBridge_bridges_of_ne hne
      · simpa using hne

/-- A delivery that completes no callback of a run leaves the run alone. -/
theorem quiet_deliver (P : Program S σ) {t : Terminal S} (o : Outcome)
    (h : ∀ cb, t = .complete cb → ¬w.Wins i cb) : Quiet i w rest (deliver P w t o rest) := by
  cases t with
  | user k => exact .runs rfl (by simp)
  | complete cb => exact quiet_complete P o (h cb rfl)

/-- A loop that ends takes its terminal, and hands the outcome to it. -/
theorem finish_eq (P : Program S σ) (w : World S σ) (run : Loop S) (o : Outcome)
    (rest : List (Activation S σ)) :
    finish P w run o rest =
      match w.terminal? run.outlet with
      | some t => deliver P (w.release run.outlet) t o rest
      | none => resume w rest := by
  unfold finish
  cases hout : run.outlet with
  | terminal t => rfl
  | bridge j =>
      cases hb : w.bridges[j]? with
      | none => simp [World.terminal?, hb]
      | some b => cases ht : b.terminal <;> simp [World.terminal?, World.release, hb, ht]

/-- A loop that ends leaves the runs of others alone, unless it hands its outcome over to them. -/
theorem quiet_finish (P : Program S σ) {run : Loop S} (o : Outcome)
    (hi : run.outlet ≠ .bridge i)
    (h : ∀ cb, w.terminal? run.outlet = some (.complete cb) → ¬w.Wins i cb) :
    Quiet i w rest (finish P w run o rest) := by
  rw [finish_eq]
  cases ht : w.terminal? run.outlet with
  | none => exact .returns rfl
  | some t =>
      have hsame := World.release_bridges_of_ne (w := w) hi
      have hq : Quiet i (w.release run.outlet) rest
          (deliver P (w.release run.outlet) t o rest) := by
        refine quiet_deliver P o fun cb hcb => ?_
        rw [World.wins_congr hsame]
        exact h cb (by rw [ht, hcb])
      exact hq.after (by simp) fun _ => hsame

/-- A task leaves the runs of others alone. -/
theorem quiet_runTask (P : Program S σ) (task : Task S) :
    Quiet i w rest (runTask P w task rest) := by
  cases task <;> exact .runs rfl (by simp)

/-- A task on its own thread leaves the runs of others alone. -/
theorem quiet_runTaskOn (P : Program S σ) (thread : String) (task : Task S) :
    Quiet i w rest (runTaskOn P w thread task rest) := by
  have hq : Quiet i { w with thread := thread } (.thread w.thread :: rest)
      (runTaskOn P w thread task rest) := quiet_runTask P task
  exact (hq.below (Activation.idle_thread _ _)).after (Nat.le_refl _) fun _ => rfl

/-- A submission leaves the runs of others alone. -/
theorem quiet_submit (P : Program S σ) (context : Context S.Executor) (task : Task S) :
    Quiet i w rest (submit P w context task rest) := by
  cases context with
  | immediate => exact quiet_runTask P task
  | newThread name spawns =>
      simp only [submit]
      cases Context.threadNameFault? name with
      | some message => exact .unwinds rfl
      | none =>
          cases spawns
          · have hq : Quiet i (w.report P (.spawnRefused name)) rest
                (runTask P (w.report P (.spawnRefused name)) task rest) := quiet_runTask P task
            exact hq.after (Nat.le_refl _) fun _ => rfl
          · exact quiet_runTaskOn P name task
  | pool name worker => exact quiet_runTaskOn P worker task
  | hosted name executor => exact .runs rfl (by simp)

/-- A command leaves the run of a bridge alone, unless it completes its armed epoch. -/
theorem quiet_begin (P : Program S σ) (c : Command S)
    (h : ∀ cb o, c = .complete cb o → ¬w.Wins i cb) : Quiet i w rest (begin P w c rest) := by
  cases c with
  | cancel c => exact .runs rfl (by simp)
  | push c token =>
      simp only [begin]
      cases w.connections.push c token with
      | kept table => exact .returns rfl
      | due => exact .runs rfl (by simp)
  | complete cb o => exact quiet_complete P o (h cb o rfl)
  | run e c terminal => exact .runs rfl (by simp)
  | submit context task => exact quiet_submit P context task
  | runToken token => exact .runs rfl (by simp)
  | runTask task => exact quiet_runTask P task

/-- What starts after a suspension leaves the bridge alone that the run has parked in. -/
theorem quiet_suspend_arm (P : Program S σ) {run : Loop S}
    {start : Connection → Callback → List (Activation S σ)}
    (hstart : ∀ c cb, ∀ a ∈ start c cb, a.Idle i) :
    Quiet i (w.arm run).1 rest (suspend P w run start rest) :=
  .goes _ _ (Nat.le_refl _) (fun _ => rfl) (hstart _ _)

/-- A suspension leaves the runs of others alone. -/
theorem quiet_suspend (P : Program S σ) {run : Loop S}
    {start : Connection → Callback → List (Activation S σ)} (hi : run.outlet ≠ .bridge i)
    (hstart : ∀ c cb, ∀ a ∈ start c cb, a.Idle i) :
    Quiet i w rest (suspend P w run start rest) :=
  (quiet_suspend_arm P hstart).after (World.size_le_arm w run) (World.arm_bridges_of_ne hi)

/-- What starts after a suspension on a context leaves the bridge alone that the run has
parked in. -/
theorem quiet_suspendOn_arm (P : Program S σ) {run : Loop S} (context : Context S.Executor)
    (b : Body S) : Quiet i (w.arm run).1 rest (suspendOn P w run context b rest) := by
  have hq : Quiet i ((w.arm run).1.report P
      (.suspendedDeferred context.name (w.arm run).2.epoch run.stack.length)) rest
      (suspendOn P w run context b rest) := quiet_submit P context (.body (w.arm run).2 b)
  exact hq.after (Nat.le_refl _) fun _ => rfl

/-- A suspension into a context leaves the runs of others alone. -/
theorem quiet_suspendOn (P : Program S σ) {run : Loop S} (context : Context S.Executor)
    (b : Body S) (hi : run.outlet ≠ .bridge i) :
    Quiet i w rest (suspendOn P w run context b rest) :=
  (quiet_suspendOn_arm P context b).after (World.size_le_arm w run) (World.arm_bridges_of_ne hi)

end State

/-! ## Completions -/

/-- The completion that a piece of code gives next. -/
def Code.completion? {α : Type} : Code S σ α → Option (Callback × Outcome)
  | .command (.complete cb o) _ => some (cb, o)
  | _ => none

/-- The completion by which a loop with this outlet hands its outcome over. -/
def World.handOver? (w : World S σ) (outlet : Outlet S) (o : Outcome) :
    Option (Callback × Outcome) :=
  match w.terminal? outlet with
  | some (.complete cb) => some (cb, o)
  | _ => none

namespace Activation

/-- The outcome with which a loop ends in the next step. -/
def exit? (w : World S σ) : Activation S σ → Option Outcome
  | .eval (.loop run) e =>
    if w.connections.isCanceled run.connection then some (.error .cancelled)
    else
      match e with
      | .fail e => if run.stack.findErrorHandler.1.isNone then some (.error e) else none
      | _ => none
  | .value (.loop run) v => if run.stack.popNext.1.isNone then some (.ok v) else none
  | _ => none

/-- The completion of a callback that the next step makes: by a command of the code, by
the panic of code that owes it, or by the end of a loop whose outcome goes to a callback. -/
def completion? (w : World S σ) (a : Activation S σ) : Option (Callback × Outcome) :=
  match a with
  | .node _ c => c.completion?
  | .outcome _ c => c.completion?
  | .switch _ _ _ c => c.completion?
  | .code c => c.completion?
  | .owing cb (.panic payload) =>
    if w.classifier payload then some (cb, .error (.panicked payload.describe)) else none
  | .owing _ c => c.completion?
  | a =>
    match a.loop?, a.exit? w with
    | some run, some o => w.handOver? run.outlet o
    | _, _ => none

/-- Code that has not panicked completes what its next command completes. -/
theorem completion?_wrap (w : World S σ) {α : Type} (h : Holder S σ α) {code : Code S σ α}
    (hpanic : ∀ payload, code ≠ .panic payload) :
    (h.wrap code).completion? w = code.completion? := by
  cases h with
  | owing cb =>
      cases code with
      | panic payload => exact absurd rfl (hpanic payload)
      | _ => rfl
  | _ => rfl

end Activation

/-! ## Every step -/

namespace State

variable {i : Nat} {w : World S σ} {rest : List (Activation S σ)}

/-- A failure leaves the runs of others alone, unless its loop hands it over to them. -/
theorem quiet_fail (P : Program S σ) {d : Driver S σ} (e : Failure) (hd : d.Idle i)
    (h : ∀ run, d = .loop run → ∀ cb, w.terminal? run.outlet = some (.complete cb) →
      ¬w.Wins i cb) : Quiet i w rest (fail P w d e rest) := by
  cases d with
  | loop run => exact quiet_finish P _ hd (h run rfl)
  | partially stack resume => exact .runs rfl (hd _)

/-- A value leaves the runs of others alone, unless its loop hands it over to them. -/
theorem quiet_yield (P : Program S σ) {d : Driver S σ} (v : Value) (hd : d.Idle i)
    (h : ∀ run, d = .loop run → ∀ cb, w.terminal? run.outlet = some (.complete cb) →
      ¬w.Wins i cb) : Quiet i w rest (yield P w d v rest) := by
  cases d with
  | loop run => exact quiet_finish P _ hd (h run rfl)
  | partially stack resume => exact .runs rfl (hd _)

/-- A driver that takes a node apart leaves the runs of others alone. -/
theorem quiet_reduce (P : Program S σ) {d : Driver S σ} {node : Effect S} (hd : d.Idle i)
    (h : ∀ e run stack, node = .fail e → d = .loop run →
      run.stack.findErrorHandler = (none, stack) →
      ∀ cb, w.terminal? run.outlet = some (.complete cb) → ¬w.Wins i cb) :
    Quiet i w rest (reduce P w d node rest) := by
  cases node with
  | pure v => exact .runs rfl (by simpa using hd)
  | fail e =>
      simp only [reduce]
      cases hf : d.stack.findErrorHandler with
      | mk frame stack =>
          cases frame with
          | some frame => exact .runs rfl (by simpa using hd)
          | none =>
              refine quiet_fail P e (by simpa using hd) fun run hrun => ?_
              cases d with
              | loop run' =>
                  cases hrun
                  exact h e run' stack rfl rfl hf
              | partially stack' resume => cases hrun
  | suspend k => exact .runs rfl (by simpa using hd)
  | delay k => exact .runs rfl (by simpa using hd)
  | bind source frame => exact .runs rfl (Activation.idle_eval.mpr (Driver.idle_push.mpr hd))
  | map source f => exact .runs rfl (Activation.idle_eval.mpr (Driver.idle_push.mpr hd))
  | continueOn context source => exact .runs rfl (by simpa using hd)
  | async k =>
      cases d with
      | loop run =>
          simp only [reduce]
          exact quiet_suspend P hd (by simp)
      | partially stack resume => exact .runs rfl (hd _)
  | parked inner stack =>
      cases d with
      | loop run =>
          simp only [reduce]
          exact quiet_suspend P hd (by simp)
      | partially stack' resume => exact .runs rfl (hd _)
  | deferred context b =>
      cases d with
      | loop run => exact quiet_suspendOn P context b hd
      | partially stack resume => exact .runs rfl (hd _)
  | switchConnection source modify restore =>
      cases d with
      | loop run => exact .runs rfl (by simpa using hd)
      | partially stack resume => exact .runs rfl (hd _)

/-- The start of a region leaves the runs of others alone. -/
theorem quiet_switched {run : Loop S} (source : Effect S) (restore : Option (Restorer S))
    (new : Connection) (hi : run.outlet ≠ .bridge i) :
    Quiet i w rest (switched w run source restore new rest) := by
  have hnext : ∀ node : Effect S, Quiet i (w.followSwitch run new) rest
      (.running (w.followSwitch run new) (.eval (.loop { run with connection := new }) node)
        rest) := fun node => .runs rfl (by simpa using hi)
  have hquiet : ∀ s, Quiet i (w.followSwitch run new) rest s → Quiet i w rest s := fun s hs =>
    hs.after (Nat.le_of_eq (World.followSwitch_size w run new).symm)
      fun _ => World.followSwitch_bridges_of_ne hi new
  cases restore with
  | some r => exact hquiet _ (hnext _)
  | none => exact hquiet _ (hnext _)

/-- A panic within a loop leaves the runs of others alone. -/
theorem quiet_panicIn (P : Program S σ) {d : Driver S σ} (payload : Payload) (hd : d.Idle i) :
    Quiet i w rest (panicIn P w d payload rest) := by
  cases d with
  | loop run =>
      simp only [panicIn, contain]
      split
      · exact .runs rfl (by simpa using hd)
      · exact .unwinds rfl
  | partially stack resume =>
      simp only [panicIn]
      split
      · exact .runs rfl (by simpa using hd)
      · exact .runs rfl (hd _)

/-- Work on a piece of code is quiet if what follows its end is. -/
theorem quiet_advance (P : Program S σ) {α : Type} {h : Holder S σ α} {code : Code S σ α}
    {finish : α → State S σ} {escape : Payload → State S σ} (hidle : ∀ code, (h.wrap code).Idle i)
    (hfinish : ∀ a, code = .done a → Quiet i w rest (finish a))
    (hescape : ∀ payload, code = .panic payload → Quiet i w rest (escape payload))
    (hwins : ∀ cb o, code.completion? = some (cb, o) → ¬w.Wins i cb) :
    Quiet i w rest (advance P w rest h.wrap finish escape code) := by
  cases code with
  | done a => exact hfinish a rfl
  | panic payload => exact hescape payload rfl
  | query q next => exact .runs (World.answer_bridges w q) (hidle _)
  | command c next =>
      refine (quiet_begin P c fun cb o hc => ?_).below (hidle _)
      exact hwins cb o (by rw [hc]; rfl)
  | step e next =>
      refine .runs rfl ?_
      rw [Activation.idle_eval]
      intro r
      cases r <;> exact hidle _

/-- The panic of code that owes a completion completes its callback, or goes on. -/
theorem quiet_escape_owing (P : Program S σ) {cb : Callback} (payload : Payload)
    (hwins : ∀ cb' o, (Activation.owing cb (.panic payload) : Activation S σ).completion? w =
      some (cb', o) → ¬w.Wins i cb') :
    Quiet i w rest ((Holder.owing cb).escape P w rest payload) := by
  simp only [Holder.escape, contain]
  split
  · next hp =>
      have hq : Quiet i (w.report P (.panicContained payload.describe)) rest
          (complete P (w.report P (.panicContained payload.describe)) cb
            (.error (.panicked payload.describe)) rest) :=
        quiet_complete P _ (hwins cb (.error (.panicked payload.describe))
          (by simp [Activation.completion?, hp]))
      exact hq.after (Nat.le_refl _) fun _ => rfl
  · exact .unwinds rfl

/-- A loop that meets its end hands its outcome over as `Activation.completion?` says. -/
theorem completion?_eval {run : Loop S} {n : Effect S} {o : Outcome} {cb : Callback}
    (he : (Activation.eval (.loop run) n : Activation S σ).exit? w = some o)
    (hcb : w.terminal? run.outlet = some (.complete cb)) :
    (Activation.eval (.loop run) n : Activation S σ).completion? w = some (cb, o) := by
  simp [Activation.completion?, Activation.loop?, he, World.handOver?, hcb]

/-- A loop that ends with a value hands it over as `Activation.completion?` says. -/
theorem completion?_value {run : Loop S} {v : Value} {o : Outcome} {cb : Callback}
    (he : (Activation.value (.loop run) v : Activation S σ).exit? w = some o)
    (hcb : w.terminal? run.outlet = some (.complete cb)) :
    (Activation.value (.loop run) v : Activation S σ).completion? w = some (cb, o) := by
  simp [Activation.completion?, Activation.loop?, he, World.handOver?, hcb]

/-- A loop in front of a node leaves the runs of others alone. -/
theorem quiet_eval (P : Program S σ) {run : Loop S} {n : Effect S}
    (hi : run.outlet ≠ .bridge i)
    (hwins : ∀ cb o, (Activation.eval (.loop run) n : Activation S σ).completion? w =
      some (cb, o) → ¬w.Wins i cb) : Quiet i w rest (eval P w (.loop run) n rest) := by
  simp only [eval]
  split
  · next hc =>
      have hq : Quiet i (w.report P (.runCancelled run.connection.id run.stack.length)) rest
          (finish P (w.report P (.runCancelled run.connection.id run.stack.length)) run
            (.error .cancelled) rest) :=
        quiet_finish P _ hi fun cb hcb =>
          hwins cb (.error .cancelled) (completion?_eval (by simp [Activation.exit?, hc]) hcb)
      exact hq.after (Nat.le_refl _) fun _ => rfl
  · next hc =>
      refine quiet_reduce P hi fun e run' stack hn hrun hf cb hcb => ?_
      cases hrun
      subst hn
      exact hwins cb (.error e) (completion?_eval (by simp [Activation.exit?, hc, hf]) hcb)

/-- A driver with a value leaves the runs of others alone. -/
theorem quiet_value (P : Program S σ) {d : Driver S σ} {v : Value} (hd : d.Idle i)
    (hwins : ∀ cb o, (Activation.value d v : Activation S σ).completion? w =
      some (cb, o) → ¬w.Wins i cb) : Quiet i w rest (value P w d v rest) := by
  simp only [value]
  cases hp : d.stack.popNext with
  | mk frame stack =>
      cases frame with
      | some frame => exact .runs rfl (by simpa using hd)
      | none =>
          refine quiet_yield P v (by simpa using hd) fun run hrun cb hcb => ?_
          cases d with
          | partially stack' resume => cases hrun
          | loop run' =>
              cases hrun
              have hpop : run'.stack.popNext = (none, stack) := hp
              exact hwins cb (.ok v) (completion?_value (by simp [Activation.exit?, hpop]) hcb)

/-- A step of an activation leaves the run of another bridge alone, unless it completes the
armed epoch of that bridge. -/
theorem quiet_work (P : Program S σ) {top : Activation S σ} (hidle : top.Idle i)
    (hwins : ∀ cb o, top.completion? w = some (cb, o) → ¬w.Wins i cb) :
    Quiet i w rest (work P w rest top) := by
  cases top with
  | eval d n =>
      rw [Activation.idle_eval] at hidle
      cases d with
      | loop run => exact quiet_eval P hidle hwins
      | partially stack resume =>
          exact quiet_reduce P hidle fun e run stack' _ hrun => nomatch hrun
  | value d v => exact quiet_value P (Activation.idle_value.mp hidle) hwins
  | node d code =>
      rw [Activation.idle_node] at hidle
      refine quiet_advance (h := .node d) P (fun _ => by simpa [Holder.wrap] using hidle)
        (fun e _ => ?_) (fun payload _ => quiet_panicIn P payload hidle) hwins
      exact .runs rfl (by simpa using hidle)
  | outcome d code =>
      rw [Activation.idle_outcome] at hidle
      refine quiet_advance (h := .outcome d) P (fun _ => by simpa [Holder.wrap] using hidle)
        (fun o _ => ?_) (fun payload _ => quiet_panicIn P payload hidle) hwins
      cases o <;> exact .runs rfl (by simpa using hidle)
  | switch run source restore code =>
      rw [Activation.idle_switch] at hidle
      exact quiet_advance (h := .switch run source restore) P
        (fun _ => Activation.idle_switch.mpr hidle)
        (fun new _ => quiet_switched source restore new hidle)
        (fun payload _ => quiet_panicIn P payload hidle) hwins
  | owing cb code =>
      refine quiet_advance (h := .owing cb) P (Activation.idle_owing i cb)
        (fun _ _ => .returns rfl) (fun payload hp => quiet_escape_owing P payload (hp ▸ hwins)) ?_
      intro cb' o hc
      refine hwins cb' o ?_
      cases code <;> simp_all [Activation.completion?, Code.completion?]
  | code code =>
      exact quiet_advance (h := .code) P (Activation.idle_code i) (fun _ _ => .returns rfl)
        (fun payload _ => .unwinds rfl) hwins
  | tokens pending =>
      cases pending with
      | nil => exact .returns rfl
      | cons token pending =>
          exact .goes w [.code (P.token token), .tokens pending] (Nat.le_refl _) (fun _ => rfl)
            (by simp)
  | thread outer => exact .returns rfl

end State

/-! ## What a quiet step leaves -/

namespace Quiet

variable {i : Nat} {w : World S σ} {rest : List (Activation S σ)} {s : State S σ}

/-- No bridge is ever taken away. -/
theorem size_le (h : Quiet i w rest s) : w.bridges.size ≤ s.world.bridges.size := by
  cases h with
  | goes w' new size bridge idle => simpa using size
  | panics w' payload size bridge => simpa using size

/-- The bridge that a quiet step spares is the same after it. -/
theorem bridge_eq (h : Quiet i w rest s) (hi : i < w.bridges.size) :
    s.world.bridges[i]? = w.bridges[i]? := by
  cases h with
  | goes w' new size bridge idle => simpa using bridge hi
  | panics w' payload size bridge => simpa using bridge hi

/-- A quiet step brings no work of the run onto the control stack. -/
theorem all_idle (h : Quiet i w rest s) (hrest : ∀ a ∈ rest, a.Idle i) :
    ∀ a ∈ s.activations, a.Idle i := by
  cases h with
  | goes w' new size bridge idle =>
      intro a ha
      rw [State.activations_resume, List.mem_append] at ha
      exact ha.elim (idle a) (hrest a)
  | panics w' payload size bridge =>
      cases rest with
      | nil => simp [State.unwind, State.activations]
      | cons top below =>
          intro a ha
          rw [State.activations_unwind_cons, List.mem_cons] at ha
          rcases ha with rfl | ha
          · exact (hrest top (by simp)).panicking payload
          · exact hrest a (by simp [ha])

end Quiet

end Trampoline
