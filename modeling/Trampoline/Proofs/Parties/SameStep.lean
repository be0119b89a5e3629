import Trampoline.Proofs.Parties.Worlds
import Trampoline.Proofs.Threads.Places

/-!
# Steps of a party in two worlds

A step that is taken for a party that keeps to itself does the same in the world of all parties and
in a world of its own, on the same thread and with the same numbers handed out.  There is one
difference: where the party completes a callback of another party, a run of that party may be taken
up, which is not there in the world of its own.

Main definitions and results:

- Definition `Holdings.AfterSameStep`: the states after a step in both worlds.
- Theorem `Holdings.sameStep_work`: a step of a party in both worlds.
-/

namespace Trampoline

variable {S : Closures} {σ ι : Type}

/-- A run loop belongs to a party, if it has a bridge. -/
def Holdings.Has (H : Holdings ι σ) (k : ι) (run : Loop S) : Prop :=
  ∀ i, run.outlet = .bridge i → H.bridge i = k

/-- A driver is no loop of others. -/
def Driver.Has (H : Holdings ι σ) (k : ι) : Driver S σ → Prop
  | .loop run => H.Has k run
  | .partially _ _ => True

/-- A loop that works for no bridge of others belongs to a party. -/
theorem Activation.has_of_idle {H : Holdings ι σ} {k : ι} {a : Activation S σ} {run : Loop S}
    (h : ∀ i, H.bridge i ≠ k → a.Idle i) (hrun : a.loop? = some run) : H.Has k run := by
  intro i hi
  apply Classical.byContradiction
  intro hne
  exact (Activation.idle_iff_of_loop? hrun).mp (h i hne) hi

/-- A loop that suspends makes no bridge but the one in which it parks. -/
theorem State.reduce_bridges_of_suspends (P : Program S σ) (w : World S σ) (run : Loop S)
    {node : Effect S} (h : node.Suspends) (rest : List (Activation S σ)) :
    (reduce P w (.loop run) node rest).world.bridges = (w.arm run).1.bridges := by
  cases node with
  | async name => simp [reduce, suspend]
  | parked inner stack => simp [reduce, suspend]
  | deferred context b => simp [reduce, suspendOn, submit_bridges]
  | _ => exact h.elim

namespace Holdings

variable {H : Holdings ι σ} {k : ι}

/-- The states of the world of all parties and of that of a party after a step of it in both. -/
inductive AfterSameStep (H : Holdings ι σ) (k : ι) : State S σ → State S σ → Prop
  | running {w w' : World S σ} (h : H.Like k w w') (top : Activation S σ)
      (rest : List (Activation S σ)) :
      AfterSameStep H k (.running w top rest) (.running w' top rest)
  | returned {w w' : World S σ} (h : H.Like k w w') : AfterSameStep H k (.returned w) (.returned w')
  | unwound {w w' : World S σ} (h : H.Like k w w') (payload : Payload) :
      AfterSameStep H k (.unwound w payload) (.unwound w' payload)
  /-- A run of another party has been taken up in the world of all. -/
  | elsewhere {w w' : World S σ} (h : H.Like k w w') {run : Loop S} {i : Nat}
      (outlet : run.outlet = .bridge i) (other : H.bridge i ≠ k) (node : Effect S)
      (rest : List (Activation S σ)) :
      AfterSameStep H k (.running w (.eval (.loop run) node) rest) (.resume w' rest)

variable {P : Program S σ} {w w' : World S σ} {rest : List (Activation S σ)}

/-- After the step, what belongs to the party is the same in both worlds. -/
theorem AfterSameStep.world {s s' : State S σ} (h : H.AfterSameStep k s s') :
    H.Like k s.world s'.world := by
  cases h with
  | running h top rest => exact h
  | returned h => exact h
  | unwound h payload => exact h
  | elsewhere h outlet other node rest => rwa [State.world_resume]

/-- Both machines return to what waits. -/
theorem sameStep_resume (h : H.Like k w w') (rest : List (Activation S σ)) :
    H.AfterSameStep k (.resume w rest) (.resume w' rest) := by
  cases rest with
  | nil => exact .returned h
  | cons a rest => exact .running h a rest

/-- Both machines panic into what waits. -/
theorem sameStep_unwind (h : H.Like k w w') (payload : Payload) (rest : List (Activation S σ)) :
    H.AfterSameStep k (.unwind w payload rest) (.unwind w' payload rest) := by
  cases rest with
  | nil => exact .unwound h payload
  | cons a rest => exact .running h _ rest

/-! ## Ends and completions -/

section

variable (h : H.Like k w w') (silent : H.Silent P)

include h silent

/-- A callback of the party is completed in both worlds, one of others is stale in its own. -/
theorem sameStep_complete (cb : Callback) (o : Outcome) :
    H.AfterSameStep k (.complete P w cb o rest) (.complete P w' cb o rest) := by
  by_cases hcb : H.bridge cb.bridge = k
  · unfold State.complete
    rw [h.bridges _ hcb]
    split
    · split
      · exact .running ((h.setBridge hcb _).report silent _ _) _ rest
      · exact sameStep_resume (h.report silent _ _) rest
    · exact sameStep_resume (h.report silent _ _) rest
  · rw [State.complete_of_not_armed P o (h.not_armed hcb)]
    cases ha : w.isArmed cb with
    | false =>
        rw [State.complete_of_not_armed P o ha]
        exact sameStep_resume (h.report silent _ _) rest
    | true =>
        obtain ⟨b, hb, hba⟩ := World.isArmed_eq_true_iff.mp ha
        rw [State.complete_of_armed P o hb hba]
        exact .elsewhere ((h.setBridge_of_ne hcb _).report silent _ _) rfl hcb _ rest

/-- A loop of the party ends with the same outcome in both worlds. -/
theorem sameStep_finish {run : Loop S} (hrun : H.Has k run) (o : Outcome) :
    H.AfterSameStep k (.finish P w run o rest) (.finish P w' run o rest) := by
  rw [State.finish_eq, State.finish_eq, h.terminal?_eq hrun]
  split
  · next t ht =>
      cases t with
      | user name => exact .running (h.release hrun) _ rest
      | complete cb => exact sameStep_complete (h.release hrun) silent cb o
  · exact sameStep_resume h rest

/-! ## Tasks -/

omit silent in
/-- A task is started in both worlds. -/
theorem sameStep_runTask (task : Task S) :
    H.AfterSameStep k (.runTask P w task rest) (.runTask P w' task rest) := by
  cases task <;> exact .running h _ rest

/-- A task that the party submits goes to the same thread in both worlds. -/
theorem sameStep_submit (hthread : w'.thread = w.thread) (context : Context S.Executor)
    (task : Task S) :
    H.AfterSameStep k (.submit P w context task rest) (.submit P w' context task rest) := by
  have hon : ∀ thread, H.AfterSameStep k (.runTaskOn P w thread task rest)
      (.runTaskOn P w' thread task rest) := by
    intro thread
    unfold State.runTaskOn
    rw [hthread]
    exact sameStep_runTask (h.threads thread thread) task
  cases context with
  | immediate => exact sameStep_runTask h task
  | newThread name spawns =>
      simp only [State.submit]
      split
      · exact sameStep_unwind h _ rest
      · split
        · exact hon name
        · exact sameStep_runTask (h.report silent _ _) task
  | pool name worker => exact hon worker
  | hosted name executor => exact .running h _ rest

/-! ## Code -/

/-- A command of a party that keeps to itself starts the same in both worlds. -/
theorem sameStep_begin (hthread : w'.thread = w.thread) {α : Type} {c : Command S}
    {next : Unit → Code S σ α} (hc : (Code.command c next : Code S σ α).Within H k w.host) :
    H.AfterSameStep k (.begin P w c rest) (.begin P w' c rest) := by
  cases c with
  | cancel c =>
      obtain ⟨hagree, htokens⟩ := h.connections.cancel hc
      simp only [State.begin, htokens]
      exact .running (h.withConnections hagree (by simpa using h.created)) _ rest
  | push c token =>
      simp only [State.begin]
      rcases h.connections.push hc token with
        ⟨hdue, hdue'⟩ | ⟨u, u', hkept, hkept', hagree, hu, hu'⟩
      · rw [hdue, hdue']
        exact .running h _ rest
      · rw [hkept, hkept']
        exact sameStep_resume (h.withConnections hagree (by rw [hu, hu']; exact h.created)) rest
  | complete cb o => exact sameStep_complete h silent cb o
  | run e c terminal => exact .running h _ rest
  | submit context task => exact sameStep_submit h silent hthread context task
  | runToken token => exact .running h _ rest
  | runTask task => exact sameStep_runTask h task

/-- A panic of the party goes on in the same way in both worlds. -/
theorem sameStep_panicIn (d : Driver S σ) (payload : Payload) :
    H.AfterSameStep k (.panicIn P w d payload rest) (.panicIn P w' d payload rest) := by
  cases d with
  | loop run =>
      simp only [State.panicIn, State.contain, h.classifier]
      split
      · exact .running (h.report silent _ _) _ rest
      · exact sameStep_unwind h payload rest
  | partially stack resume =>
      simp only [State.panicIn, h.classifier]
      split
      · exact .running (h.report silent _ _) _ rest
      · exact .running h _ rest

omit silent in
/-- A region of the party begins on the same connection in both worlds. -/
theorem sameStep_switched {run : Loop S} (hrun : H.Has k run) (source : Effect S)
    (restore : Option (Restorer S)) (new : Connection) :
    H.AfterSameStep k (.switched w run source restore new rest)
      (.switched w' run source restore new rest) := by
  cases restore <;> exact .running (h.followSwitch hrun new) _ rest

/-- A step of code is the same in both worlds if what follows its end is. -/
theorem sameStep_wrap (hthread : w'.thread = w.thread) {α : Type} (holder : Holder S σ α)
    {code : Code S σ α} (within : code.Within H k w.host)
    (hnew : w.connections.states.size <
        (State.work P w rest (holder.wrap code)).world.connections.states.size →
      w'.connections.states.size = w.connections.states.size)
    (hfinish : ∀ a, H.AfterSameStep k (holder.finish w rest a) (holder.finish w' rest a))
    (hescape : ∀ payload, H.AfterSameStep k (holder.escape P w rest payload)
      (holder.escape P w' rest payload)) :
    H.AfterSameStep k (.work P w rest (holder.wrap code)) (.work P w' rest (holder.wrap code)) := by
  rw [State.work_wrap, State.work_wrap]
  rw [State.work_wrap] at hnew
  cases code with
  | done a => exact hfinish a
  | panic payload => exact hescape payload
  | query q next =>
      obtain ⟨hlike, hanswer⟩ := h.answer hthread within hnew
      simp only [State.advance]
      rw [hanswer]
      exact .running hlike _ rest
  | command c next => exact sameStep_begin h silent hthread within
  | step e next => exact .running h _ rest

/-! ## Loops -/

/-- A node is taken apart in both worlds.  The number of a new bridge is that of both. -/
theorem sameStep_reduce (hthread : w'.thread = w.thread) {d : Driver S σ} (hd : d.Has H k)
    (node : Effect S)
    (hnew : w.bridges.size < (State.reduce P w d node rest).world.bridges.size →
      H.bridge w.bridges.size = k ∧ w'.bridges.size = w.bridges.size) :
    H.AfterSameStep k (.reduce P w d node rest) (.reduce P w' d node rest) := by
  -- A loop that suspends parks in the same bridge.
  have harm : ∀ {run : Loop S}, d = .loop run → node.Suspends →
      H.Like k (w.arm run).1 (w'.arm run).1 ∧ (w'.arm run).2 = (w.arm run).2 ∧
        H.bridge (w.arm run).2.bridge = k := by
    rintro run rfl hsuspends
    refine h.arm hd fun t ht => hnew ?_
    rw [State.reduce_bridges_of_suspends P w run hsuspends]
    simp [World.arm, ht]
  have hsuspend : ∀ {run : Loop S} (start : Connection → Callback → List (Activation S σ)),
      d = .loop run → node.Suspends →
      H.AfterSameStep k (.suspend P w run start rest) (.suspend P w' run start rest) := by
    intro run start hrun hsuspends
    obtain ⟨hlike, hcb, hk⟩ := harm hrun hsuspends
    have hreport := hlike.report silent
      (.suspendedAsync (w.arm run).2.epoch run.stack.length)
      (.suspendedAsync (w.arm run).2.epoch run.stack.length)
    simp only [State.suspend, hcb, hreport.connectionOf_eq hk]
    exact sameStep_resume hreport _
  cases node with
  | fail e =>
      simp only [State.reduce]
      split
      · exact .running h _ rest
      · next stack _ =>
          cases d with
          | loop run =>
              have hrun : H.Has k { run with stack := stack } := hd
              exact sameStep_finish h silent hrun _
          | partially stack' resume => exact .running h _ rest
  | async name =>
      cases d with
      | loop run => exact hsuspend (fun c cb => [.owing cb (P.registration name c cb)]) rfl trivial
      | partially stack resume => exact .running h _ rest
  | parked inner stack =>
      cases d with
      | loop run =>
          exact hsuspend (fun c cb =>
            [.eval (.loop ⟨c, stack, .terminal (.complete cb)⟩) inner, .owing cb (.done ())])
            rfl trivial
      | partially stack' resume => exact .running h _ rest
  | deferred context b =>
      cases d with
      | loop run =>
          obtain ⟨hlike, hcb, -⟩ := harm rfl trivial
          simp only [State.reduce, State.suspendOn, hcb]
          refine sameStep_submit (hlike.report silent _ _) silent ?_ context _
          exact (State.thread_arm w' run).trans (hthread.trans (State.thread_arm w run).symm)
      | partially stack resume => exact .running h _ rest
  | switchConnection source modify restore => cases d <;> exact .running h _ rest
  | _ => exact .running h _ rest

/-- A driver of the party goes on with a value in the same way in both worlds. -/
theorem sameStep_value {d : Driver S σ} (hd : d.Has H k) (v : Value) :
    H.AfterSameStep k (.value P w d v rest) (.value P w' d v rest) := by
  simp only [State.value]
  split
  · exact .running h _ rest
  · next stack _ =>
      cases d with
      | loop run =>
          have hrun : H.Has k { run with stack := stack } := hd
          exact sameStep_finish h silent hrun _
      | partially stack' resume => exact .running h _ rest

/-- A step of a party does the same in both worlds, on the same thread and with the same numbers. -/
theorem sameStep_work (hthread : w'.thread = w.thread) {top : Activation S σ}
    (idle : ∀ i, H.bridge i ≠ k → top.Idle i) (within : top.Within H k w.host)
    (hbridges : w.bridges.size < (State.work P w rest top).world.bridges.size →
      H.bridge w.bridges.size = k ∧ w'.bridges.size = w.bridges.size)
    (hconnections : w.connections.states.size <
        (State.work P w rest top).world.connections.states.size →
      w'.connections.states.size = w.connections.states.size) :
    H.AfterSameStep k (.work P w rest top) (.work P w' rest top) := by
  cases top with
  | eval d node =>
      cases d with
      | partially stack resume =>
          have hd : (Driver.partially stack resume).Has H k := trivial
          exact sameStep_reduce h silent hthread hd node hbridges
      | loop run =>
          have hrun : H.Has k run := Activation.has_of_idle idle rfl
          have hd : (Driver.loop run : Driver S σ).Has H k := hrun
          have hlook := h.isCanceled_eq within
          cases hc : w.connections.isCanceled run.connection with
          | true =>
              rw [hc] at hlook
              simp only [State.work, State.eval, hc, hlook, if_true]
              exact sameStep_finish (h.report silent _ _) silent hrun _
          | false =>
              rw [hc] at hlook
              simp only [State.work, State.eval, hc, hlook, Bool.false_eq_true, if_false]
                at hbridges ⊢
              exact sameStep_reduce h silent hthread hd node hbridges
  | value d v =>
      refine sameStep_value h silent ?_ v
      cases d with
      | loop run => exact Activation.has_of_idle idle rfl
      | partially stack resume => trivial
  | node d code =>
      exact sameStep_wrap h silent hthread (.node d) within hconnections
        (fun e => .running h _ rest) (sameStep_panicIn h silent d)
  | outcome d code =>
      refine sameStep_wrap h silent hthread (.outcome d) within hconnections (fun o => ?_)
        (sameStep_panicIn h silent d)
      cases o <;> exact .running h _ rest
  | switch run source restore code =>
      exact sameStep_wrap h silent hthread (.switch run source restore) within hconnections
        (sameStep_switched h (Activation.has_of_idle idle rfl) source restore)
        (sameStep_panicIn h silent (.loop run))
  | owing cb code =>
      refine sameStep_wrap h silent hthread (.owing cb) within hconnections
        (fun _ => sameStep_resume h rest) fun payload => ?_
      simp only [Holder.escape, State.contain, h.classifier]
      split
      · exact sameStep_complete (h.report silent _ _) silent cb _
      · exact sameStep_unwind h payload rest
  | code code =>
      exact sameStep_wrap h silent hthread .code within hconnections
        (fun _ => sameStep_resume h rest) fun payload => sameStep_unwind h payload rest
  | tokens pending =>
      cases pending with
      | nil => exact sameStep_resume h rest
      | cons token pending => exact .running h _ _
  | thread outer => exact sameStep_resume (h.threads outer outer) rest

end

end Holdings

end Trampoline
