import Trampoline.Proofs.Parties.Worlds

/-!
# Steps of others

What the engine changes by itself are bridges, the current thread and what it reports.  All else in
the world is changed by the code of the host, and by a party that keeps to itself only where it
belongs to this party.

Main definitions and results:

- Definition `World.EngineChange`: what the engine changes by itself.
- Theorem `State.engineChange_work`: a step that is not a request of code about the world changes no
  more.
- Definition `Holdings.LeavesAlone`, theorem `Holdings.leavesAlone_work`: a step of a party that
  keeps to itself leaves what belongs to another party as it is.
- Theorem `Holdings.Like.spared`: a world of the other party stays like that of all.
-/

namespace Trampoline

variable {S : Closures} {σ ι : Type}

/-- A world differs from another in bridges, in the thread, and in what the host has noted. -/
inductive World.EngineChange (P : Program S σ) (w : World S σ) : World S σ → Prop
  | refl : EngineChange P w w
  | report {w₁ : World S σ} (h : EngineChange P w w₁) (event : TraceEvent) :
      EngineChange P w (w₁.report P event)
  | bridges {w₁ : World S σ} (h : EngineChange P w w₁) (bridges : Array (Bridge S)) :
      EngineChange P w { w₁ with bridges := bridges }
  | thread {w₁ : World S σ} (h : EngineChange P w w₁) (thread : String) :
      EngineChange P w { w₁ with thread := thread }

/-! ## What the engine changes -/

/-- A piece of code is about to ask about the world, or to change it by a command. -/
def Code.AsksOfWorld {α : Type} : Code S σ α → Prop
  | .query _ _ | .command (.cancel _) _ | .command (.push _ _) _ => True
  | _ => False

namespace State

variable {P : Program S σ} {w w₁ : World S σ} {rest : List (Activation S σ)}

section

variable (h : World.EngineChange P w w₁)

include h

/-- Arming a loop changes bridges only. -/
theorem engineChange_arm (run : Loop S) : World.EngineChange P w (w₁.arm run).1 := by
  unfold World.arm
  split
  · exact h.bridges _
  · split
    · exact h.bridges _
    · exact h

/-- Following a switch changes bridges only. -/
theorem engineChange_followSwitch (run : Loop S) (new : Connection) :
    World.EngineChange P w (w₁.followSwitch run new) := by
  unfold World.followSwitch
  repeat' split
  all_goals first
    | exact h
    | exact h.bridges _

/-- A completion changes bridges, and is reported. -/
theorem engineChange_complete (cb : Callback) (o : Outcome) :
    World.EngineChange P w (complete P w₁ cb o rest).world := by
  cases ha : w₁.isArmed cb with
  | false =>
      rw [complete_of_not_armed P o ha, world_resume]
      exact h.report _
  | true =>
      obtain ⟨b, hb, hba⟩ := World.isArmed_eq_true_iff.mp ha
      rw [complete_of_armed P o hb hba]
      exact (h.bridges _).report _

/-- A loop that ends takes the terminal of its bridge. -/
theorem engineChange_finish (run : Loop S) (o : Outcome) :
    World.EngineChange P w (finish P w₁ run o rest).world := by
  have hrelease : World.EngineChange P w (w₁.release run.outlet) := by
    cases run.outlet with
    | terminal t => exact h
    | bridge i =>
        simp only [World.release]
        split
        · exact h.bridges _
        · exact h
  rw [finish_eq]
  split
  · next t ht =>
      cases t with
      | user k => exact hrelease
      | complete cb => exact engineChange_complete hrelease cb o
  · rwa [world_resume]

/-- A task is started by the engine itself. -/
theorem engineChange_runTask (task : Task S) :
    World.EngineChange P w (runTask P w₁ task rest).world := by
  cases task <;> exact h

/-- A task that is submitted changes at most the thread. -/
theorem engineChange_submit (context : Context S.Executor) (task : Task S) :
    World.EngineChange P w (submit P w₁ context task rest).world := by
  cases context with
  | immediate => exact engineChange_runTask h task
  | newThread name spawns =>
      simp only [submit]
      split
      · rwa [world_unwind]
      · split
        · exact engineChange_runTask (h.thread name) task
        · exact engineChange_runTask (h.report _) task
  | pool name worker => exact engineChange_runTask (h.thread worker) task
  | hosted name executor => exact h

/-- Taking a node apart changes bridges at most, and is reported. -/
theorem engineChange_reduce (d : Driver S σ) (node : Effect S) :
    World.EngineChange P w (reduce P w₁ d node rest).world := by
  cases node with
  | fail e =>
      simp only [reduce]
      split
      · exact h
      · cases d with
        | loop run => exact engineChange_finish h _ _
        | partially stack resume => exact h
  | async k =>
      cases d with
      | loop run =>
          simp only [reduce, suspend, world_resume]
          exact (engineChange_arm h run).report _
      | partially stack resume => exact h
  | parked inner stack =>
      cases d with
      | loop run =>
          simp only [reduce, suspend, world_resume]
          exact (engineChange_arm h run).report _
      | partially stack' resume => exact h
  | deferred context b =>
      cases d with
      | loop run => exact engineChange_submit ((engineChange_arm h run).report _) context _
      | partially stack resume => exact h
  | switchConnection source modify restore => cases d <;> exact h
  | _ => exact h

/-- A driver in front of a node changes bridges at most. -/
theorem engineChange_eval (d : Driver S σ) (node : Effect S) :
    World.EngineChange P w (eval P w₁ d node rest).world := by
  cases d with
  | loop run =>
      simp only [eval]
      split
      · exact engineChange_finish (h.report _) run _
      · exact engineChange_reduce h _ node
  | partially stack resume => exact engineChange_reduce h _ node

/-- A driver with a value changes bridges at most. -/
theorem engineChange_value (d : Driver S σ) (v : Value) :
    World.EngineChange P w (value P w₁ d v rest).world := by
  simp only [value]
  split
  · exact h
  · cases d with
    | loop run => exact engineChange_finish h _ _
    | partially stack resume => exact h

/-- A panic in front of a driver changes bridges at most. -/
theorem engineChange_panicIn (d : Driver S σ) (payload : Payload) :
    World.EngineChange P w (panicIn P w₁ d payload rest).world := by
  cases d with
  | loop run =>
      simp only [panicIn, contain]
      split
      · exact h.report _
      · rwa [world_unwind]
  | partially stack resume =>
      simp only [panicIn]
      split
      · exact h.report _
      · exact h

/-- Commands about bridges, tasks and runs change nothing that is not the engine's. -/
theorem engineChange_begin {c : Command S} (hcancel : ∀ d, c ≠ .cancel d)
    (hpush : ∀ d token, c ≠ .push d token) : World.EngineChange P w (begin P w₁ c rest).world := by
  cases c with
  | cancel d => exact absurd rfl (hcancel d)
  | push d token => exact absurd rfl (hpush d token)
  | complete cb o => exact engineChange_complete h cb o
  | run e c terminal => exact h
  | submit context task => exact engineChange_submit h context task
  | runToken token => exact h
  | runTask task => exact engineChange_runTask h task

/-- A step of code changes the world by its requests only, if what follows its end does. -/
theorem engineChange_advance {α : Type} {wrap : Code S σ α → Activation S σ}
    {finish : α → State S σ} {escape : Payload → State S σ}
    (hfinish : ∀ a, World.EngineChange P w (finish a).world)
    (hescape : ∀ payload, World.EngineChange P w (escape payload).world) {code : Code S σ α}
    (hcode : ¬code.AsksOfWorld) :
    World.EngineChange P w (advance P w₁ rest wrap finish escape code).world := by
  cases code with
  | done a => exact hfinish a
  | panic payload => exact hescape payload
  | query q next => exact absurd trivial hcode
  | command c next =>
      refine engineChange_begin h (fun d hc => ?_) fun d token hc => ?_
      · subst hc
        exact hcode trivial
      · subst hc
        exact hcode trivial
  | step e next => exact h

end

/-- A step that is not a request of code about the world is a change of the engine at
most. -/
theorem engineChange_work (P : Program S σ) (w : World S σ) (rest : List (Activation S σ))
    {top : Activation S σ}
    (htop : ∀ {α : Type} (h : Holder S σ α) code, top = h.wrap code → ¬code.AsksOfWorld) :
    World.EngineChange P w (work P w rest top).world := by
  have hw : World.EngineChange P w w := .refl
  cases top with
  | eval d node => exact engineChange_eval hw d node
  | value d v => exact engineChange_value hw d v
  | node d code =>
      refine engineChange_advance hw (fun e => ?_) (engineChange_panicIn hw d)
        (htop (.node d) code rfl)
      exact hw
  | outcome d code =>
      refine engineChange_advance hw (fun o => ?_) (engineChange_panicIn hw d)
        (htop (.outcome d) code rfl)
      cases o <;> exact hw
  | switch run source restore code =>
      refine engineChange_advance hw (fun new => ?_) (engineChange_panicIn hw (.loop run))
        (htop (.switch run source restore) code rfl)
      cases restore <;> exact engineChange_followSwitch hw run new
  | owing cb code =>
      refine engineChange_advance hw (fun _ => by rwa [world_resume]) (fun payload => ?_)
        (htop (.owing cb) code rfl)
      simp only [contain]
      split
      · exact engineChange_complete (hw.report _) cb _
      · rwa [world_unwind]
  | code code =>
      exact engineChange_advance hw (fun _ => by rwa [world_resume])
        (fun _ => by rwa [world_unwind])
        (htop .code code rfl)
  | tokens pending =>
      cases pending with
      | nil => rwa [work, world_resume]
      | cons token pending => exact hw
  | thread outer =>
      rw [work, world_resume]
      exact hw.thread outer

end State

/-! ## What belongs to others -/

namespace World.EngineChange

variable {P : Program S σ} {w w₁ : World S σ}

/-- The engine changes no connection by itself. -/
theorem connections_eq (h : World.EngineChange P w w₁) : w₁.connections = w.connections := by
  induction h with
  | refl => rfl
  | report h event ih => exact ih
  | bridges h bridges ih => exact ih
  | thread h thread ih => exact ih

/-- The engine does not change the rule for panics. -/
theorem classifier_eq (h : World.EngineChange P w w₁) : w₁.classifier = w.classifier := by
  induction h with
  | refl => rfl
  | report h event ih => exact ih
  | bridges h bridges ih => exact ih
  | thread h thread ih => exact ih

/-- The engine changes no part of a silent host. -/
theorem part_eq {H : Holdings ι σ} (h : World.EngineChange P w w₁) (silent : H.Silent P) (k : ι) :
    H.part k w₁.host = H.part k w.host := by
  induction h with
  | refl => rfl
  | report h event ih => exact (silent k event _).trans ih
  | bridges h bridges ih => exact ih
  | thread h thread ih => exact ih

end World.EngineChange

namespace Holdings

variable {H : Holdings ι σ} {P : Program S σ} {w w₁ : World S σ} {j k : ι}

/-- What belongs to a party, the bridges apart, is the same in two worlds.  The second world may
have one more connection. -/
structure LeavesAlone (H : Holdings ι σ) (j : ι) (w w₁ : World S σ) : Prop where
  part : H.part j w₁.host = H.part j w.host
  classifier : w₁.classifier = w.classifier
  created : w.connections.states.size ≤ w₁.connections.states.size
  one : w₁.connections.states.size ≤ w.connections.states.size + 1
  kept : ∀ i, H.connection i = j → i < w.connections.states.size →
    w₁.connections.states[i]? = w.connections.states[i]?
  fresh : ∀ i, i = w.connections.states.size → i < w₁.connections.states.size →
    w₁.connections.states[i]? = some .fresh

/-- The connections of the party are in a table of the same size, with the same states. -/
theorem LeavesAlone.of_agreeOn (part : H.part j w₁.host = H.part j w.host)
    (classifier : w₁.classifier = w.classifier)
    (agree : w.connections.AgreeOn (H.Holds j) w₁.connections)
    (size : w₁.connections.states.size = w.connections.states.size) : H.LeavesAlone j w w₁ where
  part := part
  classifier := classifier
  created := Nat.le_of_eq size.symm
  one := by omega
  kept i hi _ := agree (.cancelable i) hi
  fresh i hi hlt := by omega

/-- What the engine changes by itself leaves what belongs to any party as it is. -/
theorem leavesAlone_engineChange (h : World.EngineChange P w w₁) (silent : H.Silent P) (j : ι) :
    H.LeavesAlone j w w₁ :=
  .of_agreeOn (h.part_eq silent j) h.classifier_eq
    (by rw [h.connections_eq]; exact .refl _ _) (by rw [h.connections_eq])

/-- What others do leaves the world of the party like that of all, as far as bridges are left alone:
a connection that is made for the party is given to it. -/
theorem Like.spared [DecidableEq ι] {w' : World S σ} (h : H.Like k w w')
    (hs : H.LeavesAlone k w w₁) : H.Like k { w₁ with bridges := w.bridges }
      (if w.connections.states.size < w₁.connections.states.size ∧
          H.connection w.connections.states.size = k then
        w'.skipConnections w₁.connections.states.size
      else w') := by
  have hone := hs.one
  have hcreated := h.created
  have hconnections : ∀ v : World S σ, H.Like k { w with connections := w₁.connections } v →
      H.Like k { w₁ with bridges := w.bridges } v := fun v hv =>
    { hv with
      part := hv.part.trans hs.part.symm
      classifier := hv.classifier.trans hs.classifier.symm }
  refine hconnections _ ?_
  split
  · next hgiven =>
      refine h.skipConnections hs.created hs.kept fun i hi hle hlt => ?_
      exact hs.fresh i (by omega) hlt
  · next hgiven =>
      refine { h with
        connections := fun c hc => ?_
        created := Nat.le_trans hcreated hs.created }
      have hsame := h.connections c hc
      cases c with
      | uncancelable => rfl
      | cancelable i =>
          refine hsame.trans ?_
          by_cases hlt : i < w.connections.states.size
          · exact (hs.kept i hc hlt).symm
          · have hi : H.connection i = k := hc
            have hle : w₁.connections.states.size ≤ i := by
              apply Nat.le_of_not_lt
              intro hlt'
              have hsize : i = w.connections.states.size := by omega
              exact hgiven ⟨by omega, hsize ▸ hi⟩
            rw [Connections.state?, Array.getElem?_eq_none (by omega), Connections.state?,
              Array.getElem?_eq_none hle]

/-- What two parties hold is the uncancelable connection. -/
theorem Holds.unique {c : Connection} (h : H.Holds k c) (hne : j ≠ k) (hj : H.Holds j c) :
    c = .uncancelable := by
  cases c with
  | uncancelable => rfl
  | cancelable i => exact absurd (hj.symm.trans h) hne

/-- The answer to a query about what belongs to one party changes nothing of what belongs to
another. -/
theorem leavesAlone_answer {α : Type} {q : Query S σ} {next : q.Answer → Code S σ α}
    (hq : (Code.query q next).Within H k w.host) (hne : j ≠ k) :
    H.LeavesAlone j w (w.answer q).1 := by
  cases q with
  | modifyHost f => exact .of_agreeOn (hq.2 j hne) rfl (.refl _ _) rfl
  | newConnection =>
      refine ⟨rfl, rfl, ?_, ?_, fun i _ hlt => ?_, fun i hi _ => ?_⟩
      · simp [World.answer, Connections.create]
      · simp [World.answer, Connections.create]
      · simp [World.answer, Connections.create, Array.getElem?_push, Nat.ne_of_lt hlt]
      · simp [World.answer, Connections.create, hi]
  | pop c =>
      exact .of_agreeOn rfl rfl (Connections.agreeOn_pop (Holds.unique hq hne))
        (Connections.size_pop _ _)
  | setClassifier f => exact hq.elim
  | _ => exact .of_agreeOn rfl rfl (.refl _ _) rfl

/-- A step of a party that keeps to itself leaves the others alone. -/
theorem leavesAlone_work (silent : H.Silent P) {top : Activation S σ}
    (within : top.Within H k w.host) (hne : j ≠ k) (rest : List (Activation S σ)) :
    H.LeavesAlone j w (State.work P w rest top).world := by
  by_cases hcode : ∃ (α : Type) (h : Holder S σ α) (code : Code S σ α),
      top = h.wrap code ∧ code.AsksOfWorld
  · obtain ⟨α, h, code, rfl, hs⟩ := hcode
    rw [Activation.within_wrap] at within
    rw [State.work_wrap]
    cases code with
    | done a => exact hs.elim
    | panic payload => exact hs.elim
    | step e next => exact hs.elim
    | query q next => exact leavesAlone_answer within hne
    | command c next =>
        cases c with
        | cancel c =>
            exact .of_agreeOn rfl rfl (Connections.agreeOn_cancel (Holds.unique within hne))
              (Connections.size_cancel _ _)
        | push c token =>
            simp only [State.advance, State.begin]
            cases hp : w.connections.push c token with
            | due => exact .of_agreeOn rfl rfl (.refl _ _) rfl
            | kept table =>
                obtain ⟨hagree, hsize⟩ := Connections.agreeOn_push (Holds.unique within hne) hp
                exact .of_agreeOn rfl rfl hagree hsize
        | _ => exact hs.elim
  · exact leavesAlone_engineChange (State.engineChange_work P w rest fun h code htop hs =>
      hcode ⟨_, h, code, htop, hs⟩) silent j

end Holdings

end Trampoline
