import Trampoline.Proofs.Laws.Stories

/-!
# Turns on the two sides of a law

A run on the left of a law and the run on the right of it take their turns together.  A turn is
the same on both sides, but for the frames of the law: a value that comes to them goes to other
closures on the left than on the right.

Main definitions and results:

- Definition `Law.InStep`: the machine and the story on both sides.
- Theorem `Law.InStep.other`: a step that is not a turn of the run.
- Definition `Law.AtTurn`: loops of the run have the turn on both sides.
- Theorems `Law.AtTurn.eval`, `Law.AtTurn.value`, `Law.AtTurn.holds`: what they do with it.
-/

namespace Trampoline

variable {S : Closures} {σ : Type} {P : Program S σ} {law : Law P} {E : σ → σ → Prop}

/-! ## What is seen of a step before it is made -/

/-- Code runs for a loop on both sides or on neither. -/
theorem Holder.SameUpTo.loop? {mine : Outlet S → Prop} {α : Type} {h h' : Holder S σ α}
    (hh : Holder.SameUpTo law E mine h h') :
    Option.Rel (Loop.SameUpTo law mine) h.loop? h'.loop? := by
  cases hh with
  | node hd => cases hd with
    | loop hrun => exact .some hrun
    | partially stack hresume => exact .none
  | outcome hd => cases hd with
    | loop hrun => exact .some hrun
    | partially stack hresume => exact .none
  | switch hrun source restore => exact .some hrun
  | owing cb => exact .none
  | code => exact .none

/-- The activations on both sides work for loops with the same connection and outlet. -/
theorem Activation.SameUpTo.loop? {mine : Outlet S → Prop} {a a' : Activation S σ}
    (h : Activation.SameUpTo law E mine a a') :
    Option.Rel (fun run run' => run.connection = run'.connection ∧ run.outlet = run'.outlet)
      a.loop? a'.loop? := by
  cases h with
  | eval hd e => cases hd with
    | loop hrun => exact .some ⟨hrun.connection, hrun.outlet⟩
    | partially stack hresume => exact .none
  | value hd v => cases hd with
    | loop hrun => exact .some ⟨hrun.connection, hrun.outlet⟩
    | partially stack hresume => exact .none
  | @holds α h h' code code' holder alike =>
      rw [Holder.loop?_wrap, Holder.loop?_wrap]
      have hloop := holder.loop?
      generalize h.loop? = run, h'.loop? = run' at hloop ⊢
      cases hloop with
      | none => exact .none
      | some hrun => exact .some ⟨hrun.connection, hrun.outlet⟩
  | wraps late alike => exact .some ⟨late.connection, late.outlet⟩
  | fails late e => exact .some ⟨late.connection, late.outlet⟩
  | tokens pending => exact .none
  | thread outer => exact .none

/-- It is the turn of both runs or of neither. -/
theorem Story.SameUpTo.takesTurn_eq {st st' : Story S} (hst : Story.SameUpTo law st st')
    {mine : Outlet S → Prop} {top top' : Activation S σ} {rest rest' : List (Activation S σ)}
    (htop : Activation.SameUpTo law E mine top top') (hlength : rest.length = rest'.length)
    (depth : Nat) : st.takesTurn depth top rest = st'.takesTurn depth top' rest' := by
  have hloop := htop.loop?
  unfold Story.takesTurn
  rw [hst.bridge, hst.outcomes, hst.lost, hlength]
  generalize top.loop? = run, top'.loop? = run' at hloop ⊢
  cases hloop with
  | none => rfl
  | some hrun => simp only [hrun.2]

/-- Code that is alike completes the same. -/
theorem Code.Alike.completion?_eq {α β : Type} {R : α → β → Prop} {code : Code S σ α}
    {code' : Code S σ β} (h : code.Alike E R code') : code.completion? = code'.completion? := by
  cases h with
  | @command c next next' h => cases c <;> rfl
  | _ => rfl

/-- A loop in front of a node or with a value completes what its exit completes. -/
theorem Activation.completion?_eval (w : World S σ) (run : Loop S) (e : Effect S) :
    (Activation.eval (.loop run) e : Activation S σ).completion? w =
      ((Activation.eval (.loop run) e : Activation S σ).exit? w).bind
        (w.handOver? run.outlet) := by
  simp only [completion?, loop?]
  cases exit? w (Activation.eval (.loop run) e) <;> rfl

/-- A loop that ends with a value hands it over as its outlet says. -/
theorem Activation.completion?_value (w : World S σ) (run : Loop S) (v : Value) :
    (Activation.value (.loop run) v : Activation S σ).completion? w =
      ((Activation.value (.loop run) v : Activation S σ).exit? w).bind
        (w.handOver? run.outlet) := by
  simp only [completion?, loop?]
  cases exit? w (Activation.value (.loop run) v) <;> rfl

section

variable {seat : Seat} {w w' : World S σ} (hw : World.SameUpTo law E seat w w')

include hw

/-- Both worlds hand an outcome over to the same callback. -/
theorem World.SameUpTo.handOver?_eq (outlet : Outlet S) (o : Outcome) :
    w.handOver? outlet o = w'.handOver? outlet o := by
  simp only [World.handOver?, hw.terminal?_eq]

/-- A loop that is not of the run has the same exit on both sides. -/
theorem Loop.SameUpTo.exit?_eq {mine : Outlet S → Prop} {run run' : Loop S}
    (h : run.SameUpTo law mine run') (hother : ¬mine run.outlet) :
    (∀ e, (Activation.eval (.loop run) e : Activation S σ).exit? w =
      (Activation.eval (.loop run') e).exit? w') ∧
    ∀ v, (Activation.value (.loop run) v : Activation S σ).exit? w =
      (Activation.value (.loop run') v).exit? w' := by
  have hfinds : ∀ o, (run.stack.takeFor o).1.isNone = (run'.stack.takeFor o).1.isNone := by
    intro o
    rcases h.stack.finds o with hfinds | ⟨hmine, -⟩
    · generalize run.stack.takeFor o = x, run'.stack.takeFor o = x' at hfinds ⊢
      cases hfinds <;> rfl
    · exact absurd hmine hother
  refine ⟨fun e => ?_, fun v => ?_⟩
  · simp only [Activation.exit?, h.connection, hw.connections]
    cases e with
    | fail e =>
        have hfail : run.stack.findErrorHandler.1.isNone =
            run'.stack.findErrorHandler.1.isNone := hfinds (.error e)
        simp only [hfail]
    | _ => rfl
  · have hvalue : run.stack.popNext.1.isNone = run'.stack.popNext.1.isNone := hfinds (.ok v)
    simp only [Activation.exit?, hvalue]

/-- An activation that is not of the run completes the same on both sides. -/
theorem Activation.SameUpTo.completion?_eq {mine : Outlet S → Prop} {a a' : Activation S σ}
    (h : Activation.SameUpTo law E mine a a')
    (hother : ∀ run, a.loop? = some run → ¬mine run.outlet) :
    a.completion? w = a'.completion? w' := by
  cases h with
  | eval hd e => cases hd with
    | partially stack hresume => rfl
    | loop hrun =>
        rw [completion?_eval, completion?_eval, (hrun.exit?_eq hw (hother _ rfl)).1, hrun.outlet,
          funext (hw.handOver?_eq _)]
  | value hd v => cases hd with
    | partially stack hresume => rfl
    | loop hrun =>
        rw [completion?_value, completion?_value, (hrun.exit?_eq hw (hother _ rfl)).2,
          hrun.outlet, funext (hw.handOver?_eq _)]
  | @holds α h h' code code' holder alike =>
      by_cases hpanic : ∃ payload, code = .panic payload
      · obtain ⟨payload, rfl⟩ := hpanic
        cases alike
        cases holder with
        | owing cb => simp only [Holder.wrap, Activation.completion?, hw.classifier]
        | _ => rfl
      · have hgoes : ∀ payload, code ≠ .panic payload := fun payload hp => hpanic ⟨payload, hp⟩
        have hgoes' : ∀ payload, code' ≠ .panic payload := by
          rintro payload rfl
          cases alike
          exact hgoes payload rfl
        rw [Activation.completion?_wrap w h hgoes, Activation.completion?_wrap w' h' hgoes',
          alike.completion?_eq]
  | wraps late alike => exact alike.completion?_eq
  | fails late e => exact absurd late.mine (hother _ rfl)
  | tokens pending => rfl
  | thread outer => rfl

end

/-! ## Both machines in step -/

/-- The machine and the story of a run, on either side of a law. -/
structure Law.InStep (law : Law P) (E : σ → σ → Prop) (depth : Nat) (s : State S σ) (st : Story S)
    (s' : State S σ) (st' : Story S) : Prop where
  state : State.SameUpTo law E (st.seat depth) s s'
  story : Story.SameUpTo law st st'

namespace Law

variable {depth : Nat} {w w' : World S σ} {rest rest' : List (Activation S σ)}
  {st st' : Story S}

/-- A step that is not a turn of the run keeps both sides in step. -/
theorem InStep.other {top top' : Activation S σ} (hP : P.Discreet E)
    (h : law.InStep E depth (.running w top rest) st (.running w' top' rest') st')
    (hturn : st.takesTurn depth top rest = false) :
    law.InStep E depth (State.work P w rest top) (st.next depth (.running w top rest))
      (State.work P w' rest' top') (st'.next depth (.running w' top' rest')) := by
  obtain ⟨hstate, hstory⟩ := h
  cases hstate with
  | running hw htop hrest =>
      have hother : ∀ run, top.loop? = some run →
          ¬(st.seat depth).mine rest.length run.outlet := fun run hrun hmine => by
        rw [Story.takesTurn_iff.mpr ⟨run, hrun, hmine⟩] at hturn
        cases hturn
      have hsteps := State.sameUpTo_work_other hP hw hrest htop hother
      have hturn' : st'.takesTurn depth top' rest' = false :=
        (hstory.takesTurn_eq htop hrest.length_eq depth).symm.trans hturn
      simp only [Story.next, hturn, hturn', Bool.false_eq_true, if_false,
        htop.completion?_eq hw hother, hw.isArmed_eq, hstory.bridge]
      cases top'.completion? w' with
      | none => exact ⟨hsteps, hstory⟩
      | some x =>
          obtain ⟨cb, o⟩ := x
          simp only
          split
          · exact ⟨by rw [Story.seat_resume]; exact hsteps, hstory.resume cb o⟩
          · exact ⟨hsteps, hstory⟩

end Law

/-! ## Turns -/

/-- It is the turn of the run, and this loop of it is on top, on either side of a law. -/
structure Law.AtTurn (law : Law P) (E : σ → σ → Prop) (depth : Nat) (w : World S σ)
    (rest : List (Activation S σ)) (st : Story S) (run : Loop S) (w' : World S σ)
    (rest' : List (Activation S σ)) (st' : Story S) (run' : Loop S) : Prop where
  world : World.SameUpTo law E (st.seat depth) w w'
  waiting : Activations.SameUpTo law E (st.seat depth) rest rest'
  story : Story.SameUpTo law st st'
  connection : run.connection = run'.connection
  outlet : run.outlet = run'.outlet
  mine : (st.seat depth).mine rest.length run.outlet

/-- Code that asks for something has not answered yet. -/
theorem Story.heed_of_going (st : Story S) (w : World S σ) {α : Type} {code : Code S σ α}
    {reply : Except Failure α → Reply S} (hdone : ∀ a, code ≠ .done a)
    (hpanic : ∀ payload, code ≠ .panic payload) : st.heed w code reply = st := by
  cases code with
  | done a => exact absurd rfl (hdone a)
  | panic payload => exact absurd rfl (hpanic payload)
  | _ => rfl

/-- A loop that has suspended before parks in its bridge again. -/
theorem World.arm_bridge (w : World S σ) {run : Loop S} {i : Nat} (h : run.outlet = .bridge i) :
    (w.arm run).2.bridge = i := by
  unfold World.arm
  rw [h]
  simp only
  split <;> rfl

namespace Law.AtTurn

variable {depth : Nat} {w w' : World S σ} {rest rest' : List (Activation S σ)}
  {st st' : Story S} {run run' : Loop S}
  (h : law.AtTurn E depth w rest st run w' rest' st' run')

include h

/-- What is around a loop of the run goes with any later story. -/
theorem around (st₁ : Story S) (hbridge : ∀ i, st.bridge = some i → st₁.bridge = some i) :
    World.SameUpTo law E (st₁.seat depth) w w' ∧
      Activations.SameUpTo law E (st₁.seat depth) rest rest' :=
  ⟨h.world.mono hbridge, Story.waiting_of_turn h.mine hbridge h.waiting⟩

/-- The loops are the same up to the law with stacks that are. -/
theorem loop (hstack : law.Stacks True run.stack run'.stack) :
    run.SameUpTo law ((st.seat depth).mine rest.length) run' :=
  ⟨h.connection, h.outlet, hstack.mono fun _ => h.mine⟩

/-- The run on the left may look at its connection once more. -/
theorem look_left (c : Connection) (b : Bool) :
    law.AtTurn E depth w rest (st.look c b) run w' rest' st' run' :=
  ⟨h.world, h.waiting, h.story.look_left c b, h.connection, h.outlet, h.mine⟩

/-- The run on the right may look at its connection once more. -/
theorem look_right (c : Connection) (b : Bool) :
    law.AtTurn E depth w rest st run w' rest' (st'.look c b) run' :=
  ⟨h.world, h.waiting, h.story.look_right c b, h.connection, h.outlet, h.mine⟩

/-- Both runs look at their connection. -/
theorem look (c : Connection) (b : Bool) :
    law.AtTurn E depth w rest (st.look c b) run w' rest' (st'.look c b) run' :=
  (h.look_left c b).look_right c b

/-- Both runs are answered. -/
theorem answer (reply reply' : Reply S) :
    law.AtTurn E depth w rest (st.answer reply) run w' rest' (st'.answer reply') run' := by
  refine ⟨?_, ?_, h.story.answer reply reply', h.connection, h.outlet, ?_⟩
  all_goals rw [Story.seat_answer]
  · exact h.world
  · exact h.waiting
  · exact h.mine

/-- The loops may have other frames. -/
theorem withStack (stack stack' : CallStack (Frame S)) :
    law.AtTurn E depth w rest st { run with stack := stack } w' rest' st'
      { run' with stack := stack' } :=
  ⟨h.world, h.waiting, h.story, h.connection, h.outlet, h.mine⟩

variable (hP : P.Discreet E)

include hP

/-- Both loops see that the run has been canceled. -/
theorem canceled (c : Connection) (id n n' : Nat) :
    law.InStep E depth
      (State.finish P (w.report P (.runCancelled id n)) run (.error .cancelled) rest)
      ((st.look c true).deliver (.error .cancelled))
      (State.finish P (w'.report P (.runCancelled id n')) run' (.error .cancelled) rest')
      ((st'.look c true).deliver (.error .cancelled)) := by
  obtain ⟨hworld, hwaiting⟩ :=
    h.around ((st.look c true).deliver (.error .cancelled)) fun _ hi => hi
  exact ⟨State.sameUpTo_cancelled hP hworld hwaiting h.outlet id n n',
    (h.story.look c true).deliver _⟩

/-- An exit for which both loops find the same goes the same way. -/
theorem leave {A : Prop} {o : Outcome}
    (hfinds : Finds (law.Stacks A) (run.stack.takeFor o) (run'.stack.takeFor o)) :
    law.InStep E depth (State.leave P w run o rest) (st.leave run o)
      (State.leave P w' run' o rest') (st'.leave run' o) := by
  unfold State.leave Story.leave
  generalize run.stack.takeFor o = x, run'.stack.takeFor o = x' at hfinds ⊢
  cases hfinds with
  | none below below' =>
      obtain ⟨hworld, hwaiting⟩ := h.around (st.deliver o) fun _ hi => hi
      exact ⟨State.sameUpTo_finish hP hworld hwaiting h.outlet o, h.story.deliver o⟩
  | @same frame below below' hs =>
      have hloop := (h.withStack below below').loop (hs.mono fun _ => trivial)
      exact ⟨.running h.world (.holds (.node (.loop hloop)) (hP.resolve frame o)) h.waiting,
        h.story.ask_same _⟩

/-- Both loops park in the bridge of the run. -/
theorem park (hstack : law.Stacks True run.stack run'.stack) (node : Effect S)
    (hsuspends : node.Suspends) (q : Option (Question S)) :
    law.InStep E depth (State.reduce P w (.loop run) node rest) ((st.park w run).ask q)
      (State.reduce P w' (.loop run') node rest') ((st'.park w' run').ask q) := by
  have hbridge : ∀ i, st.bridge = some i → ((st.park w run).ask q).bridge = some i := by
    intro i hi
    have hmine := h.mine
    cases hout : run.outlet with
    | terminal t =>
        rw [hout] at hmine
        exact absurd (hmine.1.symm.trans hi) (by simp)
    | bridge j =>
        rw [hout] at hmine
        rw [Story.ask, Story.park, w.arm_bridge hout, ← hi]
        exact Eq.symm hmine
  obtain ⟨hworld, hwaiting⟩ := h.around _ hbridge
  have hcb := hworld.callback_eq h.connection h.outlet (hstack.mono fun _ => rfl)
  refine ⟨State.sameUpTo_reduce hP hworld hwaiting h.connection h.outlet hstack ?_ ?_ ?_,
    (h.story.park hcb).ask_same q⟩
  · rintro e rfl
    exact hsuspends
  · exact fun hs => absurd hsuspends hs
  · exact fun _ _ => rfl

/-- Both loops meet the same node. -/
theorem meet (hstack : law.Stacks True run.stack run'.stack) (node : Effect S) :
    law.InStep E depth (State.reduce P w (.loop run) node rest) (st.meet w run node)
      (State.reduce P w' (.loop run') node rest') (st'.meet w' run' node) := by
  have hstays : ¬node.Suspends → (∀ e, node ≠ .fail e) →
      State.SameUpTo law E (st.seat depth) (State.reduce P w (.loop run) node rest)
        (State.reduce P w' (.loop run') node rest') := fun hs hf =>
    State.sameUpTo_reduce hP h.world h.waiting h.connection h.outlet hstack hf (fun _ _ => h.mine)
      fun hsuspends => absurd hsuspends hs
  cases node with
  | fail e =>
      rw [State.reduce_fail_eq_leave, State.reduce_fail_eq_leave]
      exact h.leave hP (hstack.finds_error e)
  | async k =>
      simp only [Story.meet, ← h.connection]
      exact h.park hP hstack (.async k) trivial _
  | parked inner stack =>
      simp only [Story.meet, ← h.connection]
      exact h.park hP hstack (.parked inner stack) trivial _
  | deferred context b =>
      simp only [Story.meet, ← h.connection]
      exact h.park hP hstack (.deferred context b) trivial _
  | switchConnection source modify restore =>
      simp only [Story.meet, ← h.connection]
      exact ⟨hstays id (by simp), h.story.ask_same _⟩
  | suspend k => exact ⟨hstays id (by simp), h.story.ask_same _⟩
  | delay k => exact ⟨hstays id (by simp), h.story.ask_same _⟩
  | pure v => exact ⟨hstays id (by simp), h.story⟩
  | bind source frame => exact ⟨hstays id (by simp), h.story⟩
  | map source f => exact ⟨hstays id (by simp), h.story⟩
  | continueOn context source => exact ⟨hstays id (by simp), h.story⟩

/-- Both loops are in front of the same node. -/
theorem eval (hstack : law.Stacks True run.stack run'.stack) (node : Effect S) :
    law.InStep E depth (State.eval P w (.loop run) node rest)
      (st.turn w (.eval (.loop run) node : Activation S σ))
      (State.eval P w' (.loop run') node rest')
      (st'.turn w' (.eval (.loop run') node : Activation S σ)) := by
  simp only [State.eval, Story.turn, ← h.connection, ← h.world.connections]
  split
  · next hc =>
      rw [hc]
      exact h.canceled hP _ _ _ _
  · exact (h.look _ _).meet hP hstack node

/-- A panic of code for both loops is contained in both, or leaves both. -/
theorem panics (hfails : ∀ e, Activation.SameUpTo law E ((st.seat depth).mine rest.length)
      (.eval (.loop run) (.fail e)) (.eval (.loop run') (.fail e)))
    {α β : Type} (payload : Payload)
    (reply : Except Failure α → Reply S) (reply' : Except Failure β → Reply S) :
    law.InStep E depth (State.panicIn P w (.loop run) payload rest)
      (st.heed w (.panic payload : Code S σ α) reply)
      (State.panicIn P w' (.loop run') payload rest')
      (st'.heed w' (.panic payload : Code S σ β) reply') := by
  have hreported : World.SameUpTo law E (st.seat depth)
      (w.report P (.panicContained payload.describe))
      (w'.report P (.panicContained payload.describe)) := h.world.report hP rfl
  simp only [Story.heed, State.panicIn, State.contain, ← h.world.classifier]
  split
  · refine ⟨?_, h.story.answer _ _⟩
    rw [Story.seat_answer]
    exact .running hreported (hfails _) h.waiting
  · obtain ⟨hworld, hwaiting⟩ := h.around { st with lost := true } fun _ hi => hi
    exact ⟨State.sameUpTo_unwind hP hworld hwaiting payload, h.story.lose⟩

/-- Code that is alike works for both loops: it goes on, or panics, on both sides, or it is for the
holders of the code to say what follows. -/
theorem works {α β : Type} {R : α → β → Prop} {code : Code S σ α} {code' : Code S σ β}
    (alike : code.Alike E R code') {wrap : Code S σ α → Activation S σ}
    {wrap' : Code S σ β → Activation S σ}
    (hwrap : ∀ c c', c.Alike E R c' →
      Activation.SameUpTo law E ((st.seat depth).mine rest.length) (wrap c) (wrap' c'))
    (hfails : ∀ e, Activation.SameUpTo law E ((st.seat depth).mine rest.length)
      (.eval (.loop run) (.fail e)) (.eval (.loop run') (.fail e)))
    {finish : α → State S σ} {finish' : β → State S σ}
    {reply : Except Failure α → Reply S} {reply' : Except Failure β → Reply S}
    (hdone : ∀ a b, code = .done a → code' = .done b → R a b →
      law.InStep E depth (finish a) (st.answer (reply (.ok a))) (finish' b)
        (st'.answer (reply' (.ok b)))) :
    law.InStep E depth
      (State.advance P w rest wrap finish (fun p => State.panicIn P w (.loop run) p rest) code)
      (st.heed w code reply)
      (State.advance P w' rest' wrap' finish' (fun p => State.panicIn P w' (.loop run') p rest')
        code')
      (st'.heed w' code' reply') := by
  refine State.sameUpTo_advance hP h.world h.waiting
    (T := fun s s' => law.InStep E depth s (st.heed w code reply) s' (st'.heed w' code' reply'))
    alike hwrap ?_ ?_ ?_
  · rintro a b rfl rfl hab
    exact hdone a b rfl rfl hab
  · rintro payload rfl rfl
    exact h.panics hP hfails payload reply reply'
  · intro hdone hpanic hdone' hpanic' s s' hs
    rw [Story.heed_of_going st w hdone hpanic, Story.heed_of_going st' w' hdone' hpanic']
    exact ⟨hs, h.story⟩

/-- The same holders have the code on both sides. -/
theorem holds (hstack : law.Stacks True run.stack run'.stack) {α : Type}
    {holder holder' : Holder S σ α} {code code' : Code S σ α}
    (hh : Holder.SameUpTo law E ((st.seat depth).mine rest.length) holder holder')
    (hloop : holder.loop? = some run) (hloop' : holder'.loop? = some run')
    (alike : code.Alike E Eq code') :
    law.InStep E depth (State.work P w rest (holder.wrap code)) (st.turn w (holder.wrap code))
      (State.work P w' rest' (holder'.wrap code')) (st'.turn w' (holder'.wrap code')) := by
  rw [Story.turn_wrap st w hloop, Story.turn_wrap st' w' hloop', State.work_wrap, State.work_wrap,
    funext (holder.escape_eq P w rest hloop), funext (holder'.escape_eq P w' rest' hloop')]
  refine h.works hP alike (fun c c' hc => .holds hh hc)
    (fun e => .eval (.loop (h.loop hstack)) _) ?_
  rintro a b rfl rfl rfl
  refine ⟨?_, h.story.answer _ _⟩
  rw [Story.seat_answer]
  exact State.sameUpTo_holder_finish hP h.world h.waiting hh a

/-- A panic of the code that makes the next node has come to both loops, but only the left one
has the frame that would have taken a value. -/
theorem fails {g : S.Bind} (late : run.Late law ((st.seat depth).mine rest.length) g run')
    (e : Failure) :
    law.InStep E depth (State.eval P w (.loop run) (.fail e) rest)
      (st.turn w (.eval (.loop run) (.fail e) : Activation S σ))
      (State.eval P w' (.loop run') (.fail e) rest')
      (st'.turn w' (.eval (.loop run') (.fail e) : Activation S σ)) := by
  simp only [State.eval, Story.turn, ← h.connection, ← h.world.connections]
  split
  · next hc =>
      rw [hc]
      exact h.canceled hP _ _ _ _
  · rw [State.reduce_fail_eq_leave, State.reduce_fail_eq_leave]
    have hfinds : Finds (law.Stacks True) (run.stack.takeFor (.error e))
        (run'.stack.takeFor (.error e)) :=
      (finds_of_awaiting_eq (by rw [late.stack]; rfl)).mono fun _ _ hs => .inl hs
    exact (h.look _ _).leave hP hfinds

/-- Both loops have a value.  It goes the same way, or to the closures of the law; but a closure
that only makes a node of it is on the left alone. -/
theorem value (hstack : law.Stacks True run.stack run'.stack) (v : Value) :
    law.InStep E depth (State.leave P w run (.ok v) rest) (st.leave run (.ok v))
        (State.leave P w' run' (.ok v) rest') (st'.leave run' (.ok v)) ∨
      ∃ k hk frames, law = .rightUnit k hk ∧
        awaiting (.ok v) run.stack.toList = .bind (.user k) :: frames ∧
        awaiting (.ok v) run'.stack.toList = awaiting (.ok v) frames := by
  rcases hstack.finds (.ok v) with hfinds | ⟨-, v', frames, hv, hleft, hright⟩
  · exact .inl (h.leave hP hfinds)
  obtain rfl : v = v' := Except.ok.inj hv
  cases law with
  | leftUnit x f t ht =>
      -- There are no frames of this law, so both loops find the same.
      have heq : awaiting (.ok v) run.stack.toList = awaiting (.ok v) run'.stack.toList := by
        rw [hright, ← awaiting_awaiting, hleft]
        rfl
      exact .inl (h.leave hP ((finds_of_awaiting_eq heq).mono fun _ _ hs => .inl hs) (A := True))
  | rightUnit k hk => exact .inr ⟨k, hk, frames, rfl, hleft, hright⟩
  | assoc f g fg hfg =>
      obtain ⟨below, htake, hbelow⟩ := CallStack.takeFor_of_awaiting hleft
      obtain ⟨below', htake', hbelow'⟩ := CallStack.takeFor_of_awaiting
        (hright.trans (awaiting_cons_of_takes rfl frames))
      have late : Loop.Late (.assoc f g fg hfg) ((st.seat depth).mine rest.length) g
          { run with stack := below } { run' with stack := below' } :=
        ⟨rfl, h.connection, h.outlet, h.mine, by rw [hbelow, hbelow']; rfl⟩
      have alike : (P.bind f v).Alike E (fun e e' => e' = e.flatMap g) (P.bind fg v) := by
        rw [hfg]
        exact (hP.bind f v).followed _
      simp only [State.leave, Story.leave, htake, htake']
      exact .inl ⟨.running h.world (.wraps late alike) h.waiting,
        h.story.ask (.some (.assoc f g fg hfg v))⟩
  | mapped f b hb =>
      obtain ⟨below, htake, hbelow⟩ := CallStack.takeFor_of_awaiting hleft
      obtain ⟨below', htake', hbelow'⟩ := CallStack.takeFor_of_awaiting
        (hright.trans (awaiting_cons_of_takes rfl frames))
      have hloop := (h.withStack below below').loop (.inl (hbelow.trans hbelow'.symm))
      have alike : (P.apply (.map f) v).Alike E Eq (P.bind b v) := by
        rw [hb]
        exact hP.apply (.map f) v
      simp only [State.leave, Story.leave, htake, htake']
      exact .inl ⟨.running h.world (.holds (.node (.loop hloop)) alike) h.waiting,
        h.story.ask (.some (.mapped f b hb v))⟩

end Law.AtTurn

end Trampoline
