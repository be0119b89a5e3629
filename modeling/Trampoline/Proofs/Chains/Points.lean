import Trampoline.Proofs.Laws.Composition
import Trampoline.Proofs.Run.Delivery

/-!
# A loop from point to point

Between two suspensions, a loop in front of plain nodes goes from one point to the next, and each
step of the machine is one move: it takes a node apart, gives a value to the frame on top, or goes
on with the node that code has come back with at once.  Such moves leave the world as it is.

Main definitions and results:

- Definitions `Point`, `Point.Goes`: what a loop has before it, and the moves that it makes.
- Definition `TurnAtPoint`: the loop of a run stands at a point, with some frames pending.
- Theorem `TurnAtPoint.goes`: a move is a step of the machine.
- Theorems `TurnAtPoint.delivers`, `TurnAtPoint.suspends`: a loop with a value and no frames
  delivers it, and one in front of a deferred body submits the body.
- Theorems `Tracks.resumes_of_task`, `Tracks.waits_or_task`: a run that waits is taken up again by
  its task, and by nothing else.
-/

namespace Trampoline

variable {S : Closures} {σ : Type}

/-! ## Points and moves -/

/-- What a loop has before it. -/
inductive Point (S : Closures) where
  | node (e : Effect S)
  | value (v : Value)
  /-- Code that has come back with a node. -/
  | reply (e : Effect S)

/-- A loop at a point. -/
def Point.activation (run : Loop S) : Point S → Activation S σ
  | node e => .eval (.loop run) e
  | value v => .value (.loop run) v
  | reply e => .node (.loop run) (.done e)

/-- A loop at a point is one. -/
@[simp]
theorem Point.loop?_activation (run : Loop S) (p : Point S) :
    (p.activation run : Activation S σ).loop? = some run := by
  cases p <;> rfl

/-- The moves from one point, with some frames pending, to the next. -/
inductive Point.Goes (P : Program S σ) :
    List (Frame S) → Point S → List (Frame S) → Point S → Prop
  | pure (frames : List (Frame S)) (v : Value) : Goes P frames (.node (.pure v)) frames (.value v)
  | bind (frames : List (Frame S)) (source : Effect S) (frame : Frame S) :
      Goes P frames (.node (.bind source frame)) (frame :: frames) (.node source)
  | map (frames : List (Frame S)) (source : Effect S) (f : S.Map) :
      Goes P frames (.node (.map source f)) (.map f :: frames) (.node source)
  | apply (frames : List (Frame S)) {frame : Frame S} {v : Value} {e : Effect S}
      (takes : frame.takes (.ok v) = true) (code : P.apply frame v = .done e) :
      Goes P (frame :: frames) (.value v) frames (.reply e)
  | reply (frames : List (Frame S)) (e : Effect S) : Goes P frames (.reply e) frames (.node e)

/-! ## The loop of a run at a point -/

/-- The loop of a run has the turn, at a point, with some frames pending, on the connection that
the run started with. -/
inductive TurnAtPoint (r : Origin S) : State S σ → Story S → List (Frame S) → Point S → Prop
  | mk {w : World S σ} {run : Loop S} {below : List (Activation S σ)} {st : Story S}
      {frames : List (Frame S)} {p : Point S}
      (turn : st.takesTurn r.depth (p.activation run : Activation S σ) below = true)
      (connection : run.connection = r.connection) (stack : run.stack.toList = frames) :
      TurnAtPoint r (.running w (p.activation run) below) st frames p

/-- Nothing has happened to a run but questions and answers. -/
structure Story.Keeps (st st' : Story S) : Prop where
  bridge : st'.bridge = st.bridge
  parks : st'.parks = st.parks
  resumptions : st'.resumptions = st.resumptions
  outcomes : st'.outcomes = st.outcomes
  lost : st'.lost = st.lost

namespace Story

/-- A look keeps the story. -/
theorem keeps_look (st : Story S) (c : Connection) (canceled : Bool) :
    st.Keeps (st.look c canceled) :=
  ⟨rfl, rfl, rfl, rfl, rfl⟩

/-- A question keeps the story. -/
theorem keeps_ask (st : Story S) (q : Option (Question S)) : st.Keeps (st.ask q) :=
  ⟨rfl, rfl, rfl, rfl, rfl⟩

/-- An answer keeps the story. -/
theorem keeps_answer (st : Story S) (reply : Reply S) : st.Keeps (st.answer reply) := by
  refine ⟨st.answer_bridge reply, st.answer_parks reply, st.answer_resumptions reply, ?_,
    st.answer_lost reply⟩
  unfold answer
  split <;> rfl

/-- A loop that meets a node which is no question looks at its connection, and that is all. -/
theorem keeps_turn_node (st : Story S) {w : World S σ} {run : Loop S} {e : Effect S}
    (uncanceled : w.connections.isCanceled run.connection = false)
    (hmeet : ∀ st : Story S, st.meet w run e = st) :
    st.Keeps (st.turn w ((Point.node e).activation run : Activation S σ)) := by
  have hturn : st.turn w ((Point.node e).activation run : Activation S σ) =
      st.look run.connection false := by
    simp [Point.activation, Story.turn, uncanceled, hmeet]
  rw [hturn]
  exact st.keeps_look _ _

end Story

/-- Loops that deliver in one place take their turns alike, as long as the run keeps what it has. -/
theorem Story.Keeps.takesTurn {st st' : Story S} (h : st.Keeps st') {a a' : Activation S σ}
    {run run' : Loop S} (ha : a.loop? = some run) (ha' : a'.loop? = some run')
    (outlet : run'.outlet = run.outlet) (depth : Nat) (rest : List (Activation S σ)) :
    st'.takesTurn depth a' rest = st.takesTurn depth a rest := by
  simp only [Story.takesTurn, ha, ha', outlet, h.bridge, h.outcomes, h.lost]

namespace TurnAtPoint

variable {P : Program S σ} {r : Origin S} {s : State S σ} {st : Story S}
  {frames frames' : List (Frame S)} {p p' : Point S} {v : Value} {context : Context S.Executor}
  {b : Body S}

/-- A run with a loop at a point has come to no end yet. -/
theorem live (h : TurnAtPoint r s st frames p) (tracks : Tracks P r s st) :
    st.outcomes = [] ∧ st.lost = false ∧ st.resumptions = st.callbacks := by
  cases h with
  | mk turn connection stack =>
      generalize hs : State.running _ _ _ = s at tracks
      cases tracks with
      | turn stands proceeds home live resumed => exact ⟨live.outcomes, live.lost, resumed⟩
      | calling place serves waits idle proceeds home live resumed =>
          exact ⟨live.outcomes, live.lost, resumed⟩
      | @suspended _ _ i _ _ _ _ _ idle holds bridge parks completes proceeds live resumed =>
          subst hs
          rw [Story.takesTurn_of_bridge bridge (idle _ (by simp))] at turn
          cases turn
      | delivered outcomes ending evaluates pending lost still numbered resumed =>
          subst hs
          rw [Still.takesTurn still (.inl (by simp [outcomes]))] at turn
          cases turn
      | lost outcomes lost pending evaluates still numbered resumed =>
          subst hs
          rw [Still.takesTurn still (.inr lost)] at turn
          cases turn

/-- A loop that goes on in its place, with other frames, faces what it has come to. -/
theorem of_step {w : World S σ} {run : Loop S} {below : List (Activation S σ)}
    (turn : st.takesTurn r.depth (p.activation run : Activation S σ) below = true)
    (connection : run.connection = r.connection) (stack : CallStack (Frame S))
    (hframes : stack.toList = frames') (keeps : st.Keeps (st.turn w (p.activation run)))
    (hstep : State.next P (.running w (p.activation run) below) =
      .running w (p'.activation { run with stack := stack }) below) :
    TurnAtPoint r (State.next P (.running w (p.activation run) below))
        (st.turn w (p.activation run)) frames' p' ∧
      (State.next P (.running w (p.activation run) below)).world = w ∧
      st.Keeps (st.turn w (p.activation run)) := by
  rw [hstep]
  have hturn := (keeps.takesTurn (p.loop?_activation run)
    (p'.loop?_activation { run with stack := stack }) rfl r.depth below).trans turn
  exact ⟨.mk hturn connection hframes, rfl, keeps⟩

/-- A move is a step of the machine, which changes nothing else. -/
theorem goes (h : TurnAtPoint r s st frames p)
    (uncanceled : s.world.connections.isCanceled r.connection = false)
    (goes : p.Goes P frames frames' p') :
    TurnAtPoint r (s.next P) (st.next r.depth s) frames' p' ∧ (s.next P).world = s.world ∧
      st.Keeps (st.next r.depth s) := by
  cases h with
  | @mk w run below st frames p turn connection hstack =>
      have hcanceled : w.connections.isCanceled run.connection = false := by
        rw [connection]
        exact uncanceled
      have hnext : st.next r.depth (.running w (p.activation run) below) =
          st.turn w (p.activation run) := by
        simp only [Story.next, turn, if_true]
      rw [hnext]
      cases goes with
      | pure frames v =>
          refine of_step turn connection run.stack hstack
            (st.keeps_turn_node hcanceled fun _ => rfl) ?_
          simp [Point.activation, State.next, State.work, State.eval, hcanceled, State.reduce]
      | bind _ source frame =>
          refine of_step turn connection (run.stack.push frame) (by simp [hstack])
            (st.keeps_turn_node hcanceled fun _ => rfl) ?_
          simp [Point.activation, State.next, State.work, State.eval, hcanceled, State.reduce,
            Driver.push, Driver.withStack, Driver.stack]
      | map _ source f =>
          refine of_step turn connection (run.stack.push (.map f)) (by simp [hstack])
            (st.keeps_turn_node hcanceled fun _ => rfl) ?_
          simp [Point.activation, State.next, State.work, State.eval, hcanceled, State.reduce,
            Driver.push, Driver.withStack, Driver.stack]
      | @apply _ frame v e takes code =>
          have hawaiting : awaiting (.ok v) run.stack.toList = frame :: frames' := by
            rw [hstack, awaiting_cons_of_takes takes]
          obtain ⟨stack, htake, hframes⟩ := CallStack.takeFor_of_awaiting hawaiting
          have hpop : run.stack.popNext = (some frame, stack) := htake
          have hturn : st.turn w ((Point.value v).activation run : Activation S σ) =
              st.ask (frame.question? (.ok v)) := by
            simp [Point.activation, Story.turn, Story.leave, htake]
          refine of_step turn connection stack hframes (hturn ▸ st.keeps_ask _) ?_
          simp [Point.activation, State.next, State.work, State.value, Driver.stack,
            Driver.withStack, hpop, code]
      | reply _ e => exact of_step turn connection run.stack hstack (st.keeps_answer _) rfl

/-- A loop with a value and without frames delivers the value. -/
theorem delivers (h : TurnAtPoint r s st [] (.value v)) :
    (st.next r.depth s).outcomes = st.outcomes ++ [.ok v] ∧
      (st.next r.depth s).parks = st.parks ∧ (st.next r.depth s).lost = st.lost := by
  cases h with
  | @mk w run below st frames p turn connection hstack =>
      have htake : ∃ stack, run.stack.takeFor (.ok v) = (none, stack) := by
        rcases run.stack.takeFor_cases (.ok v) with ⟨-, stack, htake⟩ | ⟨frame, stack, hcons, -⟩
        · exact ⟨stack, htake⟩
        · rw [hstack] at hcons
          cases hcons
      obtain ⟨stack, htake⟩ := htake
      have hnext : st.next r.depth (.running w ((Point.value v).activation run) below) =
          st.deliver (.ok v) := by
        simp only [Story.next, turn, if_true]
        simp [Point.activation, Story.turn, Story.leave, htake]
      rw [hnext]
      exact ⟨rfl, rfl, rfl⟩

/-- A loop in front of a deferred body parks its frames and submits the body to its context. -/
theorem suspends (h : TurnAtPoint r s st frames (.node (.deferred context b)))
    (uncanceled : s.world.connections.isCanceled r.connection = false) :
    ∃ p : Park S, p.stack.toList = frames ∧ p.connection = r.connection ∧
      (∃ w below, s.next P = .submit P w context (.body p.callback b) below) ∧
      (st.next r.depth s).parks = st.parks ++ [p] ∧
      (st.next r.depth s).pending = some (.deferred context b r.connection) ∧
      (st.next r.depth s).outcomes = st.outcomes ∧ (st.next r.depth s).lost = st.lost := by
  cases h with
  | @mk w run below st frames p turn connection hstack =>
      have hcanceled : w.connections.isCanceled run.connection = false := by
        rw [connection]
        exact uncanceled
      have hnext : st.next r.depth
          (.running w ((Point.node (.deferred context b)).activation run) below) =
          ((st.look run.connection false).park w run).ask
            (some (.deferred context b r.connection)) := by
        simp only [Story.next, turn, if_true]
        rw [← connection]
        simp [Point.activation, Story.turn, hcanceled, Story.meet]
      refine ⟨⟨(w.arm run).2, run.stack, run.connection⟩, hstack, connection,
        ⟨(w.arm run).1.report P
          (.suspendedDeferred context.name (w.arm run).2.epoch run.stack.length), below, ?_⟩, ?_⟩
      · simp [Point.activation, State.next, State.work, State.eval, hcanceled, State.reduce,
          State.suspendOn]
      · rw [hnext]
        exact ⟨rfl, rfl, rfl, rfl⟩

end TurnAtPoint

/-! ## Tasks -/

/-- A run is tended in a state: its connection has not been canceled, and nothing but the task that
it has submitted completes the callback that it waits for. -/
structure Tends (P : Program S σ) (r : Origin S) (s : State S σ) (st : Story S) : Prop where
  uncanceled : s.world.connections.isCanceled r.connection = false
  tasks : ∀ w top rest cb o, s = .running w top rest → top.completion? w = some (cb, o) →
    st.callbacks = st.resumptions ++ [cb] → ∃ context b c,
      st.pending = some (.deferred context b c) ∧ top = .owing cb (P.bodyWith b cb)

/-- Where a run that waits for the answer to a question for which it suspends has what it needs to
go on. -/
theorem Tracks.waiting {P : Program S σ} {r : Origin S} {s : State S σ} {st : Story S}
    (h : Tracks P r s st) {q : Question S} (hq : st.pending = some q) (hsuspends : q.Suspends)
    (hlost : st.lost = false) : st.outcomes = [] ∧ ∃ i stack c earlier,
      (∀ a ∈ s.activations, a.Idle i) ∧ s.world.bridges[i]? = some
        ⟨c, some r.terminal, stack, some (earlier.length + 1), earlier.length + 1⟩ ∧
      st.bridge = some i ∧ st.parks = earlier ++ [⟨⟨i, earlier.length + 1⟩, stack, c⟩] ∧
      st.resumptions = earlier.map Park.callback := by
  obtain ⟨i, stack, c, earlier, next, parked⟩ := h.parked_of_suspends hq hsuspends hlost
  exact ⟨parked.live.outcomes, i, stack, c, earlier, parked.idle, parked.holds, parked.bridge,
    parked.parks, parked.resumed⟩

/-- A run that waits has not been taken up again from its last suspension. -/
theorem Tracks.not_resumed {P : Program S σ} {r : Origin S} {s : State S σ} {st : Story S}
    (h : Tracks P r s st) {q : Question S} (hq : st.pending = some q) (hsuspends : q.Suspends)
    (hlost : st.lost = false) : st.resumptions ≠ st.callbacks := by
  obtain ⟨-, i, stack, c, earlier, -, -, -, parks, resumed⟩ := h.waiting hq hsuspends hlost
  simp [resumed, Story.callbacks, parks]

/-- The task of a suspension, run while the run waits for it, takes the run up again: with the
frames of the suspension, on its connection, and with the value of the task. -/
theorem Tracks.resumes_of_task {P : Program S σ} {r : Origin S} {s : State S σ} {st : Story S}
    (h : Tracks P r s st) {context : Context S.Executor} {v : Value} {c : Connection}
    (hq : st.pending = some (.deferred context (.succeed v) c)) (hlost : st.lost = false)
    {p : Park S} (hp : st.parks.getLast? = some p) (connection : p.connection = r.connection)
    {w : World S σ} {rest : List (Activation S σ)}
    (hs : s = .running w (.owing p.callback (P.bodyWith (.succeed v) p.callback)) rest) :
    TurnAtPoint r (s.next P) (st.next r.depth s) p.stack.toList (.node (.pure v)) ∧
      (st.next r.depth s).parks = st.parks ∧ (st.next r.depth s).resumptions = st.callbacks := by
  obtain ⟨-, i, stack, c, earlier, idle, holds, bridge, parks, resumed⟩ :=
    h.waiting hq trivial hlost
  rw [parks, List.getLast?_concat, Option.some.injEq] at hp
  subst hp hs
  rw [State.world_running] at holds
  generalize hcb : (⟨i, earlier.length + 1⟩ : Callback) = cb at idle parks ⊢
  have hi : cb.bridge = i := by rw [← hcb]
  have hepoch : some (earlier.length + 1) = some cb.epoch := by rw [← hcb]
  generalize htop : (.owing cb (P.bodyWith (.succeed v) cb) : Activation S σ) = top at idle ⊢
  have hcompletes : top.completion? w = some (cb, .ok v) := by rw [← htop]; rfl
  have hturn : st.takesTurn r.depth top rest = false := by rw [← htop]; rfl
  have harmed : w.isArmed cb = true :=
    World.isArmed_eq_true_iff.mpr ⟨_, hi ▸ holds, hepoch⟩
  have hresumes : Resumes i _ (.ok v) w rest (State.work P w rest top) :=
    State.resumes_work P (idle top (by simp)) hcompletes hi holds hepoch
  have hnext : st.next r.depth (.running w top rest) = st.resume cb (.ok v) := by
    simp [Story.next, hturn, hcompletes, bridge, hi, harmed]
  rw [State.next, hnext]
  generalize State.work P w rest top = s' at hresumes
  cases hresumes with
  | mk w' new size hb idle' =>
      refine ⟨?_, by simp [Story.resume], by simp [Story.resume, Story.callbacks, parks, resumed]⟩
      have hloop : (.eval (.loop ⟨c, stack, .bridge i⟩) (.ofOutcome (.ok v)) : Activation S σ) =
          (Point.node (.pure v)).activation ⟨c, stack, .bridge i⟩ := rfl
      rw [hloop]
      refine .mk ?_ connection rfl
      simp [Story.takesTurn, Story.resume, bridge]

/-- A run that waits for a task waits on, as long as the task is not run. -/
theorem Tracks.waits_or_task {P : Program S σ} {r : Origin S} {s : State S σ} {st : Story S}
    (h : Tracks P r s st) (tends : Tends P r s st) {context : Context S.Executor} {b : Body S}
    {c : Connection} (hq : st.pending = some (.deferred context b c)) (hlost : st.lost = false)
    {p : Park S} (hp : st.parks.getLast? = some p) :
    st.next r.depth s = st ∨
      ∃ w rest, s = .running w (.owing p.callback (P.bodyWith b p.callback)) rest := by
  obtain ⟨-, i, stack, c, earlier, idle, holds, bridge, parks, resumed⟩ :=
    h.waiting hq trivial hlost
  rw [parks, List.getLast?_concat, Option.some.injEq] at hp
  subst hp
  cases s with
  | returned w => exact .inl rfl
  | unwound w payload => exact .inl rfl
  | running w top rest =>
      have htop : top.Idle i := idle top (by simp)
      have hturn : st.takesTurn r.depth top rest = false := Story.takesTurn_of_bridge bridge htop
      cases hc : top.completion? w with
      | none => exact .inl (by simp [Story.next, hturn, hc])
      | some completion =>
          obtain ⟨cb, o⟩ := completion
          by_cases harmed : st.bridge = some cb.bridge ∧ w.isArmed cb = true
          · have hlast := (h.armed_iff harmed.1).mp harmed.2
            obtain ⟨context', b', c', hpending, rfl⟩ := tends.tasks _ _ _ _ _ rfl hc hlast
            cases hq.symm.trans hpending
            rw [resumed, Story.callbacks, parks, List.map_append,
              List.append_cancel_left_eq] at hlast
            cases hlast
            exact .inr ⟨w, rest, rfl⟩
          · exact .inl (by simp only [Story.next, hturn, hc, harmed, if_false]; rfl)

end Trampoline
