import Trampoline.Proofs.Recovery.Stories

/-!
# Both sides of a law of recovery come in step again

A failure that comes to the frames of a law goes to other handlers on the left than on the right,
and one side takes a few steps more than the other until both are in front of the same node with
the same frames.  All that can be told of these steps is that they call for the handlers of which
the law speaks.

Main definitions and results:

- Definition `RecoveryLaw.Same`: what can be told of the two sides.
- Definition `RecoveryLaw.Rejoins`: some steps of one side alone, then one of both, and they are in
  step.
- Definition `Silently`, theorem `Silently.chain`: steps of which nothing can be told.
- Theorems `RecoveryLaw.Beside.rethrows`, `RecoveryLaw.Beside.nests`: a failure has come to the
  frames of a law.
- Theorem `RecoveryLaw.InStep.rejoins`: both sides stay in step.
- Theorem `RecoveryLaw.Beside.starts`: both sides of a law come in step.
-/

namespace Trampoline

variable {S : Closures} {σ : Type} {P : Program S σ} {law : RecoveryLaw P} {E : σ → σ → Prop}
  {depth : Nat}

/-! ## What can be told of the two sides -/

/-- The two sides of a law of recovery cannot be told apart: the run has called for the same, has
delivered the same and has been lost or not, and the host, the connections and the end of the
machine are the same. -/
structure RecoveryLaw.Same (law : RecoveryLaw P) (E : σ → σ → Prop) (x y : State S σ × Story S) :
    Prop where
  called : law.Calls x.2.called y.2.called
  outcomes : x.2.outcomes = y.2.outcomes
  lost : x.2.lost = y.2.lost
  host : E x.1.world.host y.1.world.host
  connections : x.1.world.connections = y.1.world.connections
  result : x.1.result? = y.1.result?

/-- Either side may take a few steps alone, after which the two cannot be told apart; then both
take one, and they are in step. -/
inductive RecoveryLaw.Rejoins (law : RecoveryLaw P) (E : σ → σ → Prop) (depth : Nat) :
    State S σ × Story S → State S σ × Story S → Prop
  | both {x y : State S σ × Story S} (same : law.Same E x y)
      (h : law.InStep E (follow P depth x) (follow P depth y)) : RecoveryLaw.Rejoins law E depth x y
  | left {x y : State S σ × Story S} (same : law.Same E x y)
      (h : RecoveryLaw.Rejoins law E depth (follow P depth x) y) :
      RecoveryLaw.Rejoins law E depth x y
  | right {x y : State S σ × Story S} (same : law.Same E x y)
      (h : RecoveryLaw.Rejoins law E depth x (follow P depth y)) :
      RecoveryLaw.Rejoins law E depth x y

/-- Both sides have come to the same end, or neither has. -/
theorem State.SameUpToRecovery.result?_eq {s s' : State S σ}
    (h : State.SameUpToRecovery law E s s') : s.result? = s'.result? := by
  cases h <;> rfl

namespace RecoveryLaw

variable {x y : State S σ × Story S}

/-- Sides that are in step cannot be told apart. -/
theorem InStep.same (h : law.InStep E x y) : law.Same E x y :=
  ⟨h.story.called, h.story.outcomes, h.story.lost, h.state.world.host, h.state.world.connections,
    h.state.result?_eq⟩

/-- Sides that will be in step cannot be told apart now. -/
theorem Rejoins.same (h : law.Rejoins E depth x y) : law.Same E x y := by
  cases h with
  | both same h => exact same
  | left same h => exact same
  | right same h => exact same

end RecoveryLaw

/-! ## Steps of which nothing can be told -/

/-- The same is known of a run, the world is the same, and so is the end of the machine. -/
structure Unseen (x y : State S σ × Story S) : Prop where
  called : x.2.called = y.2.called
  outcomes : x.2.outcomes = y.2.outcomes
  lost : x.2.lost = y.2.lost
  world : x.1.world = y.1.world
  result : x.1.result? = y.1.result?

/-- Some steps of which nothing can be told. -/
inductive Silently (P : Program S σ) (depth : Nat) :
    State S σ × Story S → State S σ × Story S → Prop
  | refl (x : State S σ × Story S) : Silently P depth x x
  | step {x y : State S σ × Story S} (unseen : Unseen x (follow P depth x))
      (h : Silently P depth (follow P depth x) y) : Silently P depth x y

/-- Silent steps in a row. -/
theorem Silently.trans {x y z : State S σ × Story S} (h : Silently P depth x y)
    (h' : Silently P depth y z) : Silently P depth x z := by
  induction h with
  | refl x => exact h'
  | step unseen h ih => exact .step unseen (ih h')

/-- One step of which nothing can be told. -/
theorem Silently.of_follow {x y : State S σ × Story S} (h : follow P depth x = y)
    (unseen : Unseen x y) : Silently P depth x y := by
  subst h
  exact .step unseen (.refl _)

namespace RecoveryLaw

variable {x x' y y' : State S σ × Story S}

/-- The left side may take silent steps before. -/
theorem Rejoins.silently_left (h : law.Rejoins E depth x' y) (hx : Silently P depth x x') :
    law.Rejoins E depth x y := by
  induction hx with
  | refl x => exact h
  | step unseen _ ih =>
      obtain ⟨called, outcomes, lost, host, connections, result⟩ := (ih h).same
      exact .left ⟨unseen.called ▸ called, unseen.outcomes ▸ outcomes, unseen.lost ▸ lost,
        unseen.world ▸ host, unseen.world ▸ connections, unseen.result ▸ result⟩ (ih h)

/-- The right side may take silent steps before. -/
theorem Rejoins.silently_right (h : law.Rejoins E depth x y') (hy : Silently P depth y y') :
    law.Rejoins E depth x y := by
  induction hy with
  | refl y => exact h
  | step unseen _ ih =>
      obtain ⟨called, outcomes, lost, host, connections, result⟩ := (ih h).same
      exact .right ⟨unseen.called ▸ called, unseen.outcomes ▸ outcomes, unseen.lost ▸ lost,
        unseen.world ▸ host, unseen.world ▸ connections, unseen.result ▸ result⟩ (ih h)

end RecoveryLaw

/-! ## Steps of loops -/

/-- What a step adds to the story of a run, if it is a turn of the run. -/
def Story.told (st : Story S) (mine : Bool) (f : Story S → Story S) : Story S :=
  bif mine then f st else st

/-- The run calls for code, if it is a turn of the run. -/
def Story.calling (st : Story S) (mine : Bool) (c : Connection) (q : Question S) : Story S :=
  st.told mine fun st => (st.look c false).ask (some q)

/-- The code has come back. -/
def Story.calledBack (st : Story S) (mine : Bool) (c : Connection) (q : Question S)
    (reply : Reply S) : Story S :=
  (st.calling mine c q).told mine (·.answer reply)

section

variable {w : World S σ} {rest : List (Activation S σ)} {st : Story S} {run : Loop S}

/-- A step of a loop that completes no callback. -/
theorem follow_loop {top : Activation S σ} {s : State S σ} {f : Story S → Story S} {mine : Bool}
    (hloop : top.loop? = some run) (hno : top.completion? w = none)
    (hmine : mine = true ↔ (st.seat depth).mine rest.length run.outlet)
    (hstep : ∀ st : Story S, (State.work P w rest top, st.turn w top) = (s, f st)) :
    follow P depth (.running w top rest, st) = (s, st.told mine f) := by
  cases mine with
  | true => exact (follow_turn P hloop (hmine.mp rfl)).trans (hstep st)
  | false =>
      -- no turn and no completion: the step is none of the run's business
      have hturn : st.takesTurn depth top rest = false := by
        rw [Bool.eq_false_iff]
        intro hturn
        obtain ⟨run', hloop', hmine'⟩ := Story.takesTurn_iff.mp hturn
        cases hloop.symm.trans hloop'
        exact Bool.false_ne_true (hmine.mpr hmine')
      have hwork : State.work P w rest top = s := congrArg Prod.fst (hstep st)
      simp [follow, State.next, Story.next, Story.told, hturn, hno, hwork]

/-- A loop that goes on with a node completes nothing. -/
theorem Activation.completion?_of_goes {node : Effect S}
    (hc : w.connections.isCanceled run.connection = false) (hfail : ∀ e, node ≠ .fail e) :
    (.eval (.loop run) node : Activation S σ).completion? w = none := by
  have hexit : (.eval (.loop run) node : Activation S σ).exit? w = none := by
    cases node with
    | fail e => exact absurd rfl (hfail e)
    | _ => simp [exit?, hc]
  rw [completion?_eval, hexit]
  rfl

variable {mine : Bool} (hmine : mine = true ↔ (st.seat depth).mine rest.length run.outlet)

include hmine

/-- Code comes back with a node. -/
theorem follow_returns (e : Effect S) :
    follow P depth (.running w (.node (.loop run) (.done e)) rest, st) =
      (.running w (.eval (.loop run) e) rest, st.told mine (·.answer (.node (.ok e)))) :=
  follow_loop rfl rfl hmine fun _ => rfl

variable (hc : w.connections.isCanceled run.connection = false)

include hc

/-- A loop in front of a sequence pushes the frame. -/
theorem follow_pushes (source : Effect S) (frame : Frame S) :
    follow P depth (.running w (.eval (.loop run) (.bind source frame)) rest, st) =
      (.running w (.eval (.loop { run with stack := run.stack.push frame }) source) rest,
        st.told mine (·.look run.connection false)) :=
  follow_loop rfl (Activation.completion?_of_goes hc nofun) hmine fun _ =>
    State.eval_bind P hc source frame

/-- A loop in front of a map pushes a frame. -/
theorem follow_maps (source : Effect S) (f : S.Map) :
    follow P depth (.running w (.eval (.loop run) (.map source f)) rest, st) =
      (.running w (.eval (.loop { run with stack := run.stack.push (.map f) }) source) rest,
        st.told mine (·.look run.connection false)) :=
  follow_loop rfl (Activation.completion?_of_goes hc nofun) hmine fun _ =>
    State.eval_map P hc source f

/-- A loop in front of a move to a context has a sequence before it. -/
theorem follow_shifts (context : Context S.Executor) (source : Effect S) :
    follow P depth (.running w (.eval (.loop run) (.continueOn context source)) rest, st) =
      (.running w (.eval (.loop run) (.bind source (.bind (.shift context)))) rest,
        st.told mine (·.look run.connection false)) :=
  follow_loop rfl (Activation.completion?_of_goes hc nofun) hmine fun st => by
    simp [State.work, State.eval, Story.turn, Story.meet, State.reduce, hc]

/-- A loop in front of a thunk calls for it. -/
theorem follow_suspends (k : S.Thunk) :
    follow P depth (.running w (.eval (.loop run) (.suspend k)) rest, st) =
      (.running w (.node (.loop run) (P.thunk k)) rest,
        st.calling mine run.connection (.thunk k)) :=
  follow_loop rfl (Activation.completion?_of_goes hc nofun) hmine fun _ =>
    State.eval_suspend P hc k

/-- A loop in front of a failure calls for the handler that it finds. -/
theorem follow_handles {e : Failure} {h : S.Handler} {below : CallStack (Frame S)}
    (htake : run.stack.takeFor (.error e) = (some (.handle (.user h)), below)) :
    follow P depth (.running w (.eval (.loop run) (.fail e)) rest, st) =
      (.running w (.node (.loop { run with stack := below }) (P.handler h e)) rest,
        st.calling mine run.connection (.handler h e)) := by
  refine follow_loop rfl ?_ hmine fun st => ?_
  · have hfind : run.stack.findErrorHandler = (some (.handle (.user h)), below) := htake
    have hexit : (.eval (.loop run) (.fail e) : Activation S σ).exit? w = none := by
      simp [Activation.exit?, hc, hfind]
    rw [Activation.completion?_eval, hexit]
    rfl
  · simp [State.work, State.eval, State.reduce_fail_eq_leave, State.leave, Story.turn, Story.meet,
      Story.leave, hc, htake, Program.resolve, Program.recover, Program.recoverWith,
      Frame.question?, Recovery.question?]

end

/-! ### Chains -/

/-- What is known of a run that has done nothing but look at its connection. -/
inductive Story.Looks (st : Story S) : Story S → Prop
  | refl : Story.Looks st st
  | look {st₁ : Story S} (h : Story.Looks st st₁) (c : Connection) (b : Bool) :
      Story.Looks st (st₁.look c b)

namespace Story.Looks

variable {st st₁ st' : Story S}

/-- A look at the connection, if it is told of this run. -/
theorem told (h : Story.Looks st st₁) (mine : Bool) (c : Connection) (b : Bool) :
    Story.Looks st (st₁.told mine (·.look c b)) := by
  cases mine with
  | true => exact h.look c b
  | false => exact h

/-- Looks in a row. -/
theorem trans {st₂ : Story S} (h : Story.Looks st st₁) (h' : Story.Looks st₁ st₂) :
    Story.Looks st st₂ := by
  induction h' with
  | refl => exact h
  | look _ c b ih => exact ih.look c b

/-- A look does not change the seat of a run. -/
theorem seat_eq (h : Story.Looks st st₁) (depth : Nat) : st₁.seat depth = st.seat depth := by
  induction h with
  | refl => rfl
  | look h c b ih => exact ih

/-- A look does not answer a question. -/
theorem pending_eq (h : Story.Looks st st₁) : st₁.pending = st.pending := by
  induction h with
  | refl => rfl
  | look h c b ih => exact ih

/-- The run on the left may have looked at its connection more often. -/
theorem sameUpToRecovery_left (h : Story.Looks st st₁) (hst : Story.SameUpToRecovery law st st') :
    Story.SameUpToRecovery law st₁ st' := by
  induction h with
  | refl => exact hst
  | look h c b ih => exact ih.look_left c b

/-- The run on the right may have looked at its connection more often. -/
theorem sameUpToRecovery_right (h : Story.Looks st st₁) (hst : Story.SameUpToRecovery law st' st) :
    Story.SameUpToRecovery law st' st₁ := by
  induction h with
  | refl => exact hst
  | look h c b ih => exact ih.look_right c b

end Story.Looks

/-- Nothing can be told of a look. -/
theorem Silently.look {x : State S σ × Story S} {w : World S σ} {rest : List (Activation S σ)}
    {top : Activation S σ} {mine : Bool} {c : Connection} {b : Bool}
    (h : follow P depth x = (.running w top rest, x.2.told mine (·.look c b)))
    (hworld : x.1.world = w) (hresult : x.1.result? = none) :
    Silently P depth x (.running w top rest, x.2.told mine (·.look c b)) := by
  refine .of_follow h ?_
  cases mine with
  | true => exact ⟨by simp [Story.told, Story.called, Story.calls, Story.look, callsOf,
      Question.isCall], rfl, rfl, hworld, hresult⟩
  | false => exact ⟨rfl, rfl, rfl, hworld, hresult⟩

section

variable {w : World S σ} {rest : List (Activation S σ)} {st : Story S} (run : Loop S) {mine : Bool}
  (hmine : mine = true ↔ (st.seat depth).mine rest.length run.outlet)
  (hc : w.connections.isCanceled run.connection = false)

include hmine hc

/-- A loop in front of a link has its frame after one look, or two. -/
theorem Silently.link (e : Effect S) (l : Link S) :
    ∃ st₁ stack, Silently P depth (.running w (.eval (.loop run) (e.link l)) rest, st)
      (.running w (.eval (.loop { run with stack := stack }) e) rest, st₁) ∧
      stack.toList = l.frame :: run.stack.toList ∧ Story.Looks st st₁ := by
  have hpush : ∀ {st₁} (frame : Frame S),
      (mine = true ↔ (st₁.seat depth).mine rest.length run.outlet) →
      Silently P depth (.running w (.eval (.loop run) (.bind e frame)) rest, st₁)
        (.running w (.eval (.loop { run with stack := run.stack.push frame }) e) rest,
          st₁.told mine (·.look run.connection false)) := fun frame hm =>
    .look (follow_pushes hm hc e frame) rfl rfl
  cases l with
  | map f =>
      exact ⟨_, _, .look (follow_maps hmine hc e f) rfl rfl, by simp [Link.frame],
        Story.Looks.refl.told _ _ _⟩
  | continueOn context =>
      have hlooks : Story.Looks st (st.told mine (·.look run.connection false)) :=
        Story.Looks.refl.told _ _ _
      have hm := hmine
      rw [← hlooks.seat_eq depth] at hm
      refine ⟨_, _, (Silently.look (follow_shifts hmine hc context e) rfl rfl).trans (hpush _ hm),
        by simp [Link.frame], hlooks.told _ _ _⟩
  | _ => exact ⟨_, _, hpush _ hmine, by simp [Link.frame], Story.Looks.refl.told _ _ _⟩

/-- A loop in front of a chain has the frames of its links after some looks. -/
theorem Silently.chain (e : Effect S) (links : List (Link S)) :
    ∃ st₁ stack, Silently P depth (.running w (.eval (.loop run) (e.chain links)) rest, st)
      (.running w (.eval (.loop { run with stack := stack }) e) rest, st₁) ∧
      stack.toList = links.map Link.frame ++ run.stack.toList ∧ Story.Looks st st₁ := by
  induction links generalizing e with
  | nil => exact ⟨st, run.stack, .refl _, rfl, .refl⟩
  | cons l links ih =>
      obtain ⟨st₁, stack, hchain, hstack, hlooks⟩ := ih (e.link l)
      have hm := hmine
      rw [← hlooks.seat_eq depth] at hm
      obtain ⟨st₂, stack₂, hlink, hstack₂, hlooks₂⟩ :=
        Silently.link { run with stack := stack } hm hc e l
      refine ⟨st₂, stack₂, hchain.trans hlink, ?_, hlooks.trans hlooks₂⟩
      rw [hstack₂, hstack, List.map_cons, List.cons_append]

end

/-! ## A failure at the frames of a law -/

namespace Story

variable (st : Story S) (depth : Nat) (mine : Bool) (c : Connection) (q : Question S)

/-- A call does not change the seat of a run. -/
theorem seat_calling : (st.calling mine c q).seat depth = st.seat depth := by
  cases mine <;> rfl

/-- The end of a call does not change the seat of a run. -/
theorem seat_calledBack (reply : Reply S) :
    (st.calledBack mine c q reply).seat depth = st.seat depth := by
  cases mine <;> rfl

end Story

namespace Story.SameUpToRecovery

variable {st st' : Story S} {mine : Bool}

/-- Both runs have the same seat. -/
theorem seat_eq (h : Story.SameUpToRecovery law st st') (depth : Nat) :
    st.seat depth = st'.seat depth := by
  unfold Story.seat
  rw [h.bridge, h.outcomes, h.lost]

/-- Both sides call for code that means the same. -/
theorem calling (h : Story.SameUpToRecovery law st st') (c c' : Connection) {q q' : Question S}
    (hq : law.Like q q') :
    Story.SameUpToRecovery law (st.calling mine c q) (st'.calling mine c' q') := by
  cases mine with
  | true => exact ((h.look_left c false).look_right c' false).ask (.some hq)
  | false => exact h

/-- A handler that fails again has been called on the left. -/
theorem rethrows {k : S.Handler} {hk : ∀ e, P.handler k e = .done (.fail e)}
    (h : Story.SameUpToRecovery (.rethrown k hk) st st')
    (hpending : mine = true → st.pending = none) (c : Connection) (e : Failure) (reply : Reply S) :
    Story.SameUpToRecovery (.rethrown k hk) (st.calledBack mine c (.handler k e) reply) st' := by
  cases mine with
  | false => exact h
  | true =>
      refine ⟨h.bridge, ?_, ?_, h.outcomes, h.lost⟩
      · have hcalls := RecoveryLaw.Calls.rethrown h.exchanges e
        have hcall : (Question.handler k e).isCall (fun _ => none) = true := rfl
        have hlook : (Question.canceled c : Question S).isCall (fun _ => none) = false := rfl
        simpa [Story.calledBack, Story.calling, Story.told, Story.answer, Story.ask, Story.look,
          calledIn, callsOf, hcall, hlook] using hcalls
      · rw [h.pending_right (hpending rfl)]
        exact .none

/-- A handler that puts two others together has been called on the right. -/
theorem nests {h₁ h₂ k : S.Handler} {t : Failure → S.Thunk}
    {thunk : ∀ e, P.thunk (t e) = P.handler h₁ e}
    {handler : ∀ e, P.handler k e = .done ((Effect.suspend (t e)).handleErrorWith h₂)}
    (h : Story.SameUpToRecovery (.nested h₁ h₂ k t thunk handler) st st')
    (hpending : mine = true → st.pending = none) (c : Connection) (e : Failure) (reply : Reply S) :
    Story.SameUpToRecovery (.nested h₁ h₂ k t thunk handler) st
      (st'.calledBack mine c (.handler k e) reply) := by
  cases mine with
  | false => exact h
  | true =>
      refine ⟨h.bridge, ?_, ?_, h.outcomes, h.lost⟩
      · have hcalls := RecoveryLaw.Calls.nested h.exchanges e
        have hcall : (Question.handler k e).isCall (fun _ => none) = true := rfl
        have hlook : (Question.canceled c : Question S).isCall (fun _ => none) = false := rfl
        simpa [Story.calledBack, Story.calling, Story.told, Story.answer, Story.ask, Story.look,
          calledIn, callsOf, hcall, hlook] using hcalls
      · rw [hpending rfl]
        exact .none

end Story.SameUpToRecovery

/-- A loop has the next step on both sides, and it is a turn of the run or not. -/
structure RecoveryLaw.Beside (law : RecoveryLaw P) (E : σ → σ → Prop) (depth : Nat) (mine : Bool)
    (w : World S σ) (rest : List (Activation S σ)) (st : Story S) (run : Loop S) (w' : World S σ)
    (rest' : List (Activation S σ)) (st' : Story S) (run' : Loop S) : Prop where
  world : World.SameUpToRecovery law E w w'
  waiting : List.Forall₂ (Activation.SameUpToRecovery law E) rest rest'
  story : Story.SameUpToRecovery law st st'
  connection : run.connection = run'.connection
  outlet : run.outlet = run'.outlet
  turn : mine = true ↔ (st.seat depth).mine rest.length run.outlet

/-- Nothing can be told of what code comes back with. -/
theorem Silently.returns {w : World S σ} {rest : List (Activation S σ)} {st : Story S}
    (run : Loop S) {mine : Bool} (hmine : mine = true ↔ (st.seat depth).mine rest.length run.outlet)
    (e : Effect S) :
    Silently P depth (.running w (.node (.loop run) (.done e)) rest, st)
      (.running w (.eval (.loop run) e) rest, st.told mine (·.answer (.node (.ok e)))) := by
  refine .of_follow (follow_returns hmine e) ?_
  cases mine with
  | true =>
      obtain ⟨hcalled, houtcomes, hlost⟩ := st.answer_same (.node (.ok e))
      exact ⟨hcalled.symm, houtcomes.symm, hlost.symm, rfl, rfl⟩
  | false => exact ⟨rfl, rfl, rfl, rfl, rfl⟩

namespace RecoveryLaw.Beside

section

variable {mine : Bool} {w w' : World S σ} {rest rest' : List (Activation S σ)}
  {st st' : Story S} {run run' : Loop S}
  (h : law.Beside E depth mine w rest st run w' rest' st' run')

include h

/-- Nothing can be told of the two sides, whatever is on top. -/
theorem same (top top' : Activation S σ) :
    law.Same E (.running w top rest, st) (.running w' top' rest', st') :=
  ⟨h.story.called, h.story.outcomes, h.story.lost, h.world.host, h.world.connections, rfl⟩

/-- It is the turn of the run on the right as of the one on the left. -/
theorem turn_right : mine = true ↔ (st'.seat depth).mine rest'.length run'.outlet := by
  rw [h.turn, h.story.seat_eq, h.waiting.length_eq, h.outlet]

/-- Both runs find their connection canceled or open alike. -/
theorem isCanceled_right :
    w'.connections.isCanceled run'.connection = w.connections.isCanceled run.connection := by
  rw [h.connection, h.world.connections]

/-- Both loops may have other frames, and the stories may have gone on. -/
theorem goes {st₁ st₁' : Story S} (hst : Story.SameUpToRecovery law st₁ st₁')
    (hseat : st₁.seat depth = st.seat depth) (stack stack' : CallStack (Frame S)) :
    law.Beside E depth mine w rest st₁ { run with stack := stack } w' rest' st₁'
      { run' with stack := stack' } :=
  ⟨h.world, h.waiting, hst, h.connection, h.outlet, hseat ▸ h.turn⟩

variable (hP : P.Discreet E)

include hP

/-- On a connection that has been canceled both loops end, whatever nodes they are in front of. -/
theorem abandons (hc : w.connections.isCanceled run.connection = true) (node node' : Effect S) :
    law.Rejoins E depth (.running w (.eval (.loop run) node) rest, st)
      (.running w' (.eval (.loop run') node') rest', st') :=
  .both (h.same _ _)
    ((Ready.abandons h.connection h.outlet hc node node').follow hP h.world h.waiting h.story depth)

variable (hc : w.connections.isCanceled run.connection = false) {e : Failure}

include hc

/-- The same frames await the failure. -/
theorem fails
    (hawait : awaiting (.error e) run.stack.toList = awaiting (.error e) run'.stack.toList) :
    law.Rejoins E depth (.running w (.eval (.loop run) (.fail e)) rest, st)
      (.running w' (.eval (.loop run') (.fail e)) rest', st') := by
  have hfinds : Finds law.Stacks (run.stack.takeFor (.error e)) (run'.stack.takeFor (.error e)) :=
    (finds_of_awaiting_eq hawait).mono fun _ _ hs => .inl hs
  exact .both (h.same _ _)
    ((Ready.fails h.connection h.outlet hc hfinds).follow hP h.world h.waiting h.story depth)

/-- The failure has come to a handler on the left, and the right loop is in front of a thunk that
does what the handler does. -/
theorem throws {k : S.Handler} {t : S.Thunk}
    (hleft : awaiting (.error e) run.stack.toList = .handle (.user k) :: run'.stack.toList)
    (hthunk : P.thunk t = P.handler k e) (hlike : law.Like (.handler k e) (.thunk t)) :
    law.Rejoins E depth (.running w (.eval (.loop run) (.fail e)) rest, st)
      (.running w' (.eval (.loop run') (.suspend t)) rest', st') := by
  obtain ⟨below, htake, hbelow⟩ := CallStack.takeFor_of_awaiting hleft
  have hc' := h.isCanceled_right.trans hc
  refine .both (h.same _ _) ?_
  rw [follow_handles h.turn hc htake, follow_suspends h.turn_right hc' t]
  have hloop : Loop.SameUpToRecovery law { run with stack := below } run' :=
    ⟨h.connection, h.outlet, .inl hbelow⟩
  have alike : (P.handler k e).Alike E Eq (P.thunk t) := hthunk ▸ hP.handler k e
  refine ⟨.running h.world (.holds (.node (.loop hloop)) alike) h.waiting, ?_⟩
  exact h.story.calling run.connection run'.connection hlike

end

section

variable {mine : Bool} {w w' : World S σ} {rest rest' : List (Activation S σ)}
  {st st' : Story S} {run run' : Loop S} (hP : P.Discreet E)
  (hpending : mine = true → st.pending = none)
  (hc : w.connections.isCanceled run.connection = false) {e : Failure} {frames : List (Frame S)}

include hP hpending hc

/-- The failure has come to a handler that only fails again.  It is called, and then the left loop
is in front of the failure once more. -/
theorem rethrows {k : S.Handler} {hk : ∀ e, P.handler k e = .done (.fail e)}
    (h : (RecoveryLaw.rethrown k hk).Beside E depth mine w rest st run w' rest' st' run')
    (hleft : awaiting (.error e) run.stack.toList = .handle (.user k) :: frames)
    (hright : awaiting (.error e) run'.stack.toList = awaiting (.error e) frames) :
    (RecoveryLaw.rethrown k hk).Rejoins E depth (.running w (.eval (.loop run) (.fail e)) rest, st)
      (.running w' (.eval (.loop run') (.fail e)) rest', st') := by
  obtain ⟨below, htake, hbelow⟩ := CallStack.takeFor_of_awaiting hleft
  refine .left (h.same _ _) ?_
  rw [follow_handles h.turn hc htake, hk]
  have hcalled := st.seat_calling depth mine run.connection (.handler k e) ▸ h.turn
  -- the handler comes back with the failure, for which both loops now find the same
  refine Rejoins.silently_left ?_ (.returns { run with stack := below } hcalled (.fail e))
  exact (h.goes (h.story.rethrows hpending run.connection e _)
    (st.seat_calledBack depth mine run.connection _ _) below run'.stack).fails hP hc
      (hbelow ▸ hright.symm)

/-- The failure has come to two handlers on the left, and on the right to one that puts them
together.  That one is called, and then the right loop has the second handler below a thunk that
does what the first does. -/
theorem nests {h₁ h₂ k : S.Handler} {t : Failure → S.Thunk}
    {thunk : ∀ e, P.thunk (t e) = P.handler h₁ e}
    {handler : ∀ e, P.handler k e = .done ((Effect.suspend (t e)).handleErrorWith h₂)}
    (h : (RecoveryLaw.nested h₁ h₂ k t thunk handler).Beside E depth mine w rest st run w' rest' st'
      run')
    (hleft : awaiting (.error e) run.stack.toList =
      .handle (.user h₁) :: .handle (.user h₂) :: frames)
    (hright : awaiting (.error e) run'.stack.toList = .handle (.user k) :: frames) :
    (RecoveryLaw.nested h₁ h₂ k t thunk handler).Rejoins E depth
      (.running w (.eval (.loop run) (.fail e)) rest, st)
      (.running w' (.eval (.loop run') (.fail e)) rest', st') := by
  obtain ⟨below, htake, hbelow⟩ := CallStack.takeFor_of_awaiting hright
  have hc' := h.isCanceled_right.trans hc
  refine .right (h.same _ _) ?_
  rw [follow_handles h.turn_right hc' htake, handler]
  have hcalled := st'.seat_calling depth mine run'.connection (.handler k e) ▸ h.turn_right
  -- the right loop takes apart what the handler comes back with, and looks at the same connection
  have hreturns := Silently.returns (P := P) (w := w') { run' with stack := below } hcalled
    ((Effect.suspend (t e)).handleErrorWith h₂)
  have hstory := h.story.nests hpending run'.connection e
    (.node (.ok ((Effect.suspend (t e)).handleErrorWith h₂)))
  have hback := h.goes hstory rfl run.stack below
  have hpushes := follow_pushes (P := P) hback.turn_right hc' (.suspend (t e)) (.handle (.user h₂))
  refine Rejoins.silently_right ?_ (hreturns.trans (.look hpushes rfl rfl))
  refine (hback.goes ((Story.Looks.refl.told mine _ _).sameUpToRecovery_right hstory) rfl
    run.stack _).throws hP hc ?_ (thunk e) (.nested e)
  -- below the first handler on the left stands what is below the thunk on the right
  rw [hleft, CallStack.toList_push, hbelow]

/-- The failure has come to the frames of a law. -/
theorem at_frames (h : law.Beside E depth mine w rest st run w' rest' st' run')
    (hleft : awaiting (.error e) run.stack.toList = awaiting (.error e) (law.leftFrames ++ frames))
    (hright : awaiting (.error e) run'.stack.toList =
      awaiting (.error e) (law.rightFrames ++ frames)) :
    law.Rejoins E depth (.running w (.eval (.loop run) (.fail e)) rest, st)
      (.running w' (.eval (.loop run') (.fail e)) rest', st') := by
  cases law with
  | nested h₁ h₂ k t thunk handler =>
      exact h.nests hP hpending hc (hleft.trans (awaiting_cons_of_takes rfl _))
        (hright.trans (awaiting_cons_of_takes rfl _))
  | rethrown k hk =>
      exact h.rethrows hP hpending hc (hleft.trans (awaiting_cons_of_takes rfl _)) hright
  | _ => exact h.fails hP hc (hleft.trans hright.symm)

end

end RecoveryLaw.Beside

/-! ## Every step -/

/-- Activations on both sides are ready, or a failure has come to the frames of the law. -/
theorem Activation.SameUpToRecovery.ready_cases {w : World S σ} {top top' : Activation S σ}
    (h : Activation.SameUpToRecovery law E top top') :
    law.Ready E w top top' ∨ ∃ (run run' : Loop S) (e : Failure) (frames : List (Frame S)),
      top = .eval (.loop run) (.fail e) ∧ top' = .eval (.loop run') (.fail e) ∧
      run.SameUpToRecovery law run' ∧ w.connections.isCanceled run.connection = false ∧
      awaiting (.error e) run.stack.toList = awaiting (.error e) (law.leftFrames ++ frames) ∧
      awaiting (.error e) run'.stack.toList =
        awaiting (.error e) (law.rightFrames ++ frames) := by
  cases h with
  | @eval d d' hd node =>
      cases hd with
      | partially stack hresume =>
          exact .inl (.works (.eval (.partially stack hresume) node) fun _ _ => nofun)
      | @loop run run' hrun =>
        cases hc : w.connections.isCanceled run.connection with
        | true => exact .inl (.abandons hrun.connection hrun.outlet hc _ _)
        | false =>
            by_cases hfail : ∃ e, node = .fail e
            · obtain ⟨e, rfl⟩ := hfail
              rcases hrun.stack.finds (.error e) with hfinds | ⟨e', frames, he, hleft, hright⟩
              · exact .inl (.fails hrun.connection hrun.outlet hc hfinds)
              · cases he
                exact .inr ⟨run, run', e, frames, rfl, rfl, hrun, hc, hleft, hright⟩
            · exact .inl (.meets hrun hc fun e he => hfail ⟨e, he⟩)
  | value hd v => exact .inl (.works (.value hd v) fun _ _ => nofun)
  | holds holder alike =>
      refine .inl (.works (.holds holder alike) fun run node htop => ?_)
      cases holder <;> cases htop
  | tokens pending => exact .inl (.works (.tokens pending) fun _ _ => nofun)
  | thread outer => exact .inl (.works (.thread outer) fun _ _ => nofun)

/-- A loop in front of a node has the turn if it is a loop of the run. -/
theorem Story.takesTurn_eval_iff {st : Story S} {run : Loop S} {node : Effect S}
    {rest : List (Activation S σ)} :
    st.takesTurn depth (.eval (.loop run) node : Activation S σ) rest = true ↔
      (st.seat depth).mine rest.length run.outlet := by
  simp [Story.takesTurn_iff, Activation.loop?]

/-- A run whose loop has the turn in front of a node waits for no answer. -/
def Story.Unasked (st : Story S) (depth : Nat) (s : State S σ) : Prop :=
  ∀ w run node rest, s = .running w (.eval (.loop run) node) rest →
    st.takesTurn depth (.eval (.loop run) node : Activation S σ) rest = true → st.pending = none

namespace RecoveryLaw

/-- Both sides stay in step. -/
theorem InStep.rejoins {x y : State S σ × Story S} (hP : P.Discreet E) (h : law.InStep E x y)
    (hunasked : x.2.Unasked depth x.1) : law.Rejoins E depth x y := by
  obtain ⟨s, st⟩ := x
  obtain ⟨s', st'⟩ := y
  obtain ⟨hstate, hstory⟩ := id h
  cases hstate with
  | returned world => exact .both h.same h
  | unwound world payload => exact .both h.same h
  | @running w w' top top' rest rest' hw htop hrest =>
      rcases htop.ready_cases with hready | ⟨run, run', e, frames, rfl, rfl, hrun, hc,
        hleft, hright⟩
      · exact .both h.same (hready.follow hP hw hrest hstory depth)
      · have hbeside : law.Beside E depth (st.takesTurn depth (.eval (.loop run) (.fail e)) rest) w
            rest st run w' rest' st' run' :=
          ⟨hw, hrest, hstory, hrun.connection, hrun.outlet, Story.takesTurn_eval_iff⟩
        exact hbeside.at_frames hP (hunasked _ _ _ _ rfl) hc hleft hright

/-! ## The start -/

namespace Beside

variable {mine : Bool} {w w' : World S σ} {rest rest' : List (Activation S σ)}
  {st st' : Story S} {run run' : Loop S}

/-- Two loops in front of a node, where the frames of a law are swapped. -/
theorem swapped (h : law.Beside E depth mine w rest st run w' rest' st' run') (hP : P.Discreet E)
    (hpending : mine = true → st.pending = none)
    (hswaps : law.Swaps run.stack.toList run'.stack.toList) (m : Effect S) :
    law.Rejoins E depth (.running w (.eval (.loop run) m) rest, st)
      (.running w' (.eval (.loop run') m) rest', st') := by
  have hloop : run.SameUpToRecovery law run' := ⟨h.connection, h.outlet, .inr hswaps⟩
  have hstep : law.InStep E (.running w (.eval (.loop run) m) rest, st)
      (.running w' (.eval (.loop run') m) rest', st') :=
    ⟨.running h.world (.eval (.loop hloop) m) h.waiting, h.story⟩
  refine hstep.rejoins hP ?_
  rintro w₁ run₁ node rest₁ ⟨⟩ hturn
  exact hpending (h.turn.mpr (Story.takesTurn_eval_iff.mp hturn))

/-- Both loops are in front of chains, and go on with the frames of the links. -/
theorem chains (h : law.Beside E depth mine w rest st run w' rest' st' run')
    (hc : w.connections.isCanceled run.connection = false) {m m' : Effect S}
    (links links' : List (Link S))
    (hrejoins : ∀ (st₁ st₁' : Story S) (stack stack' : CallStack (Frame S)),
      law.Beside E depth mine w rest st₁ { run with stack := stack } w' rest' st₁'
        { run' with stack := stack' } → st₁.pending = st.pending →
      stack.toList = links.map Link.frame ++ run.stack.toList →
      stack'.toList = links'.map Link.frame ++ run'.stack.toList →
      law.Rejoins E depth (.running w (.eval (.loop { run with stack := stack }) m) rest, st₁)
        (.running w' (.eval (.loop { run' with stack := stack' }) m') rest', st₁')) :
    law.Rejoins E depth (.running w (.eval (.loop run) (m.chain links)) rest, st)
      (.running w' (.eval (.loop run') (m'.chain links')) rest', st') := by
  obtain ⟨st₁, stack, hleft, hstack, hlooks⟩ := Silently.chain (P := P) run h.turn hc m links
  obtain ⟨st₁', stack', hright, hstack', hlooks'⟩ :=
    Silently.chain (P := P) run' h.turn_right (h.isCanceled_right.trans hc) m' links'
  have hbeside := h.goes (hlooks'.sameUpToRecovery_right (hlooks.sameUpToRecovery_left h.story))
    (hlooks.seat_eq depth)
    stack stack'
  exact ((hrejoins st₁ st₁' stack stack' hbeside hlooks.pending_eq hstack
    hstack').silently_left hleft).silently_right hright

/-- Both sides of a law come in step. -/
theorem starts (h : law.Beside E depth mine w rest st run w' rest' st' run') (hP : P.Discreet E)
    (hpending : mine = true → st.pending = none)
    (hstack : law.Pending run.stack.toList run'.stack.toList) (m : Effect S) :
    law.Rejoins E depth (.running w (.eval (.loop run) (law.left m)) rest, st)
      (.running w' (.eval (.loop run') (law.right m)) rest', st') := by
  cases hc : w.connections.isCanceled run.connection with
  | true => exact h.abandons hP hc _ _
  | false =>
      cases law with
      | nested h₁ h₂ k t thunk handler =>
          refine h.chains hc [.handleErrorWith h₁, .handleErrorWith h₂] [.handleErrorWith k]
            fun st₁ st₁' stack stack' hbeside hsame hleft hright => ?_
          refine hbeside.swapped hP (hsame ▸ hpending) ?_ m
          rw [hleft, hright, ← hstack]
          exact .here run.stack.toList
      | rethrown k hk =>
          refine h.chains hc [.handleErrorWith k] []
            fun st₁ st₁' stack stack' hbeside hsame hleft hright => ?_
          refine hbeside.swapped hP (hsame ▸ hpending) ?_ m
          rw [hleft, hright, ← hstack]
          exact .here run.stack.toList
      | thrown e k t thunk =>
          refine h.chains hc [.handleErrorWith k] []
            fun st₁ st₁' stack stack' hbeside _ hleft hright => ?_
          refine hbeside.throws hP hc ?_ thunk (.thrown e k t thunk)
          rw [hleft, hright, ← hstack]
          exact awaiting_cons_of_takes rfl _
      | passed e above link below between =>
          refine h.chains hc (above ++ link :: below) (above ++ below)
            fun st₁ st₁' stack stack' hbeside _ hleft hright => ?_
          refine hbeside.fails hP hc ?_
          have hbetween : ∀ f ∈ link.frame :: above.map Link.frame, f.recovers = false := by
            simpa using between
          rw [hleft, hright, ← hstack, List.map_append, List.map_append, List.append_assoc,
            List.append_assoc]
          exact awaiting_between hbetween _
      | dropped e above frame between =>
          obtain ⟨frames, hleft, hright⟩ := hstack
          refine h.fails hP hc ?_
          rw [hleft, hright]
          exact awaiting_between between frames

end Beside

end RecoveryLaw

end Trampoline
