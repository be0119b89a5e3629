import Trampoline.Proofs.Laws.Turns

/-!
# Both sides come in step again

Where the closures of a law are at work, one side of it takes a few steps more than the other: it
looks at its connection, pushes a frame, or makes a node of a value only to take it apart again.
Nobody can tell from outside, and then both sides are in step again.

Main definitions and results:

- Definition `Law.Same`: what can be told of the two sides.
- Definition `Law.Rejoins`: some steps of one side alone, then one of both, and they are in step.
- Theorem `Law.AtTurn.catches_up`: the frame that the right side has only later.
- Theorem `Law.AtTurn.passes`: the closure that is called on the left alone.
- Theorem `Law.InStep.rejoins`: both sides stay in step.
- Theorem `Law.AtTurn.starts`: both sides of a law come in step.
-/

namespace Trampoline

variable {S : Closures} {σ : Type} {P : Program S σ} {law : Law P} {E : σ → σ → Prop}

/-! ## What can be told of the two sides -/

/-- How a machine has come to its end, if it has. -/
def State.result? : State S σ → Option (Except Payload Unit)
  | .running _ _ _ => none
  | .returned _ => some (.ok ())
  | .unwound _ payload => some (.error payload)

/-- The two sides of a law cannot be told apart: the run has called for the same, has delivered
the same and has been lost or not, and the host, the connections and the end of the machine are
the same. -/
structure Law.Same (law : Law P) (E : σ → σ → Prop) (x y : State S σ × Story S) : Prop where
  called : law.Calls x.2.called y.2.called
  outcomes : x.2.outcomes = y.2.outcomes
  lost : x.2.lost = y.2.lost
  host : E x.1.world.host y.1.world.host
  connections : x.1.world.connections = y.1.world.connections
  result : x.1.result? = y.1.result?

/-- One step of the machine, and what it adds to the story of a run. -/
def follow (P : Program S σ) (depth : Nat) (x : State S σ × Story S) : State S σ × Story S :=
  (x.1.next P, x.2.next depth x.1)

/-- Either side may take a few steps alone, of which nothing can be told; then both take one, and
they are in step. -/
inductive Law.Rejoins (law : Law P) (E : σ → σ → Prop) (depth : Nat) :
    State S σ × Story S → State S σ × Story S → Prop
  | both {x y : State S σ × Story S} (same : law.Same E x y)
      (h : law.InStep E depth (follow P depth x).1 (follow P depth x).2 (follow P depth y).1
        (follow P depth y).2) : Law.Rejoins law E depth x y
  | left {x y : State S σ × Story S} (same : law.Same E x y)
      (h : Law.Rejoins law E depth (follow P depth x) y) : Law.Rejoins law E depth x y
  | right {x y : State S σ × Story S} (same : law.Same E x y)
      (h : Law.Rejoins law E depth x (follow P depth y)) : Law.Rejoins law E depth x y

theorem State.SameUpTo.result?_eq {seat : Seat} {s s' : State S σ}
    (h : State.SameUpTo law E seat s s') : s.result? = s'.result? := by
  cases h <;> rfl

namespace Law

variable {depth : Nat}

/-- Sides that are in step cannot be told apart. -/
theorem InStep.same {s s' : State S σ} {st st' : Story S} (h : law.InStep E depth s st s' st') :
    law.Same E (s, st) (s', st') :=
  ⟨h.story.called, h.story.outcomes, h.story.lost, h.state.world.host,
    h.state.world.connections, h.state.result?_eq⟩

end Law

/-! ## Turns -/

/-- A turn of a run. -/
theorem follow_turn (P : Program S σ) {depth : Nat} {w : World S σ} {top : Activation S σ}
    {rest : List (Activation S σ)} {st : Story S} {run : Loop S} (hloop : top.loop? = some run)
    (hmine : (st.seat depth).mine rest.length run.outlet) :
    follow P depth (.running w top rest, st) = (State.work P w rest top, st.turn w top) := by
  have hturn : st.takesTurn depth top rest = true := Story.takesTurn_iff.mpr ⟨run, hloop, hmine⟩
  simp only [follow, State.next, Story.next, hturn, if_true]

namespace Law.AtTurn

variable {depth : Nat} {w w' : World S σ} {rest rest' : List (Activation S σ)}
  {st st' : Story S} {run run' : Loop S}
  (h : law.AtTurn E depth w rest st run w' rest' st' run')

include h

theorem same (top top' : Activation S σ) :
    law.Same E (.running w top rest, st) (.running w' top' rest', st') :=
  ⟨h.story.called, h.story.outcomes, h.story.lost, h.world.host, h.world.connections, rfl⟩

theorem follow_left {top : Activation S σ} (hloop : top.loop? = some run) :
    follow P depth (.running w top rest, st) = (State.work P w rest top, st.turn w top) :=
  follow_turn P hloop h.mine

theorem follow_right {top' : Activation S σ} (hloop' : top'.loop? = some run') :
    follow P depth (.running w' top' rest', st') =
      (State.work P w' rest' top', st'.turn w' top') := by
  refine follow_turn P hloop' ?_
  rw [← h.story.seat_eq, ← h.waiting.length_eq, ← h.outlet]
  exact h.mine

variable {top top' : Activation S σ} (hloop : top.loop? = some run)
  (hloop' : top'.loop? = some run')

include hloop

/-- The left side may take a turn alone. -/
theorem left
    (hrejoins : law.Rejoins E depth (State.work P w rest top, st.turn w top)
      (.running w' top' rest', st')) :
    law.Rejoins E depth (.running w top rest, st) (.running w' top' rest', st') :=
  .left (h.same top top') (by rwa [h.follow_left hloop])

omit hloop in
include hloop' in
/-- The right side may take a turn alone. -/
theorem right
    (hrejoins : law.Rejoins E depth (.running w top rest, st)
      (State.work P w' rest' top', st'.turn w' top')) :
    law.Rejoins E depth (.running w top rest, st) (.running w' top' rest', st') :=
  .right (h.same top top') (by rwa [h.follow_right hloop'])

include hloop'

/-- Both sides may take a turn. -/
theorem both
    (hstep : law.InStep E depth (State.work P w rest top) (st.turn w top)
      (State.work P w' rest' top') (st'.turn w' top')) :
    law.Rejoins E depth (.running w top rest, st) (.running w' top' rest', st') := by
  refine .both (h.same top top') ?_
  rw [h.follow_left hloop, h.follow_right hloop']
  exact hstep

/-- Both sides may take a turn that comes to this. -/
theorem both_of_eq {x y : State S σ × Story S}
    (hleft : (State.work P w rest top, st.turn w top) = x)
    (hright : (State.work P w' rest' top', st'.turn w' top') = y)
    (hstep : law.InStep E depth x.1 x.2 y.1 y.2) :
    law.Rejoins E depth (.running w top rest, st) (.running w' top' rest', st') := by
  subst hleft hright
  exact h.both hloop hloop' hstep

omit hloop hloop'

/-- On a connection that has been canceled both loops end, whatever nodes they are in front of. -/
theorem abandons (hP : P.Discreet E) (hc : w.connections.isCanceled run.connection = true)
    (node node' : Effect S) :
    law.Rejoins E depth (.running w (.eval (.loop run) node) rest, st)
      (.running w' (.eval (.loop run') node') rest', st') := by
  refine h.both rfl rfl ?_
  simp only [State.work, State.eval, Story.turn, ← h.connection, ← h.world.connections, hc, if_true]
  exact h.canceled hP _ _ _ _

end Law.AtTurn

/-- A loop in front of a sequence looks at its connection and pushes the frame. -/
theorem State.eval_bind (P : Program S σ) {w : World S σ} {rest : List (Activation S σ)}
    {st : Story S} {run : Loop S} (hc : w.connections.isCanceled run.connection = false)
    (source : Effect S) (frame : Frame S) :
    (State.work P w rest (.eval (.loop run) (.bind source frame)),
        st.turn w (.eval (.loop run) (.bind source frame) : Activation S σ)) =
      (.running w (.eval (.loop { run with stack := run.stack.push frame }) source) rest,
        st.look run.connection false) := by
  simp [State.work, State.eval, Story.turn, Story.meet, State.reduce, hc, Driver.push,
    Driver.withStack, Driver.stack]

theorem State.eval_map (P : Program S σ) {w : World S σ} {rest : List (Activation S σ)}
    {st : Story S} {run : Loop S} (hc : w.connections.isCanceled run.connection = false)
    (source : Effect S) (f : S.Map) :
    (State.work P w rest (.eval (.loop run) (.map source f)),
        st.turn w (.eval (.loop run) (.map source f) : Activation S σ)) =
      (.running w (.eval (.loop { run with stack := run.stack.push (.map f) }) source) rest,
        st.look run.connection false) := by
  simp [State.work, State.eval, Story.turn, Story.meet, State.reduce, hc, Driver.push,
    Driver.withStack, Driver.stack]

theorem State.eval_suspend (P : Program S σ) {w : World S σ} {rest : List (Activation S σ)}
    {st : Story S} {run : Loop S} (hc : w.connections.isCanceled run.connection = false)
    (k : S.Thunk) :
    (State.work P w rest (.eval (.loop run) (.suspend k)),
        st.turn w (.eval (.loop run) (.suspend k) : Activation S σ)) =
      (.running w (.node (.loop run) (P.thunk k)) rest,
        (st.look run.connection false).ask (some (.thunk k))) := by
  simp [State.work, State.eval, Story.turn, Story.meet, State.reduce, hc]

/-- A value comes to a closure. -/
theorem State.value_bind (P : Program S σ) {w : World S σ} {rest : List (Activation S σ)}
    {st : Story S} {run : Loop S} {v : Value} {k : S.Bind} {below : CallStack (Frame S)}
    (htake : run.stack.takeFor (.ok v) = (some (.bind (.user k)), below)) :
    (State.work P w rest (.value (.loop run) v),
        st.turn w (.value (.loop run) v : Activation S σ)) =
      (.running w (.node (.loop { run with stack := below }) (P.bind k v)) rest,
        st.ask (some (.bind k v))) := by
  simp [State.work, State.value_eq_leave, State.leave, Story.turn, Story.leave, htake,
    Program.resolve, Program.apply, Program.bindWith, Frame.question?, Binder.question?]

theorem State.eval_pure (P : Program S σ) {w : World S σ} {rest : List (Activation S σ)}
    {st : Story S} {run : Loop S} (hc : w.connections.isCanceled run.connection = false)
    (v : Value) :
    (State.work P w rest (.eval (.loop run) (.pure v)),
        st.turn w (.eval (.loop run) (.pure v) : Activation S σ)) =
      (.running w (.value (.loop run) v) rest, st.look run.connection false) := by
  simp [State.work, State.eval, Story.turn, Story.meet, State.reduce, hc]

namespace Law.AtTurn

variable {depth : Nat} {w w' : World S σ} {rest rest' : List (Activation S σ)}
  {st st' : Story S} {run run' : Loop S}
  (h : law.AtTurn E depth w rest st run w' rest' st' run') (hP : P.Discreet E)

include h hP

/-- Code on the left comes back with a node, and code on the right with that node and a closure
to follow, whose frame the right loop has still to push. -/
theorem catches_up {g : S.Bind} (late : run.Late law ((st.seat depth).mine rest.length) g run')
    (e : Effect S) :
    law.Rejoins E depth (.running w (.node (.loop run) (.done e)) rest, st)
      (.running w' (.node (.loop run') (.done (e.flatMap g))) rest', st') := by
  refine h.right rfl ?_
  have h' := h.answer (.node (.ok e)) (.node (.ok (e.flatMap g)))
  change law.Rejoins E depth (.running w (.node (.loop run) (.done e)) rest, st)
    (.running w' (.eval (.loop run') (e.flatMap g)) rest', st'.answer (.node (.ok (e.flatMap g))))
  obtain ⟨hcalled, houtcomes, hlost⟩ := st'.answer_same (.node (.ok (e.flatMap g)))
  have hsame : law.Same E (.running w (.node (.loop run) (.done e)) rest, st)
      (.running w' (.eval (.loop run') (e.flatMap g)) rest',
        st'.answer (.node (.ok (e.flatMap g)))) :=
    ⟨hcalled ▸ h.story.called, h.story.outcomes.trans houtcomes.symm,
      h.story.lost.trans hlost.symm, h.world.host, h.world.connections, rfl⟩
  have hfollow : follow P depth (.running w (.node (.loop run) (.done e)) rest, st) =
      (.running w (.eval (.loop run) e) rest, st.answer (.node (.ok e))) := h.follow_left rfl
  cases hc : w.connections.isCanceled run.connection with
  | true =>
      refine .left hsame ?_
      rw [hfollow]
      exact h'.abandons hP hc e (e.flatMap g)
  | false =>
      rw [h.connection, h.world.connections] at hc
      refine .both hsame ?_
      rw [hfollow, h'.follow_right rfl, Effect.flatMap, State.eval_bind P hc]
      have hloop : run.SameUpTo law (((st.answer (.node (.ok e))).seat depth).mine rest.length)
          { run' with stack := run'.stack.push (.bind (.user g)) } :=
        ⟨h.connection, h.outlet, .inl (by rw [late.stack, CallStack.toList_push])⟩
      exact ⟨.running h'.world (.eval (.loop hloop) e) h'.waiting, h'.story.look_right _ _⟩

/-- Code on the left makes a node, and code on the right that node with a closure to follow. -/
theorem wraps {g : S.Bind} (late : run.Late law ((st.seat depth).mine rest.length) g run')
    {code code' : Code S σ (Effect S)} (alike : code.Alike E (fun e e' => e' = e.flatMap g) code') :
    law.Rejoins E depth (.running w (.node (.loop run) code) rest, st)
      (.running w' (.node (.loop run') code') rest', st') := by
  by_cases hdone : ∃ e, code = .done e
  · obtain ⟨e, rfl⟩ := hdone
    cases alike with
    | done he =>
        subst he
        exact h.catches_up hP late e
  · refine h.both rfl rfl ?_
    exact h.works hP alike (fun c c' hc => .wraps late hc) (fun e => .fails late e)
      fun e _ he _ _ => absurd ⟨e, he⟩ hdone

end Law.AtTurn

/-! ### A closure that is on the left alone -/

section

variable {depth : Nat} {w w' : World S σ} {rest rest' : List (Activation S σ)} {st st' : Story S}
  {run run' : Loop S} {k : S.Bind} {hk : ∀ v, P.bind k v = .done (.pure v)}
  (h : (Law.rightUnit k hk).AtTurn E depth w rest st run w' rest' st' run')
  (hpending : st.pending = none)

include h hpending

/-- Nothing is pending on the right either. -/
theorem Law.AtTurn.pending_right : st'.pending = none := by
  have hrel := h.story.pending
  rw [hpending] at hrel
  generalize st'.pending = q at hrel
  cases hrel
  rfl

/-- The closure is called. -/
theorem Law.AtTurn.asks_left (v : Value) (top top' : Activation S σ) :
    (Law.rightUnit k hk).Same E (.running w top rest, st.ask (some (.bind k v)))
      (.running w' top' rest', st') := by
  refine ⟨?_, h.story.outcomes, h.story.lost, h.world.host, h.world.connections, rfl⟩
  have hcalls := h.story.exchanges.passed v
  simpa [Story.called, Story.calls, Story.ask, h.pending_right hpending, calledIn,
    Question.isCall_of_ne] using hcalls

/-- The closure has come back. -/
theorem Law.AtTurn.answers_left (v : Value) (reply : Reply S) :
    (Law.rightUnit k hk).AtTurn E depth w rest ((st.ask (some (.bind k v))).answer reply) run w'
      rest' st' run' := by
  refine ⟨h.world, h.waiting, ⟨h.story.bridge, ?_, ?_, h.story.outcomes, h.story.lost⟩,
    h.connection, h.outlet, h.mine⟩
  · have hcalls := h.story.exchanges.passed v
    simpa [Story.answer, Story.ask, calledIn, callsOf, Question.isCall_of_ne] using hcalls
  · rw [h.pending_right hpending]
    exact .none

/-- A value has come to a closure that only makes a node of it: it is called, and the loop takes
the node apart again. -/
theorem Law.AtTurn.passes (hP : P.Discreet E)
    (hc : w.connections.isCanceled run.connection = false) {v : Value} {frames : List (Frame S)}
    (hleft : awaiting (.ok v) run.stack.toList = .bind (.user k) :: frames)
    (hright : awaiting (.ok v) run'.stack.toList = awaiting (.ok v) frames) :
    (Law.rightUnit k hk).Rejoins E depth (.running w (.value (.loop run) v) rest, st)
      (.running w' (.value (.loop run') v) rest', st') := by
  obtain ⟨below, htake, hbelow⟩ := CallStack.takeFor_of_awaiting hleft
  have hopen : w.connections.isCanceled ({ run with stack := below } : Loop S).connection =
    false := hc
  have htaken := h.withStack below run'.stack
  have hanswered := htaken.answers_left hpending v (.node (.ok (.pure v)))
  have hfollow : follow P depth (.running w (.node (.loop { run with stack := below })
      (.done (.pure v))) rest, st.ask (some (.bind k v))) =
      (.running w (.eval (.loop { run with stack := below }) (.pure v)) rest,
        (st.ask (some (.bind k v))).answer (.node (.ok (.pure v)))) := follow_turn P rfl h.mine
  refine h.left rfl ?_
  rw [State.value_bind P htake, hk]
  refine .left (htaken.asks_left hpending v _ _) ?_
  rw [hfollow]
  refine hanswered.left rfl ?_
  rw [State.eval_pure P hopen]
  refine (hanswered.look_left _ false).both rfl rfl ?_
  simp only [State.work, Story.turn, State.value_eq_leave]
  refine (hanswered.look_left _ false).leave hP (A := True) ?_
  exact (finds_of_awaiting_eq (hbelow ▸ hright.symm)).mono fun _ _ hs => .inl hs

end

/-! ## Every step -/

namespace Law

variable {depth : Nat} {w w' : World S σ} {rest rest' : List (Activation S σ)} {st st' : Story S}

/-- Where a value may come to a closure that only makes a node of it, the run has asked for nothing
and its connection has not been canceled. -/
def Unnoticed (law : Law P) (depth : Nat) (s : State S σ) (st : Story S) : Prop :=
  ∀ k hk, law = .rightUnit k hk → ∀ w v run rest, s = .running w (.value (.loop run) v) rest →
    st.takesTurn depth (.value (.loop run) v : Activation S σ) rest = true →
    st.pending = none ∧ w.connections.isCanceled run.connection = false

/-- A turn of the run keeps both sides in step. -/
theorem InStep.rejoins_of_turn {top top' : Activation S σ} (hP : P.Discreet E)
    (h : law.InStep E depth (.running w top rest) st (.running w' top' rest') st')
    (hlooks : law.Unnoticed depth (.running w top rest) st)
    (hturn : st.takesTurn depth top rest = true) :
    law.Rejoins E depth (.running w top rest, st) (.running w' top' rest', st') := by
  obtain ⟨hstate, hstory⟩ := h
  obtain ⟨run, hloop, hmine⟩ := Story.takesTurn_iff.mp hturn
  cases hstate with
  | running hw htop hrest =>
      have hat : ∀ {run' : Loop S}, run.connection = run'.connection →
          run.outlet = run'.outlet → law.AtTurn E depth w rest st run w' rest' st' run' :=
        fun hc ho => ⟨hw, hrest, hstory, hc, ho, hmine⟩
      cases htop with
      | eval hd node => cases hd with
        | partially stack hresume => cases hloop
        | loop hrun =>
            cases hloop
            have hboth := hat hrun.connection hrun.outlet
            exact hboth.both rfl rfl (hboth.eval hP (hrun.stack.mono fun _ => trivial) node)
      | value hd v => cases hd with
        | partially stack hresume => cases hloop
        | loop hrun =>
            cases hloop
            have hboth := hat hrun.connection hrun.outlet
            rcases hboth.value hP (hrun.stack.mono fun _ => trivial) v with hstep |
              ⟨k, hk, frames, rfl, hleft, hright⟩
            · refine hboth.both rfl rfl ?_
              simpa only [State.work, Story.turn, State.value_eq_leave] using hstep
            · obtain ⟨hpending, hc⟩ := hlooks k hk rfl _ _ _ _ rfl hturn
              exact hboth.passes hpending hP hc hleft hright
      | @holds α holder holder' code code' hh alike =>
          rw [Holder.loop?_wrap] at hloop
          have hloops := hh.loop?
          rw [hloop] at hloops
          generalize hloop' : holder'.loop? = run' at hloops
          cases hloops with
          | some hrun =>
              have hboth := hat hrun.connection hrun.outlet
              refine hboth.both (by rw [Holder.loop?_wrap, hloop])
                (by rw [Holder.loop?_wrap, hloop']) ?_
              exact hboth.holds hP (hrun.stack.mono fun _ => trivial) hh hloop hloop' alike
      | wraps late alike =>
          cases hloop
          exact (hat late.connection late.outlet).wraps hP late alike
      | fails late e =>
          cases hloop
          have hboth := hat late.connection late.outlet
          exact hboth.both rfl rfl (hboth.fails hP late e)
      | tokens pending => cases hloop
      | thread outer => cases hloop

/-- Both sides stay in step.  A closure on the left that only makes a node of a value costs a look,
and nobody notices as long as the connection has not been canceled. -/
theorem InStep.rejoins {s s' : State S σ} (hP : P.Discreet E)
    (h : law.InStep E depth s st s' st') (hlooks : law.Unnoticed depth s st) :
    law.Rejoins E depth (s, st) (s', st') := by
  obtain ⟨hstate, -⟩ := id h
  cases hstate with
  | returned world => exact .both h.same h
  | unwound world payload => exact .both h.same h
  | @running w w' top top' rest rest' hw htop hrest =>
      cases hturn : st.takesTurn depth top rest with
      | false => exact .both h.same (h.other hP hturn)
      | true => exact h.rejoins_of_turn hP hlooks hturn

end Law

/-! ## The start -/

namespace Law.AtTurn

variable {depth : Nat} {w w' : World S σ} {rest rest' : List (Activation S σ)}
  {st st' : Story S} {run run' : Loop S}

/-- Two loops in front of a node, where the frames of a law are swapped. -/
theorem swapped (h : law.AtTurn E depth w rest st run w' rest' st' run')
    (hswaps : law.Swaps run.stack.toList run'.stack.toList) (m : Effect S) :
    law.InStep E depth (.running w (.eval (.loop run) m) rest) st
      (.running w' (.eval (.loop run') m) rest') st' :=
  ⟨.running h.world (.eval (.loop (h.loop (.inr ⟨trivial, hswaps⟩))) m) h.waiting, h.story⟩

variable (h : law.AtTurn E depth w rest st run w' rest' st' run')
  (hc : w.connections.isCanceled run.connection = false)

include h

theorem isCanceled_right : w'.connections.isCanceled run'.connection =
    w.connections.isCanceled run.connection := by
  rw [h.connection, h.world.connections]

include hc

/-- The left loop alone pushes a frame. -/
theorem pushes {source : Effect S} {frame : Frame S} {top' : Activation S σ}
    (hrejoins : law.AtTurn E depth w rest (st.look run.connection false)
        { run with stack := run.stack.push frame } w' rest' st' run' →
      law.Rejoins E depth
        (.running w (.eval (.loop { run with stack := run.stack.push frame }) source) rest,
          st.look run.connection false) (.running w' top' rest', st')) :
    law.Rejoins E depth (.running w (.eval (.loop run) (.bind source frame)) rest, st)
      (.running w' top' rest', st') := by
  refine h.left rfl ?_
  rw [State.eval_bind P hc]
  exact hrejoins ((h.look_left run.connection false).withStack _ run'.stack)

end Law.AtTurn

section

variable {depth : Nat} {w w' : World S σ} {rest rest' : List (Activation S σ)}
  {st st' : Story S} {run run' : Loop S} (hP : P.Discreet E)
  (hc : w.connections.isCanceled run.connection = false)
  (hstack : run.stack.toList = run'.stack.toList) (m : Effect S)

include hc hstack

/-- The left loop has a frame to push more. -/
theorem Law.AtTurn.starts_assoc {f g fg : S.Bind}
    {hfg : ∀ v, P.bind fg v = (P.bind f v).bind fun e => .done (e.flatMap g)}
    (h : (Law.assoc f g fg hfg).AtTurn E depth w rest st run w' rest' st' run') :
    (Law.assoc f g fg hfg).Rejoins E depth
      (.running w (.eval (.loop run) ((m.flatMap f).flatMap g)) rest, st)
      (.running w' (.eval (.loop run') (m.flatMap fg)) rest', st') := by
  have hc' := h.isCanceled_right.trans hc
  refine h.pushes hc fun hpushed => ?_
  have hopen : w.connections.isCanceled
    ({ run with stack := run.stack.push (.bind (.user g)) } : Loop S).connection = false := hc
  refine hpushed.both_of_eq rfl rfl (State.eval_bind P hopen m _) (State.eval_bind P hc' m _) ?_
  refine (((hpushed.look_left _ _).look_right _ _).withStack _ _).swapped ?_ m
  rw [CallStack.toList_push, CallStack.toList_push, CallStack.toList_push, hstack]
  exact .here run'.stack.toList

/-- Both loops push a frame. -/
theorem Law.AtTurn.starts_mapped {f : S.Map} {b : S.Bind}
    {hb : ∀ v, P.bind b v = (P.map f v).bind fun w => .done (.pure w)}
    (h : (Law.mapped f b hb).AtTurn E depth w rest st run w' rest' st' run') :
    (Law.mapped f b hb).Rejoins E depth (.running w (.eval (.loop run) (.map m f)) rest, st)
      (.running w' (.eval (.loop run') (m.flatMap b)) rest', st') := by
  have hc' := h.isCanceled_right.trans hc
  refine h.both_of_eq rfl rfl (State.eval_map P hc m f) (State.eval_bind P hc' m _) ?_
  refine (((h.look_left _ _).look_right _ _).withStack _ _).swapped ?_ m
  rw [CallStack.toList_push, CallStack.toList_push, hstack]
  exact .here run'.stack.toList

include hP

/-- The left loop has a frame to push. -/
theorem Law.AtTurn.starts_rightUnit {k : S.Bind} {hk : ∀ v, P.bind k v = .done (.pure v)}
    (h : (Law.rightUnit k hk).AtTurn E depth w rest st run w' rest' st' run') :
    (Law.rightUnit k hk).Rejoins E depth (.running w (.eval (.loop run) (m.flatMap k)) rest, st)
      (.running w' (.eval (.loop run') m) rest', st') := by
  refine h.pushes hc fun hpushed => ?_
  refine hpushed.both rfl rfl (hpushed.eval hP (.inr ⟨trivial, ?_⟩) m)
  rw [CallStack.toList_push, hstack]
  exact .here run'.stack.toList

omit m in
/-- The left loop has a frame to push and a value to make of the node before the closure is
called. -/
theorem Law.AtTurn.starts_leftUnit {x : Value} {f : S.Bind} {t : S.Thunk}
    {ht : P.thunk t = P.bind f x}
    (h : (Law.leftUnit x f t ht).AtTurn E depth w rest st run w' rest' st' run') :
    (Law.leftUnit x f t ht).Rejoins E depth
      (.running w (.eval (.loop run) ((Effect.pure x).flatMap f)) rest, st)
      (.running w' (.eval (.loop run') (.suspend t)) rest', st') := by
  have hc' := h.isCanceled_right.trans hc
  refine h.pushes hc fun hpushed => ?_
  have hopen : w.connections.isCanceled
    ({ run with stack := run.stack.push (.bind (.user f)) } : Loop S).connection = false := hc
  refine hpushed.left rfl ?_
  rw [State.eval_pure P hopen]
  have hvalued := hpushed.look_left run.connection false
  have hawaits : awaiting (.ok x) (run.stack.push (.bind (.user f))).toList =
      .bind (.user f) :: run.stack.toList := by
    rw [CallStack.toList_push]
    exact awaiting_cons_of_takes rfl _
  obtain ⟨below, htake, hbelow⟩ := CallStack.takeFor_of_awaiting hawaits
  have hloop := ((hvalued.look_right run'.connection false).withStack below
    run'.stack).loop (.inl (hbelow.trans hstack))
  have alike : (P.bind f x).Alike E Eq (P.thunk t) := by
    rw [ht]
    exact hP.bind f x
  refine hvalued.both_of_eq rfl rfl (State.value_bind P htake) (State.eval_suspend P hc' t) ?_
  exact ⟨.running h.world (.holds (.node (.loop hloop)) alike) h.waiting,
    (hvalued.story.look_right _ _).ask (.some (.leftUnit x f t ht))⟩

end

/-- Both sides of a law come in step. -/
theorem Law.AtTurn.starts {depth : Nat} {w w' : World S σ} {rest rest' : List (Activation S σ)}
    {st st' : Story S} {run run' : Loop S}
    (h : law.AtTurn E depth w rest st run w' rest' st' run') (hP : P.Discreet E)
    (hstack : run.stack.toList = run'.stack.toList) (m : Effect S) :
    law.Rejoins E depth (.running w (.eval (.loop run) (law.left m)) rest, st)
      (.running w' (.eval (.loop run') (law.right m)) rest', st') := by
  cases hc : w.connections.isCanceled run.connection with
  | true => exact h.abandons hP hc _ _
  | false =>
      cases law with
      | assoc f g fg hfg => exact h.starts_assoc hc hstack m
      | leftUnit x f t ht => exact h.starts_leftUnit hP hc hstack
      | mapped f b hb => exact h.starts_mapped hc hstack m
      | rightUnit k hk => exact h.starts_rightUnit hP hc hstack m

end Trampoline
