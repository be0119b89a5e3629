import Trampoline.Proofs.Laws.Equations
import Trampoline.Proofs.Recovery.Steps

/-!
# The two sides of a law of recovery have the same story

A run on the left of a law of recovery and the run on the right of it call for the same code, but
that the closures which only put others together are called on one side alone, and deliver the
same.  As long as no failure has come to the frames of the law, one step of both sides keeps them
in step.

Main definitions and results:

- Definitions `RecoveryLaw.Like`, `RecoveryLaw.Calls`: what the two runs call for.
- Definition `Story.SameUpToRecovery`: the stories of the two runs.
- Definition `RecoveryLaw.Ready`: the activations of both sides do the same next.
- Theorems `State.sameUpToRecovery_work`, `Story.SameUpToRecovery.turn`,
  `RecoveryLaw.Ready.completion?_eq`: a step, a turn and a completion on both sides.
- Definition `RecoveryLaw.InStep`, theorem `RecoveryLaw.Ready.follow`: both sides in step.
-/

namespace Trampoline

variable {S : Closures} {σ : Type} {P : Program S σ}

/-! ## What the runs call for -/

/-- Questions that mean the same by a law of recovery. -/
inductive RecoveryLaw.Like : RecoveryLaw P → Question S → Question S → Prop
  | same (law : RecoveryLaw P) (q : Question S) : RecoveryLaw.Like law q q
  | nested {h₁ h₂ h : S.Handler} {t : Failure → S.Thunk}
      {thunk : ∀ e, P.thunk (t e) = P.handler h₁ e}
      {handler : ∀ e, P.handler h e = .done ((Effect.suspend (t e)).handleErrorWith h₂)}
      (e : Failure) :
      RecoveryLaw.Like (.nested h₁ h₂ h t thunk handler) (.handler h₁ e) (.thunk (t e))
  | thrown (e : Failure) (h : S.Handler) (t : S.Thunk) (thunk : P.thunk t = P.handler h e) :
      RecoveryLaw.Like (.thrown e h t thunk) (.handler h e) (.thunk t)

/-- Calls that mean the same by a law of recovery, in the same order.  A handler that only puts
other closures together is called on the right alone, and one that only fails again on the left
alone. -/
inductive RecoveryLaw.Calls : RecoveryLaw P → List (Question S) → List (Question S) → Prop
  | nil (law : RecoveryLaw P) : RecoveryLaw.Calls law [] []
  | snoc {law : RecoveryLaw P} {qs qs' : List (Question S)} {q q' : Question S}
      (h : law.Calls qs qs') (hq : law.Like q q') :
      RecoveryLaw.Calls law (qs ++ [q]) (qs' ++ [q'])
  | rethrown {h : S.Handler} {handler : ∀ e, P.handler h e = .done (.fail e)}
      {qs qs' : List (Question S)} (calls : RecoveryLaw.Calls (.rethrown h handler) qs qs')
      (e : Failure) : RecoveryLaw.Calls (.rethrown h handler) (qs ++ [.handler h e]) qs'
  | nested {h₁ h₂ h : S.Handler} {t : Failure → S.Thunk}
      {thunk : ∀ e, P.thunk (t e) = P.handler h₁ e}
      {handler : ∀ e, P.handler h e = .done ((Effect.suspend (t e)).handleErrorWith h₂)}
      {qs qs' : List (Question S)}
      (calls : RecoveryLaw.Calls (.nested h₁ h₂ h t thunk handler) qs qs') (e : Failure) :
      RecoveryLaw.Calls (.nested h₁ h₂ h t thunk handler) qs (qs' ++ [.handler h e])

namespace RecoveryLaw

variable {law : RecoveryLaw P}

/-- Questions that are like each other are both calls of user code or neither is. -/
theorem Like.isCall_eq {q q' : Question S} (h : law.Like q q') :
    q.isCall (fun _ => none) = q'.isCall (fun _ => none) := by
  cases h <;> rfl

end RecoveryLaw

/-! ## Stories -/

/-- The stories of two runs, on either side of a law of recovery. -/
structure Story.SameUpToRecovery (law : RecoveryLaw P) (st st' : Story S) : Prop where
  bridge : st.bridge = st'.bridge
  exchanges : law.Calls (calledIn st.exchanges) (calledIn st'.exchanges)
  pending : Option.Rel law.Like st.pending st'.pending
  outcomes : st.outcomes = st'.outcomes
  lost : st.lost = st'.lost

/-- The words of the two sides of a law of recovery. -/
def RecoveryLaw.wording (law : RecoveryLaw P) : Wording S where
  like := law.Like
  calls := law.Calls

/-- The words of a law are lawful. -/
theorem RecoveryLaw.lawful_wording (law : RecoveryLaw P) : law.wording.Lawful where
  same := .same law
  isCall_eq h := h.isCall_eq
  nil := .nil law
  snoc h hq := .snoc h hq

/-- The stories on both sides of a law are the same in the words of the law. -/
theorem Story.sameUpToRecovery_iff {law : RecoveryLaw P} {st st' : Story S} :
    Story.SameUpToRecovery law st st' ↔ law.wording.Stories st st' :=
  ⟨fun h => ⟨h.bridge, h.exchanges, h.pending, h.outcomes, h.lost⟩,
    fun h => ⟨h.bridge, h.exchanges, h.pending, h.outcomes, h.lost⟩⟩

namespace Story.SameUpToRecovery

variable {law : RecoveryLaw P} {st st' : Story S}

/-- A story may be on both sides of a law. -/
theorem refl (law : RecoveryLaw P) (st : Story S) : Story.SameUpToRecovery law st st :=
  Story.sameUpToRecovery_iff.mpr (.refl law.lawful_wording st)

/-- The two runs have called for the same. -/
theorem called (h : Story.SameUpToRecovery law st st') : law.Calls st.called st'.called :=
  (Story.sameUpToRecovery_iff.mp h).called law.lawful_wording

/-- Where the run on one side waits for nothing, the run on the other side does not either. -/
theorem pending_right (h : Story.SameUpToRecovery law st st') (hnone : st.pending = none) :
    st'.pending = none := by
  have hrel := h.pending
  rw [hnone] at hrel
  generalize st'.pending = q at hrel
  cases hrel
  rfl

/-- A look is no call, so one side may look alone. -/
theorem look_left (h : Story.SameUpToRecovery law st st') (c : Connection) (b : Bool) :
    Story.SameUpToRecovery law (st.look c b) st' :=
  Story.sameUpToRecovery_iff.mpr ((Story.sameUpToRecovery_iff.mp h).look_left c b)

/-- The run on the right may look at its connection once more. -/
theorem look_right (h : Story.SameUpToRecovery law st st') (c : Connection) (b : Bool) :
    Story.SameUpToRecovery law st (st'.look c b) :=
  Story.sameUpToRecovery_iff.mpr ((Story.sameUpToRecovery_iff.mp h).look_right c b)

/-- Both runs look at their connection. -/
theorem look (h : Story.SameUpToRecovery law st st') (c : Connection) (b : Bool) :
    Story.SameUpToRecovery law (st.look c b) (st'.look c b) :=
  (h.look_left c b).look_right c b

/-- Both runs ask questions that are like each other. -/
theorem ask (h : Story.SameUpToRecovery law st st') {q q' : Option (Question S)}
    (hq : Option.Rel law.Like q q') : Story.SameUpToRecovery law (st.ask q) (st'.ask q') :=
  ⟨h.bridge, h.exchanges, hq, h.outcomes, h.lost⟩

/-- Both runs ask the same. -/
theorem ask_same (h : Story.SameUpToRecovery law st st') (q : Option (Question S)) :
    Story.SameUpToRecovery law (st.ask q) (st'.ask q) :=
  h.ask (law.lawful_wording.same_option q)

/-- Both runs are answered. -/
theorem answer (h : Story.SameUpToRecovery law st st') (reply reply' : Reply S) :
    Story.SameUpToRecovery law (st.answer reply) (st'.answer reply') :=
  Story.sameUpToRecovery_iff.mpr
    ((Story.sameUpToRecovery_iff.mp h).answer law.lawful_wording reply reply')

/-- Both runs deliver the same. -/
theorem deliver (h : Story.SameUpToRecovery law st st') (o : Outcome) :
    Story.SameUpToRecovery law (st.deliver o) (st'.deliver o) :=
  ⟨h.bridge, h.exchanges, h.pending, by simp only [Story.deliver, h.outcomes], h.lost⟩

/-- Both runs are taken up. -/
theorem resume (h : Story.SameUpToRecovery law st st') (cb : Callback) (o : Outcome) :
    Story.SameUpToRecovery law (st.resume cb o) (st'.resume cb o) :=
  Story.sameUpToRecovery_iff.mpr ((Story.sameUpToRecovery_iff.mp h).resume law.lawful_wording cb o)

/-- Both runs are taken away. -/
theorem lose (h : Story.SameUpToRecovery law st st') :
    Story.SameUpToRecovery law { st with lost := true } { st' with lost := true } :=
  ⟨h.bridge, h.exchanges, h.pending, h.outcomes, rfl⟩

/-! ### Turns -/

section

variable {E : σ → σ → Prop} {w w' : World S σ} {run run' : Loop S}

/-- An exit for which both loops find the same. -/
theorem leave (h : Story.SameUpToRecovery law st st') {o : Outcome}
    (hfinds : Finds law.Stacks (run.stack.takeFor o) (run'.stack.takeFor o)) :
    Story.SameUpToRecovery law (st.leave run o) (st'.leave run' o) := by
  unfold Story.leave
  generalize run.stack.takeFor o = x, run'.stack.takeFor o = x' at hfinds ⊢
  cases hfinds with
  | none below below' => exact h.deliver o
  | same frame hs => exact h.ask_same _

/-- Both runs park in the same bridge. -/
theorem park (h : Story.SameUpToRecovery law st st') (hw : World.SameUpToRecovery law E w w')
    (hrun : run.SameUpToRecovery law run') :
    Story.SameUpToRecovery law (st.park w run) (st'.park w' run') :=
  ⟨congrArg (fun cb => some (Callback.bridge cb)) (hw.callback_eq hrun), h.exchanges, h.pending,
    h.outcomes, h.lost⟩

/-- Both loops meet a node that is no failure. -/
theorem meet (h : Story.SameUpToRecovery law st st') (hw : World.SameUpToRecovery law E w w')
    (hrun : run.SameUpToRecovery law run') {node : Effect S} (hfail : ∀ e, node ≠ .fail e) :
    Story.SameUpToRecovery law (st.meet w run node) (st'.meet w' run' node) := by
  cases node with
  | fail e => exact absurd rfl (hfail e)
  | async k =>
      simp only [Story.meet, ← hrun.connection]
      exact (h.park hw hrun).ask_same _
  | parked inner stack =>
      simp only [Story.meet, ← hrun.connection]
      exact (h.park hw hrun).ask_same _
  | deferred context b =>
      simp only [Story.meet, ← hrun.connection]
      exact (h.park hw hrun).ask_same _
  | switchConnection source modify restore =>
      simp only [Story.meet, ← hrun.connection]
      exact h.ask_same _
  | suspend k => exact h.ask_same _
  | delay k => exact h.ask_same _
  | _ => exact h

/-- The code of both loops takes a step. -/
theorem heed (h : Story.SameUpToRecovery law st st') (hw : World.SameUpToRecovery law E w w')
    {α : Type} {code code' : Code S σ α} (alike : code.Alike E Eq code')
    (reply : Except Failure α → Reply S) :
    Story.SameUpToRecovery law (st.heed w code reply) (st'.heed w' code' reply) := by
  cases alike with
  | done hab =>
      subst hab
      exact h.answer _ _
  | panic payload =>
      simp only [Story.heed, hw.classifier]
      split
      · exact h.answer _ _
      · exact h.lose
  | _ => exact h

end

end Story.SameUpToRecovery

/-! ## Steps of both sides -/

/-- Activations that do the same next: they are the same up to the law, but that two loops that end
need not be in front of the same node, and two loops in front of a failure need only find the same
frame for it. -/
inductive RecoveryLaw.Ready (law : RecoveryLaw P) (E : σ → σ → Prop) (w : World S σ) :
    Activation S σ → Activation S σ → Prop
  | abandons {run run' : Loop S} (connection : run.connection = run'.connection)
      (outlet : run.outlet = run'.outlet) (hc : w.connections.isCanceled run.connection = true)
      (node node' : Effect S) :
      RecoveryLaw.Ready law E w (.eval (.loop run) node) (.eval (.loop run') node')
  | fails {run run' : Loop S} (connection : run.connection = run'.connection)
      (outlet : run.outlet = run'.outlet) (hc : w.connections.isCanceled run.connection = false)
      {e : Failure}
      (finds : Finds law.Stacks (run.stack.takeFor (.error e)) (run'.stack.takeFor (.error e))) :
      RecoveryLaw.Ready law E w (.eval (.loop run) (.fail e)) (.eval (.loop run') (.fail e))
  | meets {run run' : Loop S} (h : run.SameUpToRecovery law run')
      (hc : w.connections.isCanceled run.connection = false) {node : Effect S}
      (hfail : ∀ e, node ≠ .fail e) :
      RecoveryLaw.Ready law E w (.eval (.loop run) node) (.eval (.loop run') node)
  | works {top top' : Activation S σ} (h : Activation.SameUpToRecovery law E top top')
      (hno : ∀ run node, top ≠ .eval (.loop run) node) : RecoveryLaw.Ready law E w top top'

section

variable {law : RecoveryLaw P} {E : σ → σ → Prop} {w w' : World S σ} {top top' : Activation S σ}
  {rest rest' : List (Activation S σ)}

/-- A step does the same on both sides. -/
theorem State.sameUpToRecovery_work (hP : P.Discreet E) (hw : World.SameUpToRecovery law E w w')
    (hrest : List.Forall₂ (Activation.SameUpToRecovery law E) rest rest')
    (h : law.Ready E w top top') :
    State.SameUpToRecovery law E (State.work P w rest top) (State.work P w' rest' top') := by
  have hsides := law.lawful hP
  replace hw := World.sameUpToRecovery_iff.mp hw
  replace hrest := Activation.forall_sameUpToRecovery_iff.mp hrest
  rw [State.sameUpToRecovery_iff]
  cases h with
  | abandons connection outlet hc node node' =>
      simp only [work, eval, ← connection, ← hw.connections, hc, if_true]
      exact hsides.cancelled hw hrest outlet _ _ _
  | fails connection outlet hc finds =>
      simp only [work, eval, ← connection, ← hw.connections, hc, Bool.false_eq_true, if_false,
        reduce_fail_eq_leave]
      exact hsides.leave hw hrest outlet (finds.mono fun _ _ hs => ⟨connection, outlet, hs⟩)
  | meets hrun hc hfail =>
      simp only [work, eval, ← hrun.connection, ← hw.connections, hc, Bool.false_eq_true, if_false]
      exact hsides.reduce hw hrest hrun.connection hrun.outlet hfail (fun _ => hrun)
        fun _ => hrun.stack
  | works h hno =>
      cases h with
      | eval hd node =>
          cases hd with
          | partially stack hresume => exact hsides.reduce_partially hw hrest hresume node
          | loop hrun => exact absurd rfl (hno _ node)
      | value hd v =>
          cases hd with
          | partially stack hresume =>
              simp only [work, value_eq_pass]
              exact hsides.pass hw hrest hresume (.ok v)
          | loop hrun =>
              simp only [work, value_eq_leave]
              exact hsides.leave hw hrest hrun.outlet ((hrun.stack.finds_value v).mono
                fun _ _ hs => ⟨hrun.connection, hrun.outlet, hs⟩)
      | holds holder alike =>
          exact hsides.step_holds hw hrest (Holder.sameUpToRecovery_iff.mp holder) alike
      | tokens pending =>
          cases pending with
          | nil => exact Likeness.Kept.resume hw hrest
          | cons token pending =>
              have hcode : Activation.SameUpToRecovery law E (.code (P.token token))
                  (.code (P.token token)) := .holds .code (hP.token token)
              exact .running hw hcode (.cons (.tokens pending) hrest)
      | thread outer => exact Likeness.Kept.resume (hw.withThread rfl) hrest

/-- A turn adds the same to both stories. -/
theorem Story.SameUpToRecovery.turn {st st' : Story S} (hst : Story.SameUpToRecovery law st st')
    (hw : World.SameUpToRecovery law E w w') (h : law.Ready E w top top') :
    Story.SameUpToRecovery law (st.turn w top) (st'.turn w' top') := by
  cases h with
  | abandons connection outlet hc node node' =>
      simp only [Story.turn, ← connection, ← hw.connections, hc, if_true]
      exact (hst.look _ _).deliver _
  | fails connection outlet hc finds =>
      simp only [Story.turn, ← connection, ← hw.connections, hc, Bool.false_eq_true, if_false]
      exact (hst.look _ _).leave finds
  | meets hrun hc hfail =>
      simp only [Story.turn, ← hrun.connection, ← hw.connections, hc, Bool.false_eq_true, if_false]
      exact (hst.look _ _).meet hw hrun hfail
  | works h hno =>
      cases h with
      | eval hd node =>
          cases hd with
          | partially stack hresume => exact hst
          | loop hrun => exact absurd rfl (hno _ node)
      | value hd v =>
          cases hd with
          | partially stack hresume => exact hst
          | loop hrun => exact hst.leave (hrun.stack.finds_value v)
      | holds holder alike =>
          cases holder with
          | node hd => cases hd with
            | loop hrun => exact hst.heed hw alike _
            | partially stack hresume => exact hst
          | outcome hd => cases hd with
            | loop hrun => exact hst.heed hw alike fun r => .outcome (r.bind id)
            | partially stack hresume => exact hst
          | switch hrun source restore => exact hst.heed hw alike _
          | owing cb => exact hst
          | code => exact hst
      | tokens pending => exact hst
      | thread outer => exact hst

/-- Both loops find a frame, or neither does. -/
theorem Finds.isNone_eq {x x' : Option (Frame S) × CallStack (Frame S)}
    (h : Finds law.Stacks x x') : x.1.isNone = x'.1.isNone := by
  cases h <;> rfl

/-- Both sides have the same exit. -/
theorem RecoveryLaw.Ready.exit?_eq (hw : World.SameUpToRecovery law E w w')
    (h : law.Ready E w top top') : top.exit? w = top'.exit? w' := by
  cases h with
  | abandons connection outlet hc node node' =>
      simp only [Activation.exit?, ← connection, ← hw.connections, hc, if_true]
  | @fails run run' connection outlet hc e finds =>
      have hnone : run.stack.findErrorHandler.1.isNone = run'.stack.findErrorHandler.1.isNone :=
        finds.isNone_eq
      simp only [Activation.exit?, ← connection, ← hw.connections, hc, hnone]
  | @meets run run' hrun hc node hfail =>
      simp only [Activation.exit?, ← hrun.connection, ← hw.connections, hc]
  | works h hno =>
      cases h with
      | eval hd node =>
          cases hd with
          | partially stack hresume => rfl
          | loop hrun => exact absurd rfl (hno _ node)
      | value hd v =>
          cases hd with
          | partially stack hresume => rfl
          | @loop run run' hrun =>
              have hnone : run.stack.popNext.1.isNone = run'.stack.popNext.1.isNone :=
                (hrun.stack.finds_value v).isNone_eq
              simp only [Activation.exit?, hnone]
      | holds holder alike => cases holder <;> rfl
      | tokens pending => rfl
      | thread outer => rfl

/-- Both sides complete the same callback, or none. -/
theorem RecoveryLaw.Ready.completion?_eq (hw : World.SameUpToRecovery law E w w')
    (h : law.Ready E w top top') : top.completion? w = top'.completion? w' := by
  have hexit := h.exit?_eq hw
  have hover : ∀ outlet, w.handOver? outlet = w'.handOver? outlet := fun outlet => by
    funext o
    simp only [World.handOver?, hw.terminal?_eq]
  cases h with
  | abandons connection outlet hc node node' =>
      rw [Activation.completion?_eval, Activation.completion?_eval, hexit, outlet, hover]
  | fails connection outlet hc finds =>
      rw [Activation.completion?_eval, Activation.completion?_eval, hexit, outlet, hover]
  | meets hrun hc hfail =>
      rw [Activation.completion?_eval, Activation.completion?_eval, hexit, hrun.outlet, hover]
  | works h hno =>
      cases h with
      | eval hd node =>
          cases hd with
          | partially stack hresume => rfl
          | loop hrun => exact absurd rfl (hno _ node)
      | value hd v =>
          cases hd with
          | partially stack hresume => rfl
          | loop hrun =>
              rw [Activation.completion?_value, Activation.completion?_value, hexit, hrun.outlet,
                hover]
      | @holds α h h' code code' holder alike =>
          by_cases hpanic : ∃ payload, code = .panic payload
          · obtain ⟨payload, rfl⟩ := hpanic
            cases alike
            cases holder with
            | owing cb => simp only [Holder.wrap, Activation.completion?, hw.classifier]
            | _ => rfl
          · have hgoes : ∀ payload, code ≠ .panic payload := fun payload hp => hpanic ⟨payload, hp⟩
            have hgoes' : ∀ payload, code' ≠ .panic payload := by
              rintro payload rfl
              cases alike
              exact hgoes payload rfl
            rw [Activation.completion?_wrap w h hgoes, Activation.completion?_wrap w' h' hgoes',
              alike.completion?_eq]
      | tokens pending => rfl
      | thread outer => rfl

/-- The activations on both sides work for loops with the same outlet. -/
theorem Activation.SameUpToRecovery.outlet_eq (h : Activation.SameUpToRecovery law E top top') :
    top.loop?.map Loop.outlet = top'.loop?.map Loop.outlet := by
  cases h with
  | eval hd node => cases hd with
    | loop hrun => exact congrArg some hrun.outlet
    | partially stack hresume => rfl
  | value hd v => cases hd with
    | loop hrun => exact congrArg some hrun.outlet
    | partially stack hresume => rfl
  | holds holder alike =>
      rw [Holder.loop?_wrap, Holder.loop?_wrap]
      cases holder with
      | node hd => cases hd with
        | loop hrun => exact congrArg some hrun.outlet
        | partially stack hresume => rfl
      | outcome hd => cases hd with
        | loop hrun => exact congrArg some hrun.outlet
        | partially stack hresume => rfl
      | switch hrun source restore => exact congrArg some hrun.outlet
      | owing cb => rfl
      | code => rfl
  | tokens pending => rfl
  | thread outer => rfl

/-- Both runs have the same outlet, where either has one. -/
theorem RecoveryLaw.Ready.outlet_eq (h : law.Ready E w top top') :
    top.loop?.map Loop.outlet = top'.loop?.map Loop.outlet := by
  cases h with
  | abandons connection outlet hc node node' => exact congrArg some outlet
  | fails connection outlet hc finds => exact congrArg some outlet
  | meets hrun hc hfail => exact congrArg some hrun.outlet
  | works h hno => exact h.outlet_eq

/-- It is the turn of both runs or of neither. -/
theorem Story.SameUpToRecovery.takesTurn_eq {st st' : Story S}
    (hst : Story.SameUpToRecovery law st st')
    (houtlet : top.loop?.map Loop.outlet = top'.loop?.map Loop.outlet)
    (hlength : rest.length = rest'.length) (depth : Nat) :
    st.takesTurn depth top rest = st'.takesTurn depth top' rest' := by
  unfold Story.takesTurn
  rw [hst.bridge, hst.outcomes, hst.lost, hlength]
  generalize top.loop? = run, top'.loop? = run' at houtlet ⊢
  cases run with
  | none => cases run' with
    | none => rfl
    | some run' => cases houtlet
  | some run => cases run' with
    | none => cases houtlet
    | some run' =>
        rw [Option.map_some, Option.map_some, Option.some.injEq] at houtlet
        simp only [houtlet]

end

/-! ## Both sides in step -/

/-- The machine and the story of a run, on either side of a law of recovery. -/
structure RecoveryLaw.InStep (law : RecoveryLaw P) (E : σ → σ → Prop)
    (x y : State S σ × Story S) : Prop where
  state : State.SameUpToRecovery law E x.1 y.1
  story : Story.SameUpToRecovery law x.2 y.2

/-- Where the activations on top are ready, both sides are in step after the next step. -/
theorem RecoveryLaw.Ready.follow {law : RecoveryLaw P} {E : σ → σ → Prop} {w w' : World S σ}
    {top top' : Activation S σ} {rest rest' : List (Activation S σ)} {st st' : Story S}
    (h : law.Ready E w top top') (hP : P.Discreet E) (hw : World.SameUpToRecovery law E w w')
    (hrest : List.Forall₂ (Activation.SameUpToRecovery law E) rest rest')
    (hst : Story.SameUpToRecovery law st st') (depth : Nat) :
    law.InStep E (follow P depth (.running w top rest, st))
      (follow P depth (.running w' top' rest', st')) := by
  refine ⟨State.sameUpToRecovery_work hP hw hrest h, ?_⟩
  simp only [Trampoline.follow, Story.next, hst.takesTurn_eq h.outlet_eq hrest.length_eq depth,
    h.completion?_eq hw, hw.isArmed_eq, hst.bridge]
  split
  · exact hst.turn hw h
  · split
    · split
      · exact hst.resume _ _
      · exact hst
    · exact hst

end Trampoline
