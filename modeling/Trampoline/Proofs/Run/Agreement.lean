import Trampoline.Proofs.Run.Answers

/-!
# Loops agree with the evaluator

The machine spreads one evaluation over the slot and the list of a stack, rewritten nodes,
bridges and loops inside of loops.  What comes out is the evaluation without a stack: the
run asks just the questions that the evaluator asks with the answers so far, starts the
code that they name, goes on with what this code comes back with, and delivers the outcome
that the evaluator ends with.

Main definitions and results:

- Definition `Comes`: a run comes to an ending of the evaluator.
- Definition `Agrees`, theorem `Follows.agrees`: a run agrees with the evaluator.
-/

namespace Trampoline

variable {S : Closures} {σ : Type}

/-! ## What agreement means -/

/-- A run comes to an ending of the evaluator: it delivers its outcome, or it asks its
question and may have the answer already. -/
def Comes (e : Ending S) (st st' : Story S) : Prop :=
  match e with
  | .exited _ o => st'.outcomes = st.outcomes ++ [o]
  | .aborted => st'.outcomes = st.outcomes ++ [.error .cancelled]
  | .asking q => st'.pending = some q ∧ st'.exchanges = st.exchanges ∨
    ∃ a, st'.exchanges = st.exchanges ++ [⟨q, a⟩]

/-- A run agrees with the evaluator. -/
structure Agrees (P : Program S σ) (r : Origin S) (s : State S σ) (st : Story S) : Prop where
  /-- Each question of the run is the one that the evaluator asks at that point. -/
  asked : ∀ before x after, st.exchanges = before ++ x :: after →
    ∀ e, Evaluates r.course before e ↔ e = .asking x.question
  /-- So is the question that is not answered yet. -/
  pending : ∀ q, st.pending = some q →
    ∀ e, Evaluates r.course st.exchanges e ↔ e = .asking q
  /-- The outcome of the run is the one that the evaluator ends with. -/
  outcome : ∀ o ∈ st.outcomes, ∃ e, e.outcome? = some o ∧
    ∀ e', Evaluates r.course st.exchanges e' ↔ e' = e
  /-- When the run asks a question, the machine starts the code of it. -/
  starts : ∀ q, st.pending = none → (st.next r.depth s).pending = some q →
    q.Started P (st.next r.depth s) (s.next P)
  /-- Each answer is one that the code of the question may come back with. -/
  answers : ∀ x ∈ st.exchanges, x.question.Yields P x.answer
  /-- A question for which the run suspends is answered by the completion of the callback
  of that suspension, and the run goes on with the outcome as with a node. -/
  completes : ∀ q, st.pending = some q → q.Suspends → (st.next r.depth s).pending = none →
    ∃ cb o w run rest, st.callbacks.getLast? = some cb ∧ s.world.isArmed cb = true ∧
      (st.next r.depth s).exchanges = st.exchanges ++ [⟨q, q.read (.outcome o)⟩] ∧
      s.next P = .running w (.eval (.loop run) (.ofOutcome o)) rest
  /-- A run that has the turn comes to the ending of the evaluator in a few steps. -/
  comes : ∀ w top rest, s = .running w top rest → st.takesTurn r.depth top rest = true →
    st.pending = none → ∃ n ≤ 3, ∃ e, Evaluates r.course st.exchanges e ∧
      Comes e st (chronicle P r.depth n (s, st)).2

/-! ## A run that has the turn goes on -/

/-- A run comes to an ending of the evaluator in so many steps. -/
def Advances (P : Program S σ) (r : Origin S) (n : Nat) (s : State S σ) (st : Story S) : Prop :=
  ∃ e, Evaluates r.course st.exchanges e ∧ Comes e st (chronicle P r.depth n (s, st)).2

namespace Home

variable {r : Origin S} {st : Story S} {w : World S σ} {below : List (Activation S σ)}
  {run : Loop S}

/-- A loop in front of a node looks at its connection. -/
theorem advances_eval (P : Program S σ) (home : Home r st w below run) (live : st.Live none)
    {node : Effect S} (proceeds : Proceeds r.course st.exchanges
      ((Course.eval run.connection node).within run.stack.toList)) :
    Advances P r 1 (.running w (.eval (.loop run) node) below) st := by
  have hturn : st.takesTurn r.depth (.eval (.loop run) node : Activation S σ) below = true :=
    home.takesTurn live.outcomes live.lost rfl
  refine ⟨.asking (.canceled run.connection), ?_, .inr
    ⟨w.connections.isCanceled run.connection, ?_⟩⟩
  · have hasks := evaluates_of_ending (m := (Course.eval run.connection node).within
      run.stack.toList) (by rw [Course.head_within_asks rfl]; rfl)
    simpa using proceeds.evaluates hasks
  · simp only [chronicle, Story.next, hturn, if_true]
    exact st.turn_eval_exchanges w run node

/-- A loop that has been given a node comes in front of it. -/
theorem advances_node (P : Program S σ) (home : Home r st w below run) (live : st.Live none)
    {node : Effect S} (proceeds : Proceeds r.course st.exchanges
      ((Course.eval run.connection node).within run.stack.toList)) :
    Advances P r 2 (.running w (.node (.loop run) (.done node)) below) st := by
  have hturn : st.takesTurn r.depth (.node (.loop run) (.done node) : Activation S σ)
      below = true := home.takesTurn live.outcomes live.lost rfl
  have hsame : st.next r.depth (.running w (.node (.loop run) (.done node)) below) = st := by
    simp [Story.next, hturn, Story.turn, Story.heed, Story.answer, live.pending]
  have hadvances := home.advances_eval P live proceeds
  simp only [Advances, chronicle, hsame]
  exact hadvances

/-- A loop that has been given a connection comes in front of the source. -/
theorem advances_switch (P : Program S σ) (home : Home r st w below run) (live : st.Live none)
    {source : Effect S} {restore : Option (Restorer S)} {new : Connection}
    (proceeds : Proceeds r.course st.exchanges
      ((Course.region source restore run.connection new).within run.stack.toList)) :
    Advances P r 2 (.running w (.switch run source restore (.done new)) below) st := by
  have hturn : st.takesTurn r.depth (.switch run source restore (.done new) : Activation S σ)
      below = true := home.takesTurn live.outcomes live.lost rfl
  have hsame :
      st.next r.depth (.running w (.switch run source restore (.done new)) below) = st := by
    simp [Story.next, hturn, Story.turn, Story.heed, Story.answer, live.pending]
  cases restore with
  | none =>
      have hadvances := (home.followSwitch new).advances_eval P live proceeds
      simp only [Advances, chronicle, hsame]
      exact hadvances
  | some r' =>
      have hadvances := (home.followSwitch new).advances_eval P live proceeds
      simp only [Advances, chronicle, hsame]
      exact hadvances

/-- A loop with a value gives it to a frame or delivers it. -/
theorem advances_value (P : Program S σ) (home : Home r st w below run) (live : st.Live none)
    {v : Value} (proceeds : Proceeds r.course st.exchanges
      ((Course.exit run.connection (.ok v)).within run.stack.toList)) :
    ∃ n ≤ 3, Advances P r n (.running w (.value (.loop run) v) below) st := by
  have hturn : st.takesTurn r.depth (.value (.loop run) v : Activation S σ) below = true :=
    home.takesTurn live.outcomes live.lost rfl
  have hnext : st.next r.depth (.running w (.value (.loop run) v) below) =
      st.leave run (.ok v) := by
    simp only [Story.next, hturn, if_true]
    rfl
  have hstep : State.next P (.running w (.value (.loop run) v) below) =
      State.leave P w run (.ok v) below := State.value_eq_leave P w run v below
  unfold Story.leave at hnext
  unfold State.leave at hstep
  cases htake : run.stack.takeFor (.ok v) with
  | mk frame stack =>
      rw [htake] at hnext hstep
      cases frame with
      | none =>
          refine ⟨1, by omega, .exited run.connection (.ok v), ?_, ?_⟩
          · have hexit : Proceeds r.course st.exchanges (.exit run.connection (.ok v)) := by
              simpa using proceeds.trans (.uncaught htake)
            simpa using hexit.evaluates (.exit run.connection (.ok v))
          · simp only [chronicle, hnext]
            rfl
      | some frame =>
          have htakes := CallStack.takes_of_takeFor htake
          have hmove : Proceeds r.course st.exchanges
              ((frame.move run.connection (.ok v)).within stack.toList) := by
            simpa using proceeds.trans (.caught htake)
          have hresolves := Frame.resolves P { run with stack := stack } htakes
          simp only at hnext hstep hresolves
          generalize P.resolve frame (.ok v) = code at hstep hresolves
          generalize frame.question? (.ok v) = q at hnext hresolves
          generalize frame.move run.connection (.ok v) = m at hmove hresolves
          cases hresolves with
          | done e =>
              have home' : Home r (st.ask none) w below { run with stack := stack } :=
                (home.withStack stack).of_story rfl rfl
              have hadvances := home'.advances_node P (live.ask none) hmove
              refine ⟨3, Nat.le_refl _, ?_⟩
              simp only [Advances, chronicle, hnext, hstep] at hadvances ⊢
              exact hadvances
          | @asks _ q next h =>
              refine ⟨1, by omega, .asking q, ?_, .inl ?_⟩
              · simpa using hmove.evaluates (.ask_within q next stack.toList)
              · simp only [chronicle, hnext]
                exact ⟨rfl, rfl⟩

end Home

/-! ## How far the evaluator has come -/

/-- The invariant says how far the evaluator has come with the answers so far. -/
theorem Tracks.proceeds {P : Program S σ} {r : Origin S} {s : State S σ} {st : Story S}
    (h : Tracks P r s st) :
    ∃ m, Proceeds r.course st.exchanges m := by
  cases h with
  | turn stands proceeds home live resumed => exact ⟨_, proceeds⟩
  | calling place serves waits idle proceeds home live resumed => exact ⟨_, proceeds⟩
  | suspended idle holds bridge parks completes proceeds live resumed => exact ⟨_, proceeds⟩
  | delivered outcomes ending evaluates pending lost still numbered resumed =>
      obtain ⟨m, hm, -⟩ := evaluates.proceeds
      exact ⟨m, hm⟩
  | lost outcomes lost pending evaluates still numbered resumed =>
      obtain ⟨m, hm, -⟩ := evaluates.proceeds
      exact ⟨m, hm⟩

/-- A run that has the turn comes to the ending of the evaluator in a few steps. -/
theorem Tracks.advances {P : Program S σ} {r : Origin S} {w : World S σ} {top : Activation S σ}
    {rest : List (Activation S σ)} {st : Story S} (h : Tracks P r (.running w top rest) st)
    (hturn : st.takesTurn r.depth top rest = true) (hnone : st.pending = none) :
    ∃ n ≤ 3, Advances P r n (.running w top rest) st := by
  obtain ⟨run, m, stands, home, live, proceeds⟩ := h.stands_of_turn hturn hnone
  cases stands with
  | eval _ node => exact ⟨1, by omega, home.advances_eval P live proceeds⟩
  | node _ node => exact ⟨2, by omega, home.advances_node P live proceeds⟩
  | switch _ source restore new => exact ⟨2, by omega, home.advances_switch P live proceeds⟩
  | value _ v => exact home.advances_value P live proceeds

/-- The question that a run waits for is the one that the evaluator asks. -/
theorem Tracks.asking {P : Program S σ} {r : Origin S} {s : State S σ} {st : Story S}
    (h : Tracks P r s st) {q : Question S} (hq : st.pending = some q) :
    Evaluates r.course st.exchanges (.asking q) := by
  have hasks : ∀ {q' : Question S} {next : q'.Answer → Course S} {frames : List (Frame S)},
      st.pending = some q' →
      Proceeds r.course st.exchanges ((Course.ask q' next).within frames) →
      Evaluates r.course st.exchanges (.asking q) := by
    intro q' next frames hq' proceeds
    rw [hq, Option.some.injEq] at hq'
    subst hq'
    simpa using proceeds.evaluates (.ask_within q next frames)
  cases h with
  | turn stands proceeds home live resumed => simp [live.pending] at hq
  | calling place serves waits idle proceeds home live resumed => exact hasks live.pending proceeds
  | suspended idle holds bridge parks completes proceeds live resumed =>
      exact hasks live.pending proceeds
  | delivered outcomes ending evaluates pending lost still numbered resumed =>
      simp [pending] at hq
  | lost outcomes lost pending evaluates still numbered resumed =>
      rw [hq, Option.some.injEq] at pending
      exact pending ▸ evaluates

/-- The outcome of a run is the end of the evaluator. -/
theorem Tracks.ends {P : Program S σ} {r : Origin S} {s : State S σ} {st : Story S}
    (h : Tracks P r s st) {o : Outcome} (ho : o ∈ st.outcomes) :
    ∃ e : Ending S, e.outcome? = some o ∧ Evaluates r.course st.exchanges e := by
  cases h with
  | turn stands proceeds home live resumed => simp [live.outcomes] at ho
  | calling place serves waits idle proceeds home live resumed => simp [live.outcomes] at ho
  | suspended idle holds bridge parks completes proceeds live resumed =>
      simp [live.outcomes] at ho
  | lost outcomes lost pending evaluates still numbered resumed => simp [outcomes] at ho
  | delivered outcomes ending evaluates pending lost still numbered resumed =>
      rw [outcomes, List.mem_singleton] at ho
      exact ⟨_, ho ▸ ending, evaluates⟩

/-! ## Agreement -/

/-- A run agrees with the evaluator, whatever its surroundings do. -/
theorem Follows.agrees {P : Program S σ} {r : Origin S} {s : State S σ} {st : Story S}
    (h : Follows P r s st) : Agrees P r s st where
  asked := by
    intro before x after hx e
    obtain ⟨m, hm⟩ := h.tracks.proceeds
    rw [hx] at hm
    exact ⟨fun he => he.unique hm.asked, fun he => he ▸ hm.asked⟩
  pending := fun q hq e =>
    ⟨fun he => he.unique (h.tracks.asking hq), fun he => he ▸ h.tracks.asking hq⟩
  outcome := by
    intro o ho
    obtain ⟨e, ending, evaluates⟩ := h.tracks.ends ho
    exact ⟨e, ending, fun e' => ⟨fun he => he.unique evaluates, fun he => he ▸ evaluates⟩⟩
  starts := fun q hnone hq => h.tracks.starts h.reachable.bounded hnone hq
  answers := h.yields
  completes := fun q hq hsuspends hanswered => h.tracks.completes hq hsuspends hanswered
  comes := by
    rintro w top rest rfl hturn hnone
    exact h.tracks.advances hturn hnone

/-- A run that ends with the text of a callback agrees with the evaluator. -/
theorem Errand.agrees_describe :
    (play (.bind (.pure .null) (.bind (.user describe))) 9).2.outcomes =
        [.ok (.text (Callback.describe ⟨0, 1⟩))] ∧
      Agrees program (origin (.bind (.pure .null) (.bind (.user describe))))
        (play (.bind (.pure .null) (.bind (.user describe))) 9).1
        (play (.bind (.pure .null) (.bind (.user describe))) 9).2 :=
  ⟨rfl, Follows.agrees (follows_play _ 9)⟩

end Trampoline
