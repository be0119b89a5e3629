import Trampoline.Proofs.Run.Tracking

/-!
# Questions and answers

What the machine does when a run asks, and where the answer comes from.  The code of the
question is started, with what the question names; the answer is what this code comes back
with, or, if the run suspends for it, the outcome with which its callback is completed.

Main definitions and results:

- Definition `Question.Started`, theorem `Tracks.starts`: the machine starts the code of a
  question.
- Theorem `Tracks.gains`: a step adds one exchange at most.
- Theorem `Follows.yields`: the answers come from the code of the questions.
- Theorem `Tracks.completes`: a suspension is answered by the completion of its callback.
-/

namespace Trampoline

variable {S : Closures} {σ : Type}

/-! ## The code of a question -/

/-- The machine is about to run the code of a question, with just what the question names.
Code that is to complete a callback is given that of the latest suspension, for which the
run waits. -/
def Question.Started (P : Program S σ) (q : Question S) (st : Story S) (s : State S σ) : Prop :=
  match q with
  | .canceled _ => False
  | .thunk k => ∃ w run rest, s = .running w (.node (.loop run) (P.thunk k)) rest
  | .delay k => ∃ w run rest, s = .running w (.outcome (.loop run) (P.delay k)) rest
  | .bind k v => ∃ w run rest, s = .running w (.node (.loop run) (P.bind k v)) rest
  | .map k v => ∃ w run rest,
    s = .running w (.node (.loop run) ((P.map k v).bind fun v => .done (.pure v))) rest
  | .handler k e => ∃ w run rest, s = .running w (.node (.loop run) (P.handler k e)) rest
  | .rescue k e => ∃ w run rest,
    s = .running w (.node (.loop run) ((P.rescue k e).bind fun v => .done (.pure v))) rest
  | .modify k c => ∃ w run source restore rest,
    s = .running w (.switch run source restore (P.modify k c)) rest
  | .restore k exit old c => ∃ w run source restore rest,
    s = .running w (.switch run source restore (P.restore k exit old c)) rest
  | .async k c => ∃ w cb rest, st.callbacks.getLast? = some cb ∧ w.isArmed cb = true ∧
    w.connectionOf cb = c ∧ s = .running w (.owing cb (P.registration k c cb)) rest
  | .parked node stack c => ∃ w cb rest, st.callbacks.getLast? = some cb ∧
    w.isArmed cb = true ∧ w.connectionOf cb = c ∧
      s = .running w (.eval (.loop ⟨c, stack, .terminal (.complete cb)⟩) node)
        (.owing cb (.done ()) :: rest)
  | .deferred context b c => ∃ w cb rest, st.callbacks.getLast? = some cb ∧
    w.isArmed cb = true ∧ w.connectionOf cb = c ∧ s = .submit P w context (.body cb b) rest

/-- The answer to the question is what code of the host comes back with, and the question is
none about a connection: no code that is given a callback or a connection works on it. -/
def Question.Direct : Question S → Prop
  | .thunk _ | .delay _ | .bind _ _ | .map _ _ | .handler _ _ | .rescue _ _ => True
  | _ => False

/-- Frames ask for the code of binders, of mapped values and of recoveries. -/
theorem Frame.direct {frame : Frame S} {o : Outcome} {q : Question S}
    (h : frame.question? o = some q) : q.Direct := by
  have hbinder : ∀ {f : Binder S} {v : Value}, f.question? v = some q → q.Direct := by
    intro f v hf
    cases f <;> cases hf
    trivial
  have hrecovery : ∀ {f : Recovery S} {e : Failure}, f.question? e = some q → q.Direct := by
    intro f e hf
    cases f <;> cases hf <;> trivial
  cases frame with
  | bind f => cases o with
    | ok v => exact hbinder h
    | error e => cases h
  | map k =>
      cases o <;> cases h
      trivial
  | handle f => cases o with
    | ok v => cases h
    | error e => exact hrecovery h
  | fold f g => cases o with
    | ok v => exact hbinder h
    | error e => exact hrecovery h
  | restore old r => cases o <;> cases h

/-- The code of a frame that asks is the code of its question. -/
theorem Frame.started {frame : Frame S} {o : Outcome} {q : Question S}
    (hq : frame.question? o = some q) (P : Program S σ) (st : Story S) (w : World S σ)
    (run : Loop S) (rest : List (Activation S σ)) :
    q.Started P st (.running w (.node (.loop run) (P.resolve frame o)) rest) := by
  have hbinder : ∀ {f : Binder S} {v : Value}, f.question? v = some q →
      q.Started P st (.running w (.node (.loop run) (P.bindWith f v)) rest) := by
    intro f v hf
    cases f <;> cases hf
    exact ⟨w, run, rest, rfl⟩
  have hrecovery : ∀ {f : Recovery S} {e : Failure}, f.question? e = some q →
      q.Started P st (.running w (.node (.loop run) (P.recoverWith f e)) rest) := by
    intro f e hf
    cases f <;> cases hf <;> exact ⟨w, run, rest, rfl⟩
  cases o with
  | ok v =>
      cases frame with
      | bind f => exact hbinder hq
      | map k =>
          cases hq
          exact ⟨w, run, rest, rfl⟩
      | handle f => cases hq
      | fold f g => exact hbinder hq
      | restore old r => cases hq
  | error e =>
      cases frame with
      | bind f => cases hq
      | map k => cases hq
      | handle f => exact hrecovery hq
      | fold f g => exact hrecovery hq
      | restore old r => cases hq

/-- The code of a modifier that asks is the code of its question. -/
theorem Modifier.started {m : Modifier S} {run : Loop S} {q : Question S}
    (hq : m.question? run.connection = some q) (P : Program S σ) (st : Story S)
    (w : World S σ) (source : Effect S) (restore : Option (Restorer S))
    (rest : List (Activation S σ)) :
    q.Started P st
      (.running w (.switch run source restore (P.modifyWith m run.connection)) rest) := by
  cases m with
  | user k =>
      cases hq
      exact ⟨w, run, source, restore, rest, rfl⟩
  | uncancelable => cases hq
  | restoring exit old r =>
      cases r with
      | user k =>
          cases hq
          exact ⟨w, run, source, restore, rest, rfl⟩
      | old => cases hq

namespace Home

variable {r : Origin S} {st : Story S} {w : World S σ} {below : List (Activation S σ)}
  {run : Loop S}

/-- An exit that makes a frame ask starts the code of the question. -/
theorem leave_started (P : Program S σ) {o : Outcome} {q : Question S} (hnone : st.pending = none)
    (hq : (st.leave run o).pending = some q) (st' : Story S) :
    q.Started P st' (State.leave P w run o below) := by
  unfold Story.leave at hq
  unfold State.leave
  cases htake : run.stack.takeFor o with
  | mk frame stack =>
      rw [htake] at hq
      cases frame with
      | some frame => exact Frame.started hq P st' w _ below
      | none =>
          have hpending : st.pending = some q := hq
          rw [hnone] at hpending
          cases hpending

/-- A node that asks starts the code of its question. -/
theorem meet_started (P : Program S σ) (home : Home r st w below run)
    (hbounded : ∀ i, w.bridges.size ≤ i → ∀ a ∈ below, a.Idle i) (hnone : st.pending = none)
    {node : Effect S} {q : Question S} (hq : (st.meet w run node).pending = some q) :
    q.Started P (st.meet w run node) (State.reduce P w (.loop run) node below) := by
  have hpending : ∀ {st' : Story S}, st'.pending = some q → st'.pending = none → False :=
    fun h h' => by simp [h'] at h
  obtain ⟨hcb, hholds, -⟩ := home.arm hbounded
  have hconnection : (w.arm run).1.connectionOf (w.arm run).2 = run.connection := by
    simp [World.connectionOf, hcb, hholds]
  have harmed : (w.arm run).1.isArmed (w.arm run).2 = true := by
    rw [World.isArmed_eq_true_iff, hcb]
    exact ⟨_, hholds, rfl⟩
  have hlast : (st.park w run).callbacks.getLast? = some (w.arm run).2 := by
    simp [Story.park, Story.callbacks]
  cases node with
  | pure v => exact (hpending hq hnone).elim
  | bind source frame => exact (hpending hq hnone).elim
  | map source f => exact (hpending hq hnone).elim
  | continueOn context source => exact (hpending hq hnone).elim
  | fail e =>
      rw [State.reduce_fail_eq_leave]
      exact leave_started P hnone hq _
  | suspend k =>
      cases hq
      exact ⟨w, run, below, rfl⟩
  | delay k =>
      cases hq
      exact ⟨w, run, below, rfl⟩
  | switchConnection source modify restore => exact Modifier.started hq P _ w source restore below
  | async k =>
      cases hq
      have hreduce : State.reduce P w (.loop run) (.async k) below = .running
          ((w.arm run).1.report P (.suspendedAsync (w.arm run).2.epoch run.stack.length))
          (.owing (w.arm run).2 (P.registration k run.connection (w.arm run).2)) below := by
        rw [← hconnection]
        rfl
      exact ⟨(w.arm run).1.report P _, _, below, hlast, harmed, hconnection, hreduce⟩
  | parked inner stack =>
      cases hq
      have hreduce : State.reduce P w (.loop run) (.parked inner stack) below = .running
          ((w.arm run).1.report P (.suspendedAsync (w.arm run).2.epoch run.stack.length))
          (.eval (.loop ⟨run.connection, stack, .terminal (.complete (w.arm run).2)⟩) inner)
          (.owing (w.arm run).2 (.done ()) :: below) := by
        rw [← hconnection]
        rfl
      exact ⟨(w.arm run).1.report P _, _, below, hlast, harmed, hconnection, hreduce⟩
  | deferred context b =>
      cases hq
      exact ⟨(w.arm run).1.report P
        (.suspendedDeferred context.name (w.arm run).2.epoch run.stack.length),
        _, below, hlast, harmed, hconnection, rfl⟩

end Home

/-- What is no turn of the run asks nothing. -/
theorem Story.next_pending {st : Story S} {depth : Nat} {w : World S σ} {top : Activation S σ}
    {rest : List (Activation S σ)} (h : st.takesTurn depth top rest = false)
    (hnone : st.pending = none) : (st.next depth (.running w top rest)).pending = none := by
  simp only [Story.next, h, Bool.false_eq_true, if_false]
  split
  · split
    · simp only [Story.resume, Story.answer]
      split
      · rfl
      · exact hnone
    · exact hnone
  · exact hnone

namespace Tracks

variable {P : Program S σ} {r : Origin S} {st : Story S}

/-- A run that waits for no answer and takes a turn has a loop in its turn on top. -/
theorem stands_of_turn {w : World S σ} {top : Activation S σ} {rest : List (Activation S σ)}
    (h : Tracks P r (.running w top rest) st) (hturn : st.takesTurn r.depth top rest = true)
    (hnone : st.pending = none) : ∃ run m, Stands top run m ∧ Home r st w rest run ∧
      st.Live none ∧ Proceeds r.course st.exchanges (m.within run.stack.toList) := by
  rcases h.turn_cases with hno | ⟨run, hrun, home, ⟨m, stands, live, proceeds⟩ | ⟨q, _, _, live⟩⟩
  · simp [hturn] at hno
  · exact ⟨run, m, stands, home, live, proceeds⟩
  · rw [live.pending] at hnone
    cases hnone

/-- When a run asks a question, the machine starts the code of it. -/
theorem starts {s : State S σ} (h : Tracks P r s st) (hbounded : s.Bounded)
    {q : Question S} (hnone : st.pending = none)
    (hq : (st.next r.depth s).pending = some q) :
    q.Started P (st.next r.depth s) (s.next P) := by
  cases s with
  | returned w => simp [Story.next, hnone] at hq
  | unwound w payload => simp [Story.next, hnone] at hq
  | running w top rest =>
      cases hturn : st.takesTurn r.depth top rest with
      | false =>
          rw [Story.next_pending hturn hnone] at hq
          cases hq
      | true =>
          obtain ⟨run, m, stands, home, live, -⟩ := h.stands_of_turn hturn hnone
          simp only [Story.next, hturn, if_true] at hq ⊢
          cases stands with
          | node _ e =>
              have hsame : (st.turn w (.node (.loop run) (.done e))).pending = none := by
                simp [Story.turn, Story.heed, Story.answer, hnone]
              rw [hsame] at hq
              cases hq
          | switch _ source restore new =>
              have hsame : (st.turn w (.switch run source restore (.done new))).pending = none := by
                simp [Story.turn, Story.heed, Story.answer, hnone]
              rw [hsame] at hq
              cases hq
          | value _ v =>
              simp only [State.next, State.work, State.value_eq_leave]
              exact Home.leave_started P hnone hq _
          | eval _ node =>
              simp only [State.next, State.work, State.eval, Story.turn] at hq ⊢
              cases hc : w.connections.isCanceled run.connection with
              | true =>
                  simp only [hc, if_true] at hq
                  have hpending : st.pending = some q := hq
                  rw [hnone] at hpending
                  cases hpending
              | false =>
                  simp only [hc, Bool.false_eq_true, if_false] at hq ⊢
                  have home' : Home r (st.look run.connection false) w rest run :=
                    home.of_story rfl rfl
                  exact home'.meet_started P (fun i hi a ha => hbounded i hi a (by simp [ha]))
                    hnone hq

end Tracks

/-! ## Where the answers come from -/

/-- A look at the connection is all that a node adds to the exchanges. -/
theorem Story.turn_eval_exchanges (st : Story S) (w : World S σ) (run : Loop S)
    (node : Effect S) : (st.turn w (.eval (.loop run) node : Activation S σ)).exchanges =
      st.exchanges ++ [⟨.canceled run.connection, w.connections.isCanceled run.connection⟩] := by
  have hleave : ∀ (st : Story S) (o : Outcome), (st.leave run o).exchanges = st.exchanges := by
    intro st o
    unfold Story.leave
    split <;> rfl
  simp only [Story.turn]
  split
  · rfl
  · cases node with
    | fail e => exact hleave _ _
    | _ => rfl

/-- What a step may add to the exchanges: a look at a connection, or an answer that comes
from the code of the question that the run waited for. -/
def Gains (P : Program S σ) (st st' : Story S) : Prop :=
  st'.exchanges = st.exchanges ∨ ∃ x : Exchange S, st'.exchanges = st.exchanges ++ [x] ∧
    ((∃ c b, x = ⟨.canceled c, b⟩) ∨ st.pending = some x.question ∧ x.question.Yields P x.answer)

/-- With what a step adds, all answers come from the code of their questions. -/
theorem Gains.yields {P : Program S σ} {st st' : Story S} (h : Gains P st st')
    (hyields : ∀ x ∈ st.exchanges, x.question.Yields P x.answer) :
    ∀ x ∈ st'.exchanges, x.question.Yields P x.answer := by
  rcases h with hsame | ⟨x, hadds, hx⟩
  · rw [hsame]
    exact hyields
  · intro y hy
    rw [hadds, List.mem_append, List.mem_singleton] at hy
    rcases hy with hy | rfl
    · exact hyields y hy
    · rcases hx with ⟨c, b, rfl⟩ | ⟨-, hanswer⟩
      · trivial
      · exact hanswer

/-- The end of the code that serves a question answers it. -/
theorem Activation.Serves.gains {P : Program S σ} {run : Loop S} {q : Question S}
    {next : q.Answer → Course S} {act : Activation S σ} (hs : act.Serves P run q next)
    {st : Story S} (hq : st.pending = some q) (w : World S σ) : Gains P st (st.turn w act) := by
  obtain ⟨α, h, code, rfl, hloop, -, hreturns, -, hpanics⟩ := hs.wrap
  rw [Story.turn_wrap st w hloop]
  have hanswer : ∀ reply, q.Yields P (q.read reply) → Gains P st (st.answer reply) :=
    fun reply hyields => .inr ⟨⟨q, q.read reply⟩, by simp [Story.answer, hq], .inr ⟨hq, hyields⟩⟩
  cases code with
  | done a => exact hanswer _ hreturns.2
  | panic payload =>
      simp only [Story.heed]
      split
      · exact hanswer _ (hpanics payload)
      · exact .inl rfl
  | _ => exact .inl rfl

/-- The answer to a question for which the run suspends is no result of code. -/
theorem Question.Suspends.yields {q : Question S} (h : q.Suspends) (P : Program S σ)
    (a : q.Answer) : q.Yields P a := by
  cases q <;> trivial

namespace Tracks

variable {P : Program S σ} {r : Origin S} {s : State S σ} {st : Story S}

/-- A loop in its turn has only looks at its connection to add. -/
theorem gains_of_stands {act : Activation S σ} {run : Loop S} {m : Course S}
    (stands : Stands act run m) (hnone : st.pending = none) (w : World S σ) :
    Gains P st (st.turn w act) := by
  have hanswer := Story.answer_of_none hnone
  cases stands with
  | eval _ e => exact .inr ⟨_, st.turn_eval_exchanges w run e, .inl ⟨_, _, rfl⟩⟩
  | value _ v =>
      refine .inl ?_
      simp only [Story.turn, Story.leave]
      split <;> rfl
  | node _ e =>
      refine .inl ?_
      simp only [Story.turn, Story.heed, hanswer]
  | switch _ source restore new =>
      refine .inl ?_
      simp only [Story.turn, Story.heed, hanswer]

/-- A step adds one exchange at most. -/
theorem gains (h : Tracks P r s st) : Gains P st (st.next r.depth s) := by
  cases h.stepping with
  | other same =>
      rw [same]
      exact .inl rfl
  | turn step stands home live proceeds =>
      rw [step]
      exact gains_of_stands stands live.pending _
  | serves step serves home live =>
      rw [step]
      exact serves.gains live.pending _
  | @resumes _ _ _ _ _ _ _ _ q _ o step parked suspends =>
      rw [step]
      exact .inr ⟨⟨q, q.read (.outcome o)⟩, (parked.resume_eq _ o).1,
        .inr ⟨parked.live.pending, suspends.yields P _⟩⟩

/-- A run that waits for an answer does nothing in a step, or has the answer after it. -/
theorem next_of_pending (h : Tracks P r s st) {q : Question S} (hq : st.pending = some q) :
    ((st.next r.depth s).pending = some q ∧ (st.next r.depth s).exchanges = st.exchanges ∧
      (st.next r.depth s).outcomes = st.outcomes) ∨
    ∃ a, (st.next r.depth s).exchanges = st.exchanges ++ [⟨q, a⟩] ∧
      (st.next r.depth s).pending = none := by
  have hanswer : ∀ {st : Story S} (reply : Reply S), st.pending = some q →
      (st.answer reply).exchanges = st.exchanges ++ [⟨q, q.read reply⟩] ∧
        (st.answer reply).pending = none := by
    intro st reply hq
    simp [Story.answer, hq]
  cases h.stepping with
  | other same =>
      rw [same]
      exact .inl ⟨hq, rfl, rfl⟩
  | turn step stands home live => cases hq.symm.trans live.pending
  | @serves w _ _ _ _ _ _ step serves =>
      obtain ⟨α, holder, code, rfl, hloop, -⟩ := serves.wrap
      rw [step, st.turn_wrap w hloop]
      cases code with
      | done a => exact .inr ⟨_, hanswer _ hq⟩
      | panic payload =>
          simp only [Story.heed]
          split
          · exact .inr ⟨_, hanswer _ hq⟩
          · exact .inl ⟨hq, rfl, rfl⟩
      | _ => exact .inl ⟨hq, rfl, rfl⟩
  | resumes step =>
      rw [step]
      exact .inr ⟨_, hanswer _ hq⟩

/-- The answer to a question for which the run suspends is the outcome with which the
callback of the suspension is completed. -/
theorem completes (h : Tracks P r s st) {q : Question S} (hq : st.pending = some q)
    (hsuspends : q.Suspends) (hanswered : (st.next r.depth s).pending = none) :
    ∃ cb o w run rest, st.callbacks.getLast? = some cb ∧ s.world.isArmed cb = true ∧
      (st.next r.depth s).exchanges = st.exchanges ++ [⟨q, q.read (.outcome o)⟩] ∧
      s.next P = .running w (.eval (.loop run) (.ofOutcome o)) rest := by
  cases h.stepping with
  | other same =>
      rw [same] at hanswered
      cases hq.symm.trans hanswered
  | turn step stands home live => cases hq.symm.trans live.pending
  | serves step serves home live =>
      obtain ⟨_, _, _, -, hserves⟩ := serves.wrap
      cases hq.symm.trans live.pending
      exact (hserves.calls hsuspends).elim
  | @resumes w top rest _ _ _ _ _ _ _ o step parked _ hresumes =>
      cases hq.symm.trans parked.live.pending
      generalize hs : State.work P w rest top = s' at hresumes
      cases hresumes with
      | mk w' new size hb hidle =>
          refine ⟨_, o, w', _, _, ?_, parked.armed, ?_, hs⟩
          · rw [parked.callbacks, List.getLast?_concat]
          · rw [step]
            exact (parked.resume_eq _ o).1

end Tracks

/-- All answers of a run come from the code of its questions. -/
theorem Follows.yields {P : Program S σ} {r : Origin S} {s : State S σ} {st : Story S}
    (h : Follows P r s st) : ∀ x ∈ st.exchanges, x.question.Yields P x.answer := by
  induction h with
  | start h depth => simp [Story.beginning]
  | again h hs code ih => exact ih
  | next h ih => exact h.tracks.gains.yields ih

end Trampoline
