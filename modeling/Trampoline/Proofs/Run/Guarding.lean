import Trampoline.Proofs.Run.Atomicity
import Trampoline.Proofs.Run.Attachment

/-!
# What a guard sees

Four combinators guard an effect against its failure: `handleErrorWith` and `handleError` let values
pass, `redeemWith` takes them too, and `attempt` makes a value of either exit.  The effect runs in
front of its guard as it runs by itself, with its own handlers, regions and suspensions.  The guard
then sees the exit that the effect comes to by itself, once, under the connection that is active at
the exit, and is gone.  A cancellation that the run observes is no exit, even if it looks like one:
the guard does not see it, while it does see a failure with the same name that the effect exits
with.

Main definitions and results:

- Definition `Guard`: the four combinators.
- Definition `Guard.Takes`: what a guard does with the exit of its effect.
- Definition `Guarded`, theorem `Proceeds.guarded`: a guarded effect in the evaluator.
- Definition `Guards`: what a run does with a guarded effect.
- Theorems `Leads.handleErrorWith`, `Leads.handleError`, `Leads.redeemWith`, `Leads.attempt`: a run
  that meets one of the combinators.
- Theorem `Follows.guards`: all four of them.
-/

namespace Trampoline

variable {S : Closures} {σ : Type}

/-! ## Guards -/

/-- The combinators that guard an effect against its failure. -/
inductive Guard (S : Closures) where
  /-- Code chooses the effect to go on with after a failure. -/
  | handleErrorWith (h : S.Handler)
  /-- Code chooses the value to go on with after a failure. -/
  | handleError (h : S.Rescue)
  /-- Code chooses the effect to go on with after a failure, and other code after a value. -/
  | redeemWith (onError : S.Handler) (onValue : S.Bind)
  /-- A failure becomes the value that describes it. -/
  | attempt

namespace Guard

/-- The frame that waits for the exit of the effect. -/
def frame : Guard S → Frame S
  | handleErrorWith h => .handle (.user h)
  | handleError h => .handle (.rescue h)
  | redeemWith onError onValue => .fold (.user onValue) (.user onError)
  | attempt => .fold .pure .reify

/-- The question with which the code of a guard is asked about an exit. -/
def question? : Guard S → Outcome → Option (Question S)
  | handleErrorWith h, .error e => some (.handler h e)
  | handleError h, .error e => some (.rescue h e)
  | redeemWith onError _, .error e => some (.handler onError e)
  | redeemWith _ onValue, .ok v => some (.bind onValue v)
  | handleErrorWith _, .ok _ | handleError _, .ok _ | attempt, _ => none

/-- A guard asks what its frame asks. -/
theorem question?_frame (g : Guard S) (o : Outcome) : g.frame.question? o = g.question? o := by
  cases g <;> cases o <;> rfl

/-- What a guard asks with the exit of its effect under a connection, and what it goes on with
after the answer.  A value passes a handler; an attempt meets a value, or the description of a
failure, as a node; otherwise the code for the exit is asked once. -/
inductive Takes (c : Connection) : Guard S → Outcome → List (Exchange S) → Course S → Prop
  | passesHandler (h : S.Handler) (v : Value) :
      Takes c (handleErrorWith h) (.ok v) [] (.exit c (.ok v))
  | passesRescue (h : S.Rescue) (v : Value) :
      Takes c (handleError h) (.ok v) [] (.exit c (.ok v))
  | handles (h : S.Handler) (e : Failure) (a : Except Failure (Effect S)) :
      Takes c (handleErrorWith h) (.error e) [⟨.handler h e, a⟩] (.node c a)
  | rescues (h : S.Rescue) (e : Failure) (o : Outcome) :
      Takes c (handleError h) (.error e) [⟨.rescue h e, o⟩] (.completion c o)
  | continues (onError : S.Handler) (onValue : S.Bind) (v : Value)
      (a : Except Failure (Effect S)) :
      Takes c (redeemWith onError onValue) (.ok v) [⟨.bind onValue v, a⟩] (.node c a)
  | recovers (onError : S.Handler) (onValue : S.Bind) (e : Failure)
      (a : Except Failure (Effect S)) :
      Takes c (redeemWith onError onValue) (.error e) [⟨.handler onError e, a⟩] (.node c a)
  | yields (v : Value) : Takes c attempt (.ok v) [] (.eval c (.pure v))
  | reifies (e : Failure) : Takes c attempt (.error e) [] (.eval c (.pure (.error e.toInfo)))

end Guard

/-! ## A guarded effect in the evaluator -/

namespace Proceeds

variable {c : Connection} {frames : List (Frame S)} {zs : List (Exchange S)} {n : Course S}

/-- A question within frames has not been answered, or the evaluation has gone on with the
answer. -/
theorem of_ask {q : Question S} {next : q.Answer → Course S}
    (h : Proceeds ((Course.ask q next).within frames) zs n) :
    zs = [] ∧ n = (Course.ask q next).within frames ∨
      ∃ a ws, zs = [⟨q, a⟩] ++ ws ∧ Proceeds ((next a).within frames) ws n :=
  h.taken (Course.head_within_asks rfl frames)

/-- A guard whose code is asked waits for the answer, or the evaluation has gone on without it. -/
theorem guard_asks {g : Guard S} {o : Outcome} {q : Question S} {next : q.Answer → Course S}
    (hmove : g.frame.move c o = .ask q next) (hq : g.question? o = some q)
    (htakes : ∀ a, g.Takes c o [⟨q, a⟩] (next a))
    (h : Proceeds ((g.frame.move c o).within frames) zs n) :
    (zs = [] ∧ ∃ q next, g.question? o = some q ∧ n = (Course.ask q next).within frames ∧
      n = (g.frame.move c o).within frames) ∨
      ∃ qs m ws, g.Takes c o qs m ∧ zs = qs ++ ws ∧ Proceeds (m.within frames) ws n := by
  rw [hmove] at h ⊢
  rcases h.of_ask with ⟨hnil, hn⟩ | ⟨a, ws, rfl, hgo⟩
  · exact .inl ⟨hnil, q, next, hq, hn, hn⟩
  · exact .inr ⟨_, _, ws, htakes a, rfl, hgo⟩

/-- A guard that has been given an exit waits for its code, or the evaluation has gone on without
the guard. -/
theorem guard {g : Guard S} {o : Outcome} (h : Proceeds ((g.frame.move c o).within frames) zs n) :
    (zs = [] ∧ ∃ q next, g.question? o = some q ∧ n = (Course.ask q next).within frames ∧
      n = (g.frame.move c o).within frames) ∨
      ∃ qs m ws, g.Takes c o qs m ∧ zs = qs ++ ws ∧ Proceeds (m.within frames) ws n := by
  cases g with
  | handleErrorWith h' =>
      cases o with
      | ok v => exact .inr ⟨[], _, zs, .passesHandler h' v, rfl, h⟩
      | error e => exact guard_asks rfl rfl (.handles h' e) h
  | handleError h' =>
      cases o with
      | ok v => exact .inr ⟨[], _, zs, .passesRescue h' v, rfl, h⟩
      | error e => exact guard_asks rfl rfl (.rescues h' e) h
  | redeemWith onError onValue =>
      cases o with
      | ok v => exact guard_asks rfl rfl (.continues onError onValue v) h
      | error e => exact guard_asks rfl rfl (.recovers onError onValue e) h
  | attempt =>
      cases o with
      | ok v => exact .inr ⟨[], _, zs, .yields v, rfl, h⟩
      | error e => exact .inr ⟨[], _, zs, .reifies e, rfl, h⟩

end Proceeds

/-- How far an evaluation that meets a guarded effect under a connection has come with it. -/
inductive Guarded (g : Guard S) (e : Effect S) (c : Connection) (frames : List (Frame S)) :
    List (Exchange S) → Course S → Prop
  /-- It is in front of the guarded effect. -/
  | meets : Guarded g e c frames [] ((Course.eval c (.bind e g.frame)).within frames)
  /-- The connection has been canceled before. -/
  | refused : Guarded g e c frames [⟨.canceled c, true⟩] (Course.abort.within frames)
  /-- The effect is evaluated as it is by itself. -/
  | inside {xs : List (Exchange S)} {m : Course S} (h : Proceeds (.eval c e) xs m) :
      Guarded g e c frames (openLook c :: xs) ((Course.seq m g.frame).within frames)
  /-- The guard has been given the exit of the effect, and its code is asked. -/
  | sees {xs : List (Exchange S)} {m n : Course S} {d : Connection} {o : Outcome}
      {q : Question S} {next : q.Answer → Course S} (h : Proceeds (.eval c e) xs m)
      (exits : m.head = .exited d o) (asks : g.question? o = some q)
      (asking : n = (Course.ask q next).within frames)
      (given : n = (g.frame.move d o).within frames) : Guarded g e c frames (openLook c :: xs) n
  /-- The evaluation has gone on without the guard. -/
  | onward {xs qs ws : List (Exchange S)} {m k n : Course S} {d : Connection} {o : Outcome}
      (h : Proceeds (.eval c e) xs m) (exits : m.head = .exited d o) (takes : g.Takes d o qs k)
      (rest : Proceeds (k.within frames) ws n) :
      Guarded g e c frames (openLook c :: xs ++ qs ++ ws) n

/-- An evaluation that meets a guarded effect evaluates it in front of the guard. -/
theorem Proceeds.guarded {g : Guard S} {e : Effect S} {c : Connection} {frames : List (Frame S)}
    {zs : List (Exchange S)} {n : Course S}
    (h : Proceeds ((Course.eval c (.bind e g.frame)).within frames) zs n) :
    Guarded g e c frames zs n := by
  rcases h.of_node with ⟨rfl, rfl⟩ | ⟨rfl, rfl⟩ | ⟨ws, rfl, hgo⟩
  · exact .meets
  · exact .refused
  · have hinside : Proceeds ((Course.seq (.eval c e) g.frame).within frames) ws n := hgo
    rcases hinside.of_seq with ⟨m, hm, rfl⟩ | ⟨xs, ys, m, d, o, rfl, hm, hexit, hrest⟩
    · exact .inside hm
    · rcases hrest.guard with ⟨rfl, q, next, hq, hn, hgiven⟩ | ⟨qs, k, us, htakes, rfl, hout⟩
      · rw [List.append_nil]
        exact .sees hm hexit hq hn hgiven
      · have honward : Guarded g e c frames (openLook c :: xs ++ qs ++ us) n :=
          .onward hm hexit htakes hout
        rwa [List.append_assoc] at honward

/-! ## A guarded effect in a run -/

/-- A loop in its turn stands before no abortion. -/
theorem Stands.head_ne_aborted {act : Activation S σ} {run : Loop S} {m : Course S}
    (h : Stands act run m) (frames : List (Frame S)) : (m.within frames).head ≠ .aborted := by
  have heval : ∀ c (e : Effect S), ((Course.eval c e).within frames).head ≠ .aborted := by
    intro c e
    simp [Course.head_within_asks (m := Course.eval c e) rfl frames]
  cases h with
  | eval _ e => exact heval _ e
  | value _ v => exact Course.head_within_exit_ne_aborted _ _ frames
  | node _ e => exact heval _ e
  | switch _ source restore new => cases restore <;> exact heval _ _

/-- A run whose evaluation has been aborted has delivered the cancellation. -/
theorem Tracks.delivered_of_aborted {P : Program S σ} {r : Origin S} {s : State S σ}
    {st : Story S} (h : Tracks P r s st) {n : Course S} (hn : Proceeds r.course st.exchanges n)
    (ha : n.head = .aborted) : st.outcomes = [.error .cancelled] ∧ st.pending = none := by
  have hends : Evaluates r.course st.exchanges .aborted :=
    evaluates_iff_proceeds.mpr ⟨n, hn, by rw [ha]; rfl⟩
  have hasking : ∀ {q : Question S} {next : q.Answer → Course S} {frames : List (Frame S)},
      Proceeds r.course st.exchanges ((Course.ask q next).within frames) → False := by
    intro q next frames hasks
    have hwaits : Evaluates r.course st.exchanges (.asking q) := by
      simpa using hasks.evaluates (.ask_within q next frames)
    cases hends.unique hwaits
  cases h with
  | turn stands proceeds home live resumed =>
      have hmore : Evaluates r.course (st.exchanges ++ []) .aborted := by
        rwa [List.append_nil]
      obtain ⟨k, hk, hhead⟩ := (proceeds.evaluates_iff.mp hmore).proceeds
      refine absurd (hk.aborted_of_aborted ?_) (stands.head_ne_aborted _)
      cases hh : k.head <;> simp_all [Head.ending?]
  | calling place serves waits idle proceeds home live resumed => exact (hasking proceeds).elim
  | suspended idle holds bridge parks completes proceeds live resumed suspends =>
      exact (hasking proceeds).elim
  | delivered outcomes ending evaluates pending lost still numbered resumed =>
      obtain rfl := evaluates.unique hends
      cases ending
      exact ⟨outcomes, pending⟩
  | lost outcomes lost pending evaluates still numbered resumed =>
      cases hends.unique evaluates

/-- How far a run has come with a guarded effect since it has met it on connection `c` with
certain frames pending.  The effect has a story of its own, `inner`. -/
inductive Guard.Progress (g : Guard S) (r : Origin S) (e : Effect S) (c : Connection)
    (frames : List (Frame S)) (st : Story S) (s' : State S σ) (st' inner : Story S) : Prop
  /-- It has done nothing yet. -/
  | meets (beginning : inner = .beginning) (asked : st'.exchanges = st.exchanges)
      (called : st'.called = st.called) (outcomes : st'.outcomes = [])
  /-- It has done what the effect has. -/
  | inside (unfinished : inner.outcomes = [])
      (asked : st'.exchanges = st.exchanges ++ openLook c :: inner.exchanges)
      (pending : st'.pending = inner.pending) (called : st'.called = st.called ++ inner.called)
      (outcomes : st'.outcomes = [])
  /-- The cancellation of a connection has been observed, before the effect or in it, and is
  delivered.  The guard has asked nothing. -/
  | canceled (aborts : Evaluates (.eval c e) inner.exchanges .aborted)
      (ends : inner.outcomes = [.error .cancelled])
      (asked : st'.exchanges = st.exchanges ++ inner.exchanges ∨
        st'.exchanges = st.exchanges ++ openLook c :: inner.exchanges)
      (called : st'.called = st.called ++ inner.called)
      (outcomes : st'.outcomes = [.error .cancelled])
  /-- The effect has exited under connection `d`, and the code of the guard is asked for the exit,
  while the run is active on that connection. -/
  | sees {d : Connection} {o : Outcome} {q : Question S}
      (exits : Evaluates (.eval c e) inner.exchanges (.exited d o)) (ends : inner.outcomes = [o])
      (asks : g.question? o = some q)
      (asked : st'.exchanges = st.exchanges ++ openLook c :: inner.exchanges)
      (pending : st'.pending = none ∨ st'.pending = some q)
      (called : st'.called = st.called ++ inner.called ++ st'.pending.toList)
      (active : st'.pending = some q → st'.lost = false → ∃ stack, Active r st' s' d stack)
      (outcomes : st'.outcomes = [])
  /-- The guard has taken the exit, with what its code has answered, if it has been asked, and is
  gone: the run has gone on in front of the other frames. -/
  | onward {d : Connection} {o : Outcome} {qs ws : List (Exchange S)} {m n : Course S}
      (exits : Evaluates (.eval c e) inner.exchanges (.exited d o)) (ends : inner.outcomes = [o])
      (takes : g.Takes d o qs m)
      (asked : st'.exchanges = st.exchanges ++ openLook c :: inner.exchanges ++ qs ++ ws)
      (proceeds : Proceeds (m.within frames) ws n) (rests : Rests st' n)

/-- What a run of a guarded effect by itself, with no other frames, has come to when it ends with
outcome `o`.  The effect has a story of its own, `inner`. -/
inductive Guard.Ended (g : Guard S) (e : Effect S) (c : Connection) (st st' inner : Story S)
    (o : Outcome) : Prop
  /-- A cancellation has been observed, and the code of the guard has not been called. -/
  | canceled (aborts : Evaluates (.eval c e) inner.exchanges .aborted)
      (called : st'.called = st.called ++ inner.called) (outcome : o = .error .cancelled)
  /-- The guard has taken the exit after all that the effect has called, and what it goes on with
  has come to the outcome. -/
  | taken {d : Connection} {exit : Outcome} {qs ws : List (Exchange S)} {m : Course S}
      {ending : Ending S} (exits : Evaluates (.eval c e) inner.exchanges (.exited d exit))
      (takes : g.Takes d exit qs m)
      (called : st'.called = st.called ++ inner.called ++ calledIn (qs ++ ws))
      (evaluates : Evaluates m ws ending) (outcome : ending.outcome? = some o)

/-- What a run does with a guarded effect that it has met under connection `c` with certain frames
pending. -/
structure Guards (P : Program S σ) (r : Origin S) (g : Guard S) (e : Effect S) (c : Connection)
    (frames : List (Frame S)) (st : Story S) (s' : State S σ) (st' inner : Story S) : Prop where
  /-- The effect does what it does by itself on that connection. -/
  alone : inner.AloneOn c e
  /-- So it makes the same calls as any run of it there with the same answers, and has the same
  exit; and when both have come to their end, they have found the same connections canceled. -/
  sameCalls : ∀ {σ' : Type} {P' : Program S σ'} {r₀ : Origin S} {s₀ : State S σ'} {st₀ : Story S},
    Follows P' r₀ s₀ st₀ → r₀.effect = e → r₀.connection = c → r₀.stack.toList = [] →
    SameAnswers inner.exchanges st₀.exchanges → SameCalls (fun _ => none) Eq inner st₀ ∧
      (inner.outcomes ≠ [] → st₀.outcomes ≠ [] → inner.exchanges = st₀.exchanges)
  /-- The run does what the effect does; the guard sees the exit of the effect, and no
  cancellation that is observed. -/
  progress : g.Progress r e c frames st s' st' inner
  /-- With no other frames, it ends as the guard has it. -/
  ended : frames = [] → ∀ o ∈ st'.outcomes, g.Ended e c st st' inner o
  /-- When the run asks, the machine starts the code that is asked, with what the question
  names. -/
  starts : ∀ q, st'.pending = none → (st'.next r.depth s').pending = some q →
    q.Started P (st'.next r.depth s') (s'.next P)
  /-- The answers come from that code: they are what it comes back with, or the failures of
  its panics. -/
  answers : ∀ x ∈ st'.exchanges, x.question.Yields P x.answer
  /-- While it waits for no answer it goes on, until it has its outcome. -/
  goes : st'.pending = none → st'.outcomes = [] → ∃ n ≤ 3, Advances P r n s' st'

/-- An effect that comes to a value by itself calls what it calls, and its value is let out: no
handler is called. -/
def ValuePasses (st st' inner : Story S) : Prop :=
  ∀ v, inner.outcomes = [.ok v] →
    st'.called = st.called ++ inner.called ∧ ∀ o ∈ st'.outcomes, o = .ok v

/-- What an attempt at an effect may end with: the value of the effect, a description of the
failure that the effect exits with, or a cancellation that has been observed. -/
inductive Attempted (e : Effect S) (c : Connection) (st' inner : Story S) : Outcome → Prop
  | value {v : Value} (ends : inner.outcomes = [.ok v]) : Attempted e c st' inner (.ok v)
  | failure {d : Connection} {failure : Failure}
      (exits : Evaluates (.eval c e) inner.exchanges (.exited d (.error failure))) :
      Attempted e c st' inner (.ok (.error failure.toInfo))
  | canceled {d : Connection} (found : st'.exchanges.getLast? = some ⟨.canceled d, true⟩) :
      Attempted e c st' inner (.error .cancelled)

/-- The story of an effect that has come to its end by itself. -/
theorem Story.aloneOn_exited {c : Connection} {e : Effect S} {xs : List (Exchange S)}
    {m : Course S} {o : Outcome} (h : Proceeds (.eval c e) xs m) (ho : m.head.outcome? = some o) :
    (Story.exited xs o).AloneOn c e :=
  ⟨m, h, by simp [Story.exited, Story.beginning], fun o' ho' => by
    rw [List.mem_singleton.mp ho', ho]⟩

/-- An effect that has come to its end by itself has called for what it has been answered. -/
theorem Story.AloneOn.called_eq {c : Connection} {e : Effect S} {inner : Story S}
    (h : inner.AloneOn c e) (hout : inner.outcomes ≠ []) :
    inner.called = calledIn inner.exchanges := by
  obtain ⟨m, -, rests⟩ := h
  obtain ⟨o, ho⟩ := List.exists_mem_of_ne_nil _ hout
  exact Story.called_of_idle (rests.pending_eq (rests.outcome o ho))

/-- What has been called for by a run that rests in front of an evaluation. -/
theorem Rests.called_of_calling {st : Story S} {n : Course S} (h : Rests st n)
    (hn : n.calling = []) : st.called = calledIn st.exchanges := by
  obtain ⟨p, hp, hcalled⟩ := h.called
  rw [hn] at hp
  rw [hcalled, List.prefix_nil.mp hp, List.append_nil]

section

variable {P : Program S σ} {r : Origin S} {g : Guard S} {e : Effect S} {c : Connection}
  {frames : List (Frame S)} {st st' : Story S} {s' : State S σ} {xs : List (Exchange S)}
  {m n : Course S}

/-- A run that has observed a cancellation in front of a guarded effect, or in it, has ended with
that, as the effect does by itself. -/
theorem Guard.Progress.of_aborted (htracks : Tracks P r s' st')
    (hn : Proceeds r.course st'.exchanges n) (ha : n.head = .aborted)
    (hcalled : st.called = calledIn st.exchanges) (hm : Proceeds (.eval c e) xs m)
    (hhead : m.head = .aborted) (asked : st'.exchanges = st.exchanges ++ xs ∨
      st'.exchanges = st.exchanges ++ openLook c :: xs) :
    ∃ inner : Story S, inner.AloneOn c e ∧ g.Progress r e c frames st s' st' inner := by
  obtain ⟨hout, hpending⟩ := htracks.delivered_of_aborted hn ha
  refine ⟨_, Story.aloneOn_exited hm (by rw [hhead]; rfl), .canceled ?_ rfl asked ?_ hout⟩
  · exact evaluates_iff_proceeds.mpr ⟨m, hm, by rw [hhead]; rfl⟩
  · rw [Story.called_exited, hcalled, ← calledIn_append, Story.called_of_idle hpending]
    rcases asked with asked | asked
    · rw [asked]
    · rw [asked]
      simp [openLook]

/-- A run whose guarded effect has exited, and that rests before the question of the guard, may
wait for the answer to that, on the connection of the exit. -/
theorem Guard.Progress.of_asks {d : Connection} {o : Outcome} {q : Question S}
    {next : q.Answer → Course S} (htracks : Tracks P r s' st')
    (hn : Proceeds r.course st'.exchanges n) (hrests : Rests st' n)
    (hcalled : st.called = calledIn st.exchanges) (hm : Proceeds (.eval c e) xs m)
    (hexit : m.head = .exited d o) (hq : g.question? o = some q)
    (asking : n = (Course.ask q next).within frames) (given : n = (g.frame.move d o).within frames)
    (asked : st'.exchanges = st.exchanges ++ openLook c :: xs) :
    ∃ inner : Story S, inner.AloneOn c e ∧ g.Progress r e c frames st s' st' inner := by
  have hhead : n.head = .asks q fun a => (next a).within frames :=
    asking ▸ Course.head_within_asks rfl _
  have hpending : st'.pending = none ∨ st'.pending = some q := hrests.pending_of_asks hhead
  have hcall : q.isCall (fun _ => none) = true := by
    refine Question.isCall_of_ne fun c hc => ?_
    rw [hc, ← g.question?_frame] at hq
    exact Frame.direct hq
  refine ⟨_, Story.aloneOn_exited hm (by rw [hexit]; rfl), .sees
    (evaluates_iff_proceeds.mpr ⟨m, hm, by rw [hexit]; rfl⟩) rfl hq asked hpending ?_
    (fun hq' hlost => ?_) (hrests.outcomes_eq_nil (by rw [hhead, Head.outcome?_asks]))⟩
  · rw [Story.called_exited, hcalled]
    simp only [Story.called, Story.calls, asked]
    rcases hpending with hp | hp <;> simp [hp, calledIn, callsOf, Question.isCall, openLook]
    exact hcall
  · obtain ⟨d', stack, hactive, -, hon⟩ := htracks.on_of_pending hq' hlost
    have hgo : r.On st'.exchanges d := by
      refine ⟨n, hn, ?_, fun ha => ?_⟩
      · rw [given]
        exact (Course.under_within _).mpr (g.frame.under_move d o)
      · rw [hhead] at ha
        cases ha
    obtain rfl := hgo.unique hon
    exact ⟨stack, hactive⟩

end

/-- A run that meets a guarded effect runs the effect in front of the guard. -/
theorem Leads.progress {P : Program S σ} {r : Origin S} {w : World S σ} {run : Loop S}
    {g : Guard S} {e : Effect S} {rest : List (Activation S σ)} {st st' : Story S}
    {s' : State S σ}
    (hl : Leads P r (.running w (.eval (.loop run) (.bind e g.frame)) rest) st s' st')
    (hf : Follows P r (.running w (.eval (.loop run) (.bind e g.frame)) rest) st)
    (hturn : st.takesTurn r.depth (.eval (.loop run) (.bind e g.frame) : Activation S σ) rest =
      true) :
    ∃ inner : Story S, inner.AloneOn run.connection e ∧
      g.Progress r e run.connection run.stack.toList st s' st' inner := by
  obtain ⟨live, proceeds⟩ := hf.tracks.of_turn_eval hturn
  have hcalled : st.called = calledIn st.exchanges := Story.called_of_idle live.pending
  obtain ⟨zs, n, hzs, hn, hrests⟩ := hl.onward hf hturn
  have htracks := (hl.follows hf).tracks
  have hall : Proceeds r.course st'.exchanges n := hzs ▸ proceeds.trans hn
  cases hn.guarded with
  | meets =>
      obtain ⟨hcalled', hout⟩ := hrests.called_of_eval
      refine ⟨.beginning, ⟨_, .refl _, by simp [Story.beginning], by simp [Story.beginning]⟩,
        .meets rfl (by simpa using hzs) ?_ hout⟩
      rw [hcalled', hcalled, hzs, List.append_nil]
  | refused =>
      have habort : Proceeds (.eval run.connection e) [⟨.canceled run.connection, true⟩] .abort :=
        Proceeds.look run.connection e true
      exact Guard.Progress.of_aborted htracks hall (Course.head_within_aborted rfl _) hcalled habort
        rfl (.inl hzs)
  | @inside xs m hm =>
      by_cases ha : m.head = .aborted
      · exact Guard.Progress.of_aborted htracks hall
          (Course.head_within_aborted (Course.head_seq_aborted ha _) _) hcalled hm ha (.inr hzs)
      · obtain ⟨hout, hpending⟩ := hrests.of_seq ha
        refine ⟨{ Story.beginning with exchanges := xs, pending := st'.pending },
          ⟨m, hm, hpending, by simp [Story.beginning]⟩, .inside rfl hzs rfl ?_ hout⟩
        rw [hcalled]
        simp only [Story.called, Story.calls, hzs]
        simp [calledIn, callsOf, Question.isCall, openLook]
  | sees hm hexit hq asking given =>
      exact Guard.Progress.of_asks htracks hall hrests hcalled hm hexit hq asking given hzs
  | @onward xs qs ws m k _ d o hm hexit htakes hrest =>
      refine ⟨_, Story.aloneOn_exited hm (by rw [hexit]; rfl), .onward
        (evaluates_iff_proceeds.mpr ⟨m, hm, by rw [hexit]; rfl⟩) rfl htakes ?_ hrest hrests⟩
      rw [hzs]
      simp

/-- A run of a guarded effect by itself that has its outcome has been canceled, or its guard has
taken the exit. -/
theorem Guard.Progress.ended {r : Origin S} {g : Guard S} {e : Effect S} {c : Connection}
    {st : Story S} {s' : State S σ} {st' inner : Story S}
    (hp : g.Progress r e c [] st s' st' inner) (hcalled : st.called = calledIn st.exchanges)
    (halone : inner.AloneOn c e) {o : Outcome} (ho : o ∈ st'.outcomes) :
    g.Ended e c st st' inner o := by
  cases hp with
  | meets beginning asked called outcomes => simp [outcomes] at ho
  | inside unfinished asked pending called outcomes => simp [outcomes] at ho
  | sees exits ends asks asked pending called active outcomes => simp [outcomes] at ho
  | canceled aborts ends asked called outcomes =>
      rw [outcomes, List.mem_singleton] at ho
      exact .canceled aborts called ho
  | @onward d exit qs ws m n exits ends takes asked proceeds rests =>
      have hout : n.head.outcome? = some o := rests.outcome o ho
      obtain ⟨ending, hending, houtcome⟩ := Option.bind_eq_some_iff.mp hout
      refine .taken exits takes ?_ (evaluates_iff_proceeds.mpr ⟨n, proceeds, hending⟩) houtcome
      rw [Story.called_of_idle (rests.pending_eq hout), asked, hcalled,
        halone.called_eq (by simp [ends])]
      simp only [← calledIn_append, List.append_assoc]
      simp [calledIn, callsOf, Question.isCall, openLook]

/-- A handler by itself lets a value out: what it goes on with after a value is the value. -/
theorem Guard.Progress.valuePasses {r : Origin S} {g : Guard S} {e : Effect S} {c : Connection}
    {st : Story S} {s' : State S σ} {st' inner : Story S}
    (hp : g.Progress r e c [] st s' st' inner) (hcalled : st.called = calledIn st.exchanges)
    (halone : inner.AloneOn c e) (hquestion : ∀ v, g.question? (.ok v) = none)
    (hpasses : ∀ {d v qs m}, g.Takes d (.ok v) qs m → qs = [] ∧ m = .exit d (.ok v)) :
    ValuePasses st st' inner := by
  intro v hv
  cases hp with
  | meets beginning asked called outcomes => simp [beginning, Story.beginning] at hv
  | inside unfinished asked pending called outcomes => simp [hv] at unfinished
  | canceled aborts ends asked called outcomes => simp [hv] at ends
  | sees exits ends asks asked pending called active outcomes =>
      simp only [hv, List.cons.injEq, and_true] at ends
      subst ends
      rw [hquestion v] at asks
      cases asks
  | onward exits ends takes asked proceeds rests =>
      simp only [hv, List.cons.injEq, and_true] at ends
      subst ends
      obtain ⟨rfl, rfl⟩ := hpasses takes
      obtain ⟨rfl, rfl⟩ := proceeds.of_outcome (o := .ok v) rfl
      refine ⟨?_, fun o ho => ?_⟩
      · rw [rests.called_of_calling rfl, hcalled, halone.called_eq (by simp [hv]), asked]
        simp [openLook]
      · have hout := rests.outcome o ho
        rw [Course.within_nil, Course.head, Head.outcome?_exited, Option.some.injEq] at hout
        exact hout.symm

/-- An evaluation that has come from a value as a node to an outcome has looked at the connection:
it has the value, or it has found the connection canceled. -/
theorem Proceeds.of_pure {c : Connection} {v : Value} {ws : List (Exchange S)} {n : Course S}
    (h : Proceeds (.eval c (.pure v)) ws n) {o : Outcome} (ho : n.head.outcome? = some o) :
    n.calling = [] ∧ (ws = [openLook c] ∧ o = .ok v ∨
      ws = [⟨.canceled c, true⟩] ∧ o = .error .cancelled) := by
  have hnode : Proceeds ((Course.eval c (.pure v)).within []) ws n := h
  rcases hnode.of_node with ⟨-, rfl⟩ | ⟨rfl, rfl⟩ | ⟨zs, rfl, hgo⟩
  · cases ho
  · cases ho
    exact ⟨rfl, .inr ⟨rfl, rfl⟩⟩
  · obtain ⟨rfl, rfl⟩ := Proceeds.of_outcome (o := .ok v) hgo rfl
    cases ho
    exact ⟨rfl, .inl ⟨rfl, rfl⟩⟩

/-- An attempt by itself ends with a value, with a description of a failure, or with a
cancellation that has been observed. -/
theorem Guard.Progress.attempt {r : Origin S} {e : Effect S} {c : Connection} {st : Story S}
    {s' : State S σ} {st' inner : Story S}
    (hp : Guard.attempt.Progress r e c [] st s' st' inner)
    (hcalled : st.called = calledIn st.exchanges) (halone : inner.AloneOn c e) {o : Outcome}
    (ho : o ∈ st'.outcomes) :
    st'.called = st.called ++ inner.called ∧ Attempted e c st' inner o := by
  cases hp with
  | meets beginning asked called outcomes => simp [outcomes] at ho
  | inside unfinished asked pending called outcomes => simp [outcomes] at ho
  | sees exits ends asks asked pending called active outcomes => simp [outcomes] at ho
  | canceled aborts ends asked called outcomes =>
      rw [outcomes, List.mem_singleton] at ho
      obtain ⟨m, hm, hhead⟩ := aborts.proceeds
      have ha : m.head = .aborted := by
        cases hh : m.head <;> simp_all [Head.ending?]
      have hunder : (Course.eval c e).Under c := rfl
      obtain ⟨d, hlast⟩ := hm.last_of_aborted hunder (by simp [Course.head]) ha
      subst ho
      have hfound : st'.exchanges.getLast? = some ⟨.canceled d, true⟩ := by
        rcases asked with asked | asked <;> simp [asked, List.getLast?_cons, hlast]
      exact ⟨called, .canceled hfound⟩
  | @onward d o' qs ws m n exits ends takes asked proceeds rests =>
      -- Whatever the effect has exited with is met as a value once more.
      obtain ⟨v, hqs, hmeets, hv⟩ : ∃ v, qs = [] ∧ m = Course.eval d (.pure v) ∧
          Attempted e c st' inner (.ok v) := by
        cases takes with
        | yields v => exact ⟨v, rfl, rfl, .value ends⟩
        | reifies e => exact ⟨_, rfl, rfl, .failure exits⟩
      subst hqs hmeets
      obtain ⟨hcalling, hends⟩ := Proceeds.of_pure proceeds (rests.outcome o ho)
      rw [rests.called_of_calling hcalling, hcalled, halone.called_eq (by simp [ends])]
      rcases hends with ⟨rfl, rfl⟩ | ⟨rfl, rfl⟩
      · exact ⟨by rw [asked]; simp [openLook], hv⟩
      · exact ⟨by rw [asked]; simp [openLook], .canceled (by rw [asked, List.getLast?_concat])⟩

section

variable {P : Program S σ} {r : Origin S} {w : World S σ} {run : Loop S} {e : Effect S}
  {rest : List (Activation S σ)} {st st' : Story S} {s' : State S σ}

/-- A run that meets an effect in front of the frame of a guard. -/
theorem Leads.guard {g : Guard S}
    (hl : Leads P r (.running w (.eval (.loop run) (.bind e g.frame)) rest) st s' st')
    (hf : Follows P r (.running w (.eval (.loop run) (.bind e g.frame)) rest) st)
    (hturn : st.takesTurn r.depth (.eval (.loop run) (.bind e g.frame) : Activation S σ) rest =
      true) :
    ∃ inner : Story S, Guards P r g e run.connection run.stack.toList st s' st' inner := by
  obtain ⟨inner, halone, hprogress⟩ := hl.progress hf hturn
  have hcalled : st.called = calledIn st.exchanges :=
    Story.called_of_idle (hf.tracks.of_turn_eval hturn).1.pending
  have htracks := (hl.follows hf).tracks
  refine ⟨inner, halone, fun hf₀ effect connection stack alike =>
    ⟨halone.sameCalls hf₀ effect connection stack alike,
      halone.exchanges_eq hf₀ effect connection stack alike⟩, hprogress, fun hframes o ho => ?_,
    fun q hnone hq => htracks.starts (hl.follows hf).reachable.bounded hnone hq,
    (hl.follows hf).yields, htracks.goes⟩
  rw [hframes] at hprogress
  exact hprogress.ended hcalled halone ho

/-- A run that meets an effect in front of a handler, which lets values pass. -/
theorem Leads.guard_passing {g : Guard S}
    (hl : Leads P r (.running w (.eval (.loop run) (.bind e g.frame)) rest) st s' st')
    (hf : Follows P r (.running w (.eval (.loop run) (.bind e g.frame)) rest) st)
    (hturn : st.takesTurn r.depth (.eval (.loop run) (.bind e g.frame) : Activation S σ) rest =
      true)
    (hquestion : ∀ v, g.question? (.ok v) = none)
    (hpasses : ∀ {d v qs m}, g.Takes d (.ok v) qs m → qs = [] ∧ m = .exit d (.ok v)) :
    ∃ inner : Story S, Guards P r g e run.connection run.stack.toList st s' st' inner ∧
      (run.stack.toList = [] → ValuePasses st st' inner) := by
  obtain ⟨inner, hguards⟩ := hl.guard hf hturn
  have hcalled : st.called = calledIn st.exchanges :=
    Story.called_of_idle (hf.tracks.of_turn_eval hturn).1.pending
  refine ⟨inner, hguards, fun hframes => ?_⟩
  have hprogress := hguards.progress
  rw [hframes] at hprogress
  exact hprogress.valuePasses hcalled hguards.alone hquestion hpasses

/-- A run that meets `handleErrorWith`. -/
theorem Leads.handleErrorWith {h : S.Handler}
    (hl : Leads P r (.running w (.eval (.loop run) (e.handleErrorWith h)) rest) st s' st')
    (hf : Follows P r (.running w (.eval (.loop run) (e.handleErrorWith h)) rest) st)
    (hturn : st.takesTurn r.depth (.eval (.loop run) (e.handleErrorWith h) : Activation S σ) rest =
      true) :
    ∃ inner : Story S,
      Guards P r (.handleErrorWith h) e run.connection run.stack.toList st s' st' inner ∧
        (run.stack.toList = [] → ValuePasses st st' inner) := by
  refine Leads.guard_passing (g := .handleErrorWith h) hl hf hturn (fun _ => rfl) fun takes => ?_
  cases takes
  exact ⟨rfl, rfl⟩

/-- A run that meets `handleError`. -/
theorem Leads.handleError {h : S.Rescue}
    (hl : Leads P r (.running w (.eval (.loop run) (e.handleError h)) rest) st s' st')
    (hf : Follows P r (.running w (.eval (.loop run) (e.handleError h)) rest) st)
    (hturn : st.takesTurn r.depth (.eval (.loop run) (e.handleError h) : Activation S σ) rest =
      true) :
    ∃ inner : Story S,
      Guards P r (.handleError h) e run.connection run.stack.toList st s' st' inner ∧
        (run.stack.toList = [] → ValuePasses st st' inner) := by
  refine Leads.guard_passing (g := .handleError h) hl hf hturn (fun _ => rfl) fun takes => ?_
  cases takes
  exact ⟨rfl, rfl⟩

/-- A run that meets `redeemWith`. -/
theorem Leads.redeemWith {onError : S.Handler} {onValue : S.Bind}
    (hl : Leads P r (.running w (.eval (.loop run) (e.redeemWith onError onValue)) rest) st s' st')
    (hf : Follows P r (.running w (.eval (.loop run) (e.redeemWith onError onValue)) rest) st)
    (hturn : st.takesTurn r.depth
      (.eval (.loop run) (e.redeemWith onError onValue) : Activation S σ) rest = true) :
    ∃ inner : Story S,
      Guards P r (.redeemWith onError onValue) e run.connection run.stack.toList st s' st' inner :=
  Leads.guard (g := .redeemWith onError onValue) hl hf hturn

/-- A run that meets `attempt`. -/
theorem Leads.attempt
    (hl : Leads P r (.running w (.eval (.loop run) e.attempt) rest) st s' st')
    (hf : Follows P r (.running w (.eval (.loop run) e.attempt) rest) st)
    (hturn : st.takesTurn r.depth (.eval (.loop run) e.attempt : Activation S σ) rest = true) :
    ∃ inner : Story S,
      Guards P r .attempt e run.connection run.stack.toList st s' st' inner ∧
        (run.stack.toList = [] → ∀ o ∈ st'.outcomes,
          st'.called = st.called ++ inner.called ∧ Attempted e run.connection st' inner o) := by
  obtain ⟨inner, hguards⟩ := Leads.guard (g := .attempt) hl hf hturn
  refine ⟨inner, hguards, fun hframes o ho => ?_⟩
  have hprogress := hguards.progress
  rw [hframes] at hprogress
  refine hprogress.attempt ?_ hguards.alone ho
  exact Story.called_of_idle (hf.tracks.of_turn_eval hturn).1.pending

end

/-- A run that meets an effect with one of the four combinators around it runs the effect as it
runs by itself, and the combinator sees the exit that the effect comes to. -/
theorem Follows.guards {P : Program S σ} {r : Origin S} {w : World S σ} {run : Loop S}
    {e guarded : Effect S} {rest : List (Activation S σ)} {st st' : Story S} {s' : State S σ}
    (hf : Follows P r (.running w (.eval (.loop run) guarded) rest) st)
    (hturn : st.takesTurn r.depth (.eval (.loop run) guarded : Activation S σ) rest = true)
    (hl : Leads P r (.running w (.eval (.loop run) guarded) rest) st s' st') :
    (∀ h, guarded = e.handleErrorWith h → ∃ inner : Story S,
      Guards P r (.handleErrorWith h) e run.connection run.stack.toList st s' st' inner ∧
        (run.stack.toList = [] → ValuePasses st st' inner)) ∧
    (∀ h, guarded = e.handleError h → ∃ inner : Story S,
      Guards P r (.handleError h) e run.connection run.stack.toList st s' st' inner ∧
        (run.stack.toList = [] → ValuePasses st st' inner)) ∧
    (∀ onError onValue, guarded = e.redeemWith onError onValue → ∃ inner : Story S,
      Guards P r (.redeemWith onError onValue) e run.connection run.stack.toList st s' st'
        inner) ∧
    (guarded = e.attempt → ∃ inner : Story S,
      Guards P r .attempt e run.connection run.stack.toList st s' st' inner ∧
        (run.stack.toList = [] → ∀ o ∈ st'.outcomes,
          st'.called = st.called ++ inner.called ∧
            Attempted e run.connection st' inner o)) := by
  refine ⟨fun h heq => ?_, fun h heq => ?_, fun onError onValue heq => ?_, fun heq => ?_⟩
  · subst heq
    exact hl.handleErrorWith hf hturn
  · subst heq
    exact hl.handleError hf hturn
  · subst heq
    exact hl.redeemWith hf hturn
  · subst heq
    exact hl.attempt hf hturn

/-! ## A host with handlers -/

/-- What the delayed code of a small host does. -/
inductive Lapse where
  /-- It comes back with the failure of a cancellation, which no connection has had. -/
  | fails
  /-- It cancels a connection. -/
  | cancels (c : Connection)

namespace Lapse

/-- The names of a host with delayed code, handlers, and code for values. -/
def closures : Closures where
  Thunk := Empty
  Delay := Lapse
  Registration := Empty
  Body := Empty
  Bind := Failure
  Map := Empty
  Handler := Value
  Rescue := Empty
  Modify := Empty
  Restore := Empty
  Token := Empty
  Terminal := Unit
  Task := Empty
  Executor := Empty

/-- The code of that host.  A handler comes back with a value, and the code for a value with an
effect that fails. -/
def program : Program closures Unit where
  thunk := nofun
  delay
    | fails => .done (.error .cancelled)
    | cancels c => .command (.cancel c) fun _ => .done (.error .cancelled)
  registration := nofun
  body := nofun
  bind e _ := .done (.fail e)
  map := nofun
  handler v _ := .done (.pure v)
  rescue := nofun
  modify := nofun
  restore := nofun
  token := nofun
  terminal _ _ := .done ()
  task := nofun
  executor := nofun
  observe _ host := host

/-- The first cancelable connection. -/
def first : Connection :=
  .cancelable 0

/-- A run of an effect on that connection, with the code that has started it below. -/
def origin (e : Effect closures) : Origin closures where
  effect := e
  connection := first
  stack := .empty
  terminal := .user ()
  depth := 1

/-- The code that creates the connection and starts the run. -/
def code (e : Effect closures) : Code closures Unit Unit :=
  .query .newConnection fun c => .perform (.run e c (.user ()))

/-- So many steps of a run on that host, with their story. -/
def play (e : Effect closures) (n : Nat) : State closures Unit × Story closures :=
  chronicle program 1 n
    (.running (((State.start (.initial () "main") (code e)).next program).next program).world
      (origin e).activation [.code (.done ())], .beginning)

/-- These are steps of a run. -/
theorem follows_play (e : Effect closures) (n : Nat) :
    Follows program (origin e) (play e n).1 (play e n).2 :=
  Follows.chronicle (.start (.next (.next (.start () "main" (code e)))) rfl) n

/-- Delayed code with a handler around it. -/
def handled (lapse : Lapse) : Effect closures :=
  .handleErrorWith (.delay lapse) (.bool true)

/-- An attempt at delayed code. -/
def attempted (lapse : Lapse) : Effect closures :=
  .attempt (.delay lapse)

/-- A value whose code fails, beside a handler for failures. -/
def redeemed : Effect closures :=
  .redeemWith (.pure (.bool false)) (.bool true) (.panicked "astray")

/-- The beginning of a run leads to all that comes later. -/
theorem leads_play (e : Effect closures) (n : Nat) :
    Leads program (origin e) (play e 0).1 (play e 0).2 (play e n).1 (play e n).2 :=
  Leads.now.chronicle n

/-- A handler sees the failure that looks like a cancellation, an attempt describes it, and the
handler beside the code for a value does not see how that fails; the cancellation itself neither of
them sees. -/
theorem guards_lapse :
    ((play (handled fails) 12).2.called = [.delay fails, .handler (.bool true) .cancelled] ∧
      (play (handled fails) 12).2.outcomes = [.ok (.bool true)] ∧
      ∃ inner, Guards program (origin (handled fails)) (.handleErrorWith (.bool true))
        (.delay fails) first [] (play (handled fails) 0).2 (play (handled fails) 12).1
        (play (handled fails) 12).2 inner) ∧
      ((play (attempted fails) 12).2.called = [.delay fails] ∧
        (play (attempted fails) 12).2.outcomes = [.ok (.error Failure.cancelled.toInfo)] ∧
        ∃ inner, Guards program (origin (attempted fails)) .attempt (.delay fails) first []
            (play (attempted fails) 0).2 (play (attempted fails) 12).1
            (play (attempted fails) 12).2 inner ∧
          Attempted (.delay fails) first (play (attempted fails) 12).2 inner
            (.ok (.error Failure.cancelled.toInfo))) ∧
      ((play redeemed 12).2.called = [.bind (.panicked "astray") (.bool false)] ∧
        (play redeemed 12).2.outcomes = [.error (.panicked "astray")] ∧
        ∃ inner, Guards program (origin redeemed) (.redeemWith (.bool true) (.panicked "astray"))
          (.pure (.bool false)) first [] (play redeemed 0).2 (play redeemed 12).1
          (play redeemed 12).2 inner) ∧
      (∀ e ∈ [handled (cancels first), attempted (cancels first)],
        (play e 12).2.called = [.delay (cancels first)] ∧
          (play e 12).2.outcomes = [.error .cancelled]) := by
  obtain ⟨inner, hhandled, -⟩ := (Follows.guards (follows_play (handled fails) 0) rfl
    (leads_play (handled fails) 12)).1 (.bool true) rfl
  obtain ⟨inner', hattempted, hends⟩ := (Follows.guards (follows_play (attempted fails) 0) rfl
    (leads_play (attempted fails) 12)).2.2.2 rfl
  obtain ⟨inner'', hredeemed⟩ := (Follows.guards (follows_play redeemed 0) rfl
    (leads_play redeemed 12)).2.2.1 (.bool true) (.panicked "astray") rfl
  have hout : (play (attempted fails) 12).2.outcomes = [.ok (.error Failure.cancelled.toInfo)] :=
    rfl
  have hattempt := (hends rfl _ (by rw [hout]; exact List.mem_singleton_self _)).2
  refine ⟨⟨rfl, rfl, inner, hhandled⟩, ⟨rfl, hout, inner', hattempted, hattempt⟩,
    ⟨rfl, rfl, inner'', hredeemed⟩, ?_⟩
  simp only [List.forall_mem_cons, List.not_mem_nil, false_implies, implies_true, and_true]
  exact ⟨⟨rfl, rfl⟩, rfl, rfl⟩

end Lapse

end Trampoline
