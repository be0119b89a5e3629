import Trampoline.Proofs.Threads.Segments
import Trampoline.Proofs.Run.Guarding

/-!
# Shifts to other contexts

A link of a chain that continues on a context is rewritten twice: the node becomes a bind whose
frame makes, of the value that comes to it, a deferred computation that completes with that value.
So a value is submitted to the context once, and what follows goes on with it where the context has
run the task.  A failure passes the frame, and a cancellation that is observed ends the run; then
nothing is submitted.

Main definitions and results:

- Definition `Shifted`, theorem `Proceeds.shifted`: a link in the evaluator.
- Theorem `LeadsOnThreads.entered`: the answer for which a run has suspended takes it up.
- Definition `Shifts`, theorem `LeadsOnThreads.shifts`: a link in a run, with the threads.
-/

namespace Trampoline

variable {S : Closures} {σ : Type}

/-! ## A link in the evaluator -/

/-- How far an evaluation that meets a link under a connection has come with it.  The two looks at
the connection are those in front of the link and of the bind that it becomes. -/
inductive Shifted (context : Context S.Executor) (e : Effect S) (c : Connection)
    (frames : List (Frame S)) : List (Exchange S) → Course S → Prop
  /-- It is in front of the effect, after one look, or after none. -/
  | meets {looks : List (Exchange S)} {e' : Effect S} (h : looks <+: [openLook c]) :
      Shifted context e c frames looks ((Course.eval c e').within frames)
  /-- The connection has been canceled before. -/
  | refused {looks : List (Exchange S)} (h : looks <+: [openLook c]) :
      Shifted context e c frames (looks ++ [⟨.canceled c, true⟩]) (Course.abort.within frames)
  /-- The effect is evaluated as it is by itself. -/
  | inside {xs : List (Exchange S)} {m : Course S} (h : Proceeds (.eval c e) xs m) :
      Shifted context e c frames ([openLook c, openLook c] ++ xs)
        ((Course.seq m (.bind (.shift context))).within frames)
  /-- The effect has failed, and the evaluation has gone on without the link. -/
  | fails {xs ws : List (Exchange S)} {n : Course S} {d : Connection} {x : Failure}
      (exits : Evaluates (.eval c e) xs (.exited d (.error x)))
      (rest : Proceeds ((Course.exit d (.error x)).within frames) ws n) :
      Shifted context e c frames ([openLook c, openLook c] ++ xs ++ ws) n
  /-- The effect has a value, which is met as a deferred computation. -/
  | shifts {xs ws : List (Exchange S)} {n : Course S} {d : Connection} {v : Value}
      (exits : Evaluates (.eval c e) xs (.exited d (.ok v)))
      (rest : Proceeds ((Course.eval d (.deferred context (.succeed v))).within frames) ws n) :
      Shifted context e c frames ([openLook c, openLook c] ++ xs ++ ws) n

/-- An evaluation that meets a link evaluates the effect in front of the frame of the link. -/
theorem Proceeds.shifted {context : Context S.Executor} {e : Effect S} {c : Connection}
    {frames : List (Frame S)} {zs : List (Exchange S)} {n : Course S}
    (h : Proceeds ((Course.eval c (.continueOn context e)).within frames) zs n) :
    Shifted context e c frames zs n := by
  rcases h.of_node with ⟨rfl, rfl⟩ | ⟨rfl, rfl⟩ | ⟨ws, rfl, hbind⟩
  · exact .meets (List.nil_prefix)
  · exact .refused (List.nil_prefix)
  have hbind' : Proceeds ((Course.eval c (.bind e (.bind (.shift context)))).within frames) ws n :=
    hbind
  rcases hbind'.of_node with ⟨rfl, rfl⟩ | ⟨rfl, rfl⟩ | ⟨ws, rfl, hinside⟩
  · exact .meets List.prefix_rfl
  · exact .refused List.prefix_rfl
  have hinside' : Proceeds ((Course.seq (.eval c e) (.bind (.shift context))).within frames) ws n :=
    hinside
  rcases hinside'.of_seq with ⟨m, hm, rfl⟩ | ⟨xs, ys, m, d, o, rfl, hm, hexit, hrest⟩
  · exact .inside hm
  · have hexits : Evaluates (.eval c e) xs (.exited d o) :=
      evaluates_iff_proceeds.mpr ⟨m, hm, by rw [hexit]; rfl⟩
    cases o with
    | ok v => exact .shifts hexits hrest
    | error x => exact .fails hexits hrest

/-! ## A link in a run -/

/-- What an evaluation does with the value that a link has landed with: the connection is looked at
once more, and then the frames after the link are given the value. -/
inductive Receives (d : Connection) (v : Value) (frames : List (Frame S)) (st : Story S) :
    List (Exchange S) → Prop
  | lands : Receives d v frames st []
  | refused (outcomes : st.outcomes = [.error .cancelled]) :
      Receives d v frames st [⟨.canceled d, true⟩]
  | given {us : List (Exchange S)} {n : Course S}
      (proceeds : Proceeds ((Course.exit d (.ok v)).within frames) us n) (rests : Rests st n) :
      Receives d v frames st (openLook d :: us)

/-- How far a run has come with a link since it has met it on connection `c` with certain frames
pending. -/
inductive Shifts (P : Program S σ) (r : Origin S) (context : Context S.Executor) (e : Effect S)
    (c : Connection) (frames : List (Frame S)) (s : State S σ) (st : Story S) (ts : List String)
    (s' : State S σ) (st' : Story S) (ts' : List String) : Prop
  /-- It is in front of the effect. -/
  | meets {looks : List (Exchange S)} (h : looks <+: [openLook c])
      (asked : st'.exchanges = st.exchanges ++ looks) (outcomes : st'.outcomes = [])
  /-- It has done what the effect does by itself. -/
  | inside {xs : List (Exchange S)} {m : Course S} (h : Proceeds (.eval c e) xs m)
      (asked : st'.exchanges = st.exchanges ++ [openLook c, openLook c] ++ xs)
      (pending : ∀ q, st'.pending = some q → ∃ next, m.head = .asks q next)
      (outcomes : st'.outcomes = [])
  /-- The cancellation of a connection has been observed, before the effect or in it, and the run
  has ended with it.  Nothing has been submitted for the link, and no frame has been given the
  cancellation. -/
  | canceled {looks xs : List (Exchange S)} (h : looks <+: [openLook c, openLook c])
      (aborts : Evaluates (.eval c e) xs .aborted)
      (asked : st'.exchanges = st.exchanges ++ looks ++ xs) (pending : st'.pending = none)
      (outcomes : st'.outcomes = [.error .cancelled])
  /-- The effect has failed.  Nothing has been submitted for the link: the failure has gone to the
  next frame after it that recovers, or out of the run. -/
  | fails {xs ws : List (Exchange S)} {n : Course S} {d : Connection} {x : Failure}
      (exits : Evaluates (.eval c e) xs (.exited d (.error x)))
      (asked : st'.exchanges = st.exchanges ++ [openLook c, openLook c] ++ xs ++ ws)
      (proceeds : Proceeds ((Course.exit d (.error x)).within frames) ws n) (rests : Rests st' n)
  /-- The effect has a value, and the run is about to submit it. -/
  | arrives {xs : List (Exchange S)} {d : Connection} {v : Value}
      (exits : Evaluates (.eval c e) xs (.exited d (.ok v)))
      (asked : st'.exchanges = st.exchanges ++ [openLook c, openLook c] ++ xs)
      (outcomes : st'.outcomes = [])
  /-- The effect has a value, but its connection has been canceled, and the run has ended with
  that.  Nothing has been submitted. -/
  | refused {xs : List (Exchange S)} {d : Connection} {v : Value}
      (exits : Evaluates (.eval c e) xs (.exited d (.ok v)))
      (asked : st'.exchanges = st.exchanges ++ [openLook c, openLook c] ++ xs ++
        [⟨.canceled d, true⟩])
      (pending : st'.pending = none) (outcomes : st'.outcomes = [.error .cancelled])
  /-- The value has been submitted to the context, once, and the run waits for it. -/
  | submitted {xs : List (Exchange S)} {d : Connection} {v : Value}
      (exits : Evaluates (.eval c e) xs (.exited d (.ok v)))
      (asked : st'.exchanges = st.exchanges ++ [openLook c, openLook c] ++ xs ++ [openLook d])
      (pending : st'.pending = none ∨ st'.pending = some (.deferred context (.succeed v) d))
      (outcomes : st'.outcomes = [])
  /-- The submission has been answered, in a step from `s₁`.  If it is the task of the submission
  that has made this step, the answer is the value.  The run has been entered there on the thread
  of that step, and has gone on from there. -/
  | landed {xs us : List (Exchange S)} {n : Course S} {d : Connection} {v : Value} {o : Outcome}
      {s₁ : State S σ} {st₁ : Story S} {ts₁ : List String}
      (exits : Evaluates (.eval c e) xs (.exited d (.ok v)))
      (asked : st'.exchanges = st.exchanges ++ [openLook c, openLook c] ++ xs ++ [openLook d] ++
        ⟨.deferred context (.succeed v) d, o⟩ :: us)
      (path : LeadsOnThreads P r s st ts s₁ st₁ ts₁)
      (waits : st₁.pending = some (.deferred context (.succeed v) d))
      (task : ∀ w cb rest, s₁ = .running w (.owing cb (P.bodyWith (.succeed v) cb)) rest →
        o = .ok v)
      (since : LeadsOnThreads P r (s₁.next P) (st₁.next r.depth s₁)
        (ts₁ ++ [s₁.world.thread]) s' st' ts')
      (proceeds : Proceeds ((Course.completion d o).within frames) us n) (rests : Rests st' n)
      (receives : o = .ok v → Receives d v frames st' us)

/-- A run has been answered to a question for which it suspends by the step that takes it up. -/
theorem Tracks.resumed_of_answered {P : Program S σ} {r : Origin S} {s : State S σ} {st : Story S}
    (h : Tracks P r s st) {q : Question S} (hq : st.pending = some q) (hs : q.Suspends)
    (hanswered : (st.next r.depth s).exchanges ≠ st.exchanges) :
    (st.next r.depth s).resumptions.length = st.resumptions.length + 1 ∧
      (st.next r.depth s).pending = none := by
  cases h.stepping with
  | other same => exact absurd (congrArg Story.exchanges same) hanswered
  | turn step stands home live => cases hq.symm.trans live.pending
  | serves step serves home live =>
      obtain ⟨_, _, _, -, hserves⟩ := serves.wrap
      cases hq.symm.trans live.pending
      exact (hserves.calls hs).elim
  | @resumes _ _ _ _ _ _ _ _ _ _ o step parked =>
      obtain ⟨-, hnone, hresumed⟩ := parked.resume_eq ⟨_, _⟩ o
      rw [step]
      exact ⟨by rw [hresumed, List.length_append, List.length_singleton], hnone⟩

/-- A deferred value that its task completes is answered with the value. -/
theorem Tracks.answer_of_task {P : Program S σ} {r : Origin S} {w : World S σ} {cb : Callback}
    {v : Value} {rest : List (Activation S σ)} {st : Story S}
    (h : Tracks P r (.running w (.owing cb (P.bodyWith (.succeed v) cb)) rest) st)
    {context : Context S.Executor} {d : Connection} {o : Outcome}
    (hq : st.pending = some (.deferred context (.succeed v) d))
    (hnone : (st.next r.depth
      (.running w (.owing cb (P.bodyWith (.succeed v) cb)) rest)).pending = none)
    (hex : (st.next r.depth
      (.running w (.owing cb (P.bodyWith (.succeed v) cb)) rest)).exchanges =
        st.exchanges ++ [⟨.deferred context (.succeed v) d, o⟩]) : o = .ok v := by
  obtain ⟨cb', o', w', run, rest', -, -, hanswer, hnext⟩ := h.completes hq trivial hnone
  rw [hex] at hanswer
  have ho : o = Question.read (.deferred context (.succeed v) d) (.outcome o') := by
    simpa using List.append_cancel_left hanswer
  have hstep : (State.running w (.owing cb (P.bodyWith (.succeed v) cb)) rest).next P =
      .complete P w cb (.ok v) (.owing cb (.done ()) :: rest) := rfl
  rw [hstep] at hnext
  unfold State.complete at hnext
  split at hnext
  · split at hnext
    · injection hnext with _ heval
      injection heval with _ hnode
      cases o' with
      | ok v' =>
          injection hnode with hv
          rw [ho, hv]
          rfl
      | error x => cases hnode
    · injection hnext with _ heval
      cases heval
  · injection hnext with _ heval
    cases heval

/-- The answer to a question for which a run suspends was given in a step, and that step has taken
the run up on its thread. -/
theorem LeadsOnThreads.entered {P : Program S σ} {r : Origin S} {s s' : State S σ}
    {st st' : Story S} {ts ts' : List String} (h : LeadsOnThreads P r s st ts s' st' ts')
    (hf : Follows P r s st) {q : Question S} {a : q.Answer} (hs : q.Suspends)
    {xs us : List (Exchange S)} (hst : st.exchanges <+: xs)
    (hex : st'.exchanges = xs ++ ⟨q, a⟩ :: us) :
    ∃ s₁ st₁ ts₁, LeadsOnThreads P r s st ts s₁ st₁ ts₁ ∧ st₁.pending = some q ∧
      (st₁.next r.depth s₁).exchanges = st₁.exchanges ++ [⟨q, a⟩] ∧
      (st₁.next r.depth s₁).pending = none ∧
      LeadsOnThreads P r (s₁.next P) (st₁.next r.depth s₁)
        (ts₁ ++ [s₁.world.thread]) s' st' ts' := by
  obtain ⟨s₁, st₁, ts₁, hto, rfl, hx, hfrom⟩ := h.noted hf hst hex
  have htracks := (hto.leads.follows hf).tracks
  have hwaits : st₁.pending = some q := by
    rcases htracks.gains with hsame | ⟨y, hadds, hy⟩
    · rw [hx] at hsame
      simp at hsame
    · rw [hx, List.append_cancel_left_eq, List.cons.injEq] at hadds
      obtain ⟨rfl, -⟩ := hadds
      rcases hy with ⟨c, b, hlook⟩ | ⟨hpending, -⟩
      · cases hlook
        exact hs.elim
      · exact hpending
  obtain ⟨hresumed, hnone⟩ := htracks.resumed_of_answered hwaits hs (by simp [hx])
  rw [hresumed, Nat.add_sub_cancel_left] at hfrom
  exact ⟨s₁, st₁, ts₁, hto, hwaits, hx, hnone, hfrom⟩

/-- A run that has landed with a value gives it to the frames after the link, unless it has been
canceled. -/
theorem Tracks.receives {P : Program S σ} {r : Origin S} {s : State S σ} {st : Story S}
    (h : Tracks P r s st) {us : List (Exchange S)} {n : Course S} {d : Connection} {v : Value}
    {frames : List (Frame S)} (hall : Proceeds r.course st.exchanges n)
    (hpure : Proceeds ((Course.eval d (.pure v)).within frames) us n) (hrests : Rests st n) :
    Receives d v frames st us := by
  rcases hpure.of_node with ⟨rfl, rfl⟩ | ⟨rfl, rfl⟩ | ⟨us, rfl, hgiven⟩
  · exact .lands
  · exact .refused (h.delivered_of_aborted hall (Course.head_within_aborted rfl _)).1
  · exact .given hgiven hrests

/-- A run that meets a link does what the effect does, and then what is said of its exit. -/
theorem LeadsOnThreads.shifts {P : Program S σ} {r : Origin S} {w : World S σ} {run : Loop S}
    {context : Context S.Executor} {e : Effect S} {rest : List (Activation S σ)}
    {st st' : Story S} {s' : State S σ} {ts ts' : List String}
    (h : LeadsOnThreads P r (.running w (.eval (.loop run) (.continueOn context e)) rest) st ts
      s' st' ts')
    (hf : Follows P r (.running w (.eval (.loop run) (.continueOn context e)) rest) st)
    (hturn : st.takesTurn r.depth
      (.eval (.loop run) (.continueOn context e) : Activation S σ) rest = true) :
    Shifts P r context e run.connection run.stack.toList
      (.running w (.eval (.loop run) (.continueOn context e)) rest) st ts s' st' ts' := by
  obtain ⟨zs, n, hzs, hn, hrests⟩ := h.leads.onward hf hturn
  obtain ⟨-, proceeds⟩ := hf.tracks.of_turn_eval hturn
  have htracks := (h.leads.follows hf).tracks
  have hall : Proceeds r.course st'.exchanges n := hzs ▸ proceeds.trans hn
  have haborted : n.head = .aborted → st'.outcomes = [.error .cancelled] ∧ st'.pending = none :=
    htracks.delivered_of_aborted hall
  cases hn.shifted with
  | meets hlooks => exact .meets hlooks hzs hrests.called_of_eval.2
  | refused hlooks =>
      obtain ⟨hout, hpending⟩ := haborted (Course.head_within_aborted rfl _)
      have hrefused :
          Evaluates (.eval run.connection e : Course S) [⟨.canceled _, true⟩] .aborted :=
        evaluates_iff_proceeds.mpr ⟨.abort, Proceeds.look run.connection e true, rfl⟩
      refine .canceled (hlooks.trans (List.prefix_append [_] [_])) hrefused ?_ hpending hout
      rw [hzs, List.append_assoc]
  | @inside xs m hm =>
      have hasked : st'.exchanges = st.exchanges ++
          [openLook run.connection, openLook run.connection] ++ xs := by
        rw [hzs, List.append_assoc]
      by_cases ha : m.head = .aborted
      · obtain ⟨hout, hpending⟩ :=
          haborted (Course.head_within_aborted (Course.head_seq_aborted ha _) _)
        exact .canceled List.prefix_rfl
          (evaluates_iff_proceeds.mpr ⟨m, hm, by rw [ha]; rfl⟩) hasked hpending hout
      · obtain ⟨hout, hpending⟩ := hrests.of_seq ha
        exact .inside hm hasked hpending hout
  | @fails xs ws _ d x hexits hrest =>
      refine .fails hexits ?_ hrest hrests
      rw [hzs]
      simp
  | @shifts xs ws _ d v hexits hrest =>
      rcases hrest.of_node with ⟨rfl, rfl⟩ | ⟨rfl, rfl⟩ | ⟨ws, rfl, hasks⟩
      · refine .arrives hexits ?_ hrests.called_of_eval.2
        rw [hzs]
        simp
      · obtain ⟨hout, hpending⟩ := haborted (Course.head_within_aborted rfl _)
        refine .refused hexits ?_ hpending hout
        rw [hzs]
        simp
      have hask : Proceeds ((Course.ask (.deferred context (.succeed v) d)
          (.completion d)).within run.stack.toList) ws n := hasks
      have hhead := Course.head_within_asks (m := Course.ask
        (.deferred context (.succeed v) d) (.completion d)) rfl run.stack.toList
      rcases hask.of_ask with ⟨rfl, rfl⟩ | ⟨o, us, rfl, hgo⟩
      · refine .submitted hexits ?_ (hrests.pending_of_asks hhead)
          (hrests.outcomes_eq_nil (by rw [hhead]; rfl))
        rw [hzs]
        simp
      · have hasked : st'.exchanges = st.exchanges ++
            [openLook run.connection, openLook run.connection] ++ xs ++ [openLook d] ++
              ⟨.deferred context (.succeed v) d, o⟩ :: us := by
          rw [hzs]
          simp
        have hsuspends : (Question.deferred context (.succeed v) d : Question S).Suspends := trivial
        obtain ⟨s₁, st₁, ts₁, hto, hwaits, hx, hnone, hfrom⟩ := h.entered hf hsuspends
          (by simp only [List.append_assoc]; exact List.prefix_append _ _) hasked
        have htracks₁ := (hto.leads.follows hf).tracks
        refine .landed hexits hasked hto hwaits (fun w₁ cb rest₁ hs₁ => ?_) hfrom hgo hrests
          fun ho => ?_
        · subst hs₁
          exact htracks₁.answer_of_task hwaits hnone hx
        · subst ho
          exact htracks.receives hall hgo hrests

end Trampoline
