import Trampoline.Proofs.Frames.Awaiting

/-!
# The conservation of frames

The tally of a run is right when the run starts, and every step of the machine keeps it right,
wherever the frames are: in the loop, in the bridge while the run is parked, and in the loop of the
next resumption.  So every frame that is pushed is on the stack of the run, or has left it, once.

Main results:

- Theorem `Tally.Right.start`: the tally of a run that starts is right.
- Theorem `Tally.Right.next`: a step of the machine keeps the tally of a run right.
-/

namespace Trampoline

variable {S : Closures} {σ : Type}

namespace Tally.Right

variable {P : Program S σ} {r : Origin S} {st : Story S} {t : Tally S} {w : World S σ}
  {below : List (Activation S σ)} {run : Loop S}

/-- A loop pushes the frame of a node, and goes on with its source. -/
theorem pushes (hsound : t.Sound) (hkept : ∀ n, .leave n .abandoned ∉ t.moves)
    (home : Home r st w below run) (live : st.Live none) (hh : t.Holds run.stack.toList)
    (frame : Frame S) (source : Effect S) :
    (t.push frame).Right r
      (.running w (.eval (.loop { run with stack := run.stack.push frame }) source) below) st := by
  refine of_loop (hsound.push frame) (fun n hn => hkept n ?_) (home.withStack _) rfl ?_
    live.outcomes
  · simpa [Tally.push] using hn
  · rw [CallStack.toList_push]
    exact hh.push hsound frame

/-- A loop in front of a node. -/
theorem eval (hsound : t.Sound) (hkept : ∀ n, .leave n .abandoned ∉ t.moves)
    (home : Home r st w below run) (live : st.Live none) (hh : t.Holds run.stack.toList)
    {node : Effect S} (proceeds : Proceeds r.course st.exchanges
      ((Course.eval run.connection node).within run.stack.toList))
    (htracks : Tracks P r (State.eval P w (.loop run) node below)
      (st.turn w (.eval (.loop run) node : Activation S σ))) :
    (t.turn w (.eval (.loop run) node : Activation S σ)).Right r
      (State.eval P w (.loop run) node below)
      (st.turn w (.eval (.loop run) node : Activation S σ)) := by
  have hlooked := proceeds.trans
    ((Proceeds.look run.connection node (w.connections.isCanceled run.connection)).within
      run.stack.toList)
  simp only [State.eval, Story.turn, Tally.turn] at htracks ⊢
  cases hc : w.connections.isCanceled run.connection with
  | true =>
      simp only [if_true]
      obtain ⟨hsound', hh'⟩ := hsound.abandon hh
      refine of_end hsound' hh' (fun n hn => ?_) (by simp [Story.deliver])
      exact ⟨by simp [Story.deliver, Story.look, live.outcomes],
        run.connection, by simp [Story.deliver, Story.look]⟩
  | false =>
      simp only [hc, Bool.false_eq_true, if_false] at hlooked htracks ⊢
      have home' : Home r (st.look run.connection false) w below run := home.of_story rfl rfl
      have live' : (st.look run.connection false).Live none :=
        ⟨live.pending, live.outcomes, live.lost, live.numbered⟩
      cases node with
      | pure v => exact of_loop hsound hkept home' rfl hh live.outcomes
      | continueOn context source => exact of_loop hsound hkept home' rfl hh live.outcomes
      | bind source frame => exact pushes hsound hkept home' live' hh frame source
      | map source f => exact pushes hsound hkept home' live' hh (.map f) source
      | fail e =>
          rw [State.reduce_fail_eq_leave]
          exact leave hsound hkept home' live' hh (.error e)
      | suspend k => exact of_asks hsound hkept htracks live.outcomes rfl hh hlooked
      | delay k => exact of_asks hsound hkept htracks live.outcomes rfl hh hlooked
      | async k => exact of_asks hsound hkept htracks live.outcomes rfl hh hlooked
      | parked inner stack => exact of_asks hsound hkept htracks live.outcomes rfl hh hlooked
      | deferred context b => exact of_asks hsound hkept htracks live.outcomes rfl hh hlooked
      | switchConnection source modify restore =>
          exact of_loop hsound hkept (home'.of_story rfl rfl) rfl hh live.outcomes

/-- A loop whose connection has been chosen goes on under it with its frames. -/
theorem switched (hsound : t.Sound) (hkept : ∀ n, .leave n .abandoned ∉ t.moves)
    (home : Home r st w below run) (live : st.Live none) (hh : t.Holds run.stack.toList)
    (source : Effect S) (restore : Option (Restorer S)) (new : Connection) :
    t.Right r (State.switched w run source restore new below) st := by
  unfold State.switched
  cases restore with
  | none => exact of_loop hsound hkept (home.followSwitch new) rfl hh live.outcomes
  | some r' => exact of_loop hsound hkept (home.followSwitch new) rfl hh live.outcomes

/-- A turn of the run while it waits for no answer. -/
theorem takes_turn {act : Activation S σ} {m : Course S} (stands : Stands act run m)
    (hsound : t.Sound) (hkept : ∀ n, .leave n .abandoned ∉ t.moves)
    (home : Home r st w below run) (live : st.Live none) (hh : t.Holds run.stack.toList)
    (proceeds : Proceeds r.course st.exchanges (m.within run.stack.toList))
    (htracks : Tracks P r (State.work P w below act) (st.turn w act)) :
    (t.turn w act).Right r (State.work P w below act) (st.turn w act) := by
  cases stands with
  | eval _ e => exact eval hsound hkept home live hh proceeds htracks
  | value _ v =>
      simp only [State.work, Story.turn, Tally.turn, State.value_eq_leave]
      exact leave hsound hkept home live hh (.ok v)
  | node _ e =>
      simp only [State.work, State.advance, Story.turn, Story.heed,
        Story.answer_of_none live.pending]
      exact of_loop hsound hkept home rfl hh live.outcomes
  | switch _ source restore new =>
      simp only [State.work, State.advance, Story.turn, Story.heed,
        Story.answer_of_none live.pending]
      exact switched hsound hkept home live hh source restore new

/-- The end of the code that works on a question leaves the frames as they are. -/
theorem serves_turn {act : Activation S σ} {q : Question S} {next : q.Answer → Course S}
    (serves : act.Serves P run q next) (hsound : t.Sound)
    (hkept : ∀ n, .leave n .abandoned ∉ t.moves) (home : Home r st w below run)
    (live : st.Live (some q)) (hh : t.Holds run.stack.toList)
    (proceeds : Proceeds r.course st.exchanges ((Course.ask q next).within run.stack.toList))
    (htracks : Tracks P r (State.work P w below act) (st.turn w act)) :
    t.Right r (State.work P w below act) (st.turn w act) := by
  obtain ⟨α, h, code, rfl, hloop, -⟩ := serves.wrap
  rw [Story.turn_wrap st w hloop] at htracks ⊢
  have hhome : ∀ reply, Home r (st.answer reply) w below run := fun reply =>
    home.of_story (by simp [Story.answer, live.pending]) (by simp [Story.answer, live.pending])
  have hlive : ∀ reply, (st.answer reply).Live none := fun reply => by
    simp only [Story.answer, live.pending]
    exact ⟨rfl, live.outcomes, live.lost, live.numbered⟩
  cases code with
  | done a =>
      rw [State.work_wrap, State.advance]
      rcases h.finish_cases w below hloop a with
        ⟨act', hrun, hfinish⟩ | ⟨source, restore, new, hfinish⟩
      · rw [hfinish]
        exact of_loop hsound hkept (hhome _) hrun hh (hlive _).outcomes
      · rw [hfinish]
        exact switched hsound hkept (hhome _) (hlive _) hh source restore new
  | panic payload =>
      rw [State.work_wrap]
      simp only [State.advance, Story.heed, h.escape_eq P w below hloop, State.panicIn,
        State.contain]
      cases hc : w.classifier payload with
      | true =>
          simp only [if_true]
          exact of_loop hsound hkept ((hhome _).congr fun _ _ => rfl) rfl hh (hlive _).outcomes
      | false =>
          refine ⟨hsound, fun _ hlost => ?_, fun hne => absurd live.outcomes hne,
            fun n hn => absurd hn (hkept n)⟩
          cases hlost
  | _ => exact of_asks hsound hkept htracks live.outcomes live.pending hh proceeds

/-- The frames stay with a run that takes no turn. -/
theorem of_same {s s' : State S σ} (h : t.Right r s st) (htracks : Tracks P r s st)
    (htracks' : Tracks P r s' st)
    (waits : (∃ q, st.pending = some q) ∨ st.outcomes ≠ [] ∨ st.lost = true) :
    t.Right r s' st where
  sound := h.sound
  awaits := by
    intro hout hlost
    rcases waits with ⟨q, hq⟩ | hover | hover
    · obtain ⟨_, ⟨c, stack, hactive, rfl⟩, hh⟩ := h.awaits hout hlost
      rcases htracks.of_active hactive hout hlost with
        ⟨_, _, _, _, _, _, _, _, _, hnone⟩ | ⟨_, _, -, -, -, proceeds⟩
      · cases hq.symm.trans hnone
      · exact ⟨_, htracks'.awaiting_of_asks hout hlost hq proceeds, hh⟩
    · exact absurd hout hover
    · cases hlost.symm.trans hover
  emptied := h.emptied
  abandoned := h.abandoned

/-- The frames of a parked run come from its bridge to the loop that takes it up. -/
theorem resumes {s : State S σ} {i : Nat} {stack : CallStack (Frame S)} {c : Connection}
    {earlier : List (Park S)} {q : Question S} {next : q.Answer → Course S} {o : Outcome}
    (h : t.Right r s st) (htracks : Tracks P r s st)
    (parked : Parked r s st i stack c earlier q next) {s' : State S σ} (cb : Callback)
    (hresumes : Resumes i
      ⟨c, some r.terminal, stack, some (earlier.length + 1), earlier.length + 1⟩ o w below s') :
    t.Right r s' (st.resume cb o) := by
  have live := parked.live
  obtain ⟨frames, hawaiting, hh⟩ := h.awaits live.outcomes live.lost
  obtain rfl := htracks.awaiting_unique live.outcomes live.lost hawaiting
    (htracks.awaiting_of_asks live.outcomes live.lost live.pending parked.proceeds)
  have hout : (st.resume cb o).outcomes = [] := by
    simp [Story.resume, Story.answer, live.pending, live.outcomes]
  have hbridge : (st.resume cb o).bridge = some i := by
    simp [Story.resume, Story.answer, live.pending, parked.bridge]
  cases hresumes with
  | mk w' new size hb hidle =>
      refine ⟨h.sound, fun _ _ => ⟨_, ?_, hh⟩, fun hne => absurd hout hne,
        fun n hn => absurd hn (h.kept live.outcomes n)⟩
      refine ⟨c, stack, .inl ⟨[], _, _, rfl, ⟨c, stack, .bridge i⟩, rfl, rfl, rfl, ?_⟩, rfl⟩
      rw [hbridge]

/-- A step of the machine keeps the tally of a run right. -/
theorem next {s : State S σ} (h : t.Right r s st) (htracks : Tracks P r s st)
    (hbounded : s.Bounded) :
    (t.next r.depth st s).Right r (s.next P) (st.next r.depth s) := by
  have hnext : Tracks P r (s.next P) (st.next r.depth s) := htracks.next hbounded
  cases htracks.stepping with
  | other same passes waits =>
      have htally : t.next r.depth st s = t := by
        cases s with
        | running w top rest => simp [Tally.next, passes w top rest rfl]
        | _ => rfl
      rw [same] at hnext
      rw [same, htally]
      exact h.of_same htracks hnext waits
  | @turn w top rest _ run m step stands home live proceeds =>
      obtain ⟨frames, hawaiting, hh⟩ := h.awaits live.outcomes live.lost
      obtain rfl := htracks.awaiting_unique live.outcomes live.lost hawaiting
        (home.awaiting stands.loop?_eq)
      have hturn := home.takesTurn live.outcomes live.lost stands.loop?_eq
      rw [step] at hnext ⊢
      simp only [Tally.next, hturn, if_true]
      exact takes_turn stands h.sound (h.kept live.outcomes) home live hh proceeds hnext
  | @serves w top rest _ run q next step serves home live proceeds =>
      obtain ⟨frames, hawaiting, hh⟩ := h.awaits live.outcomes live.lost
      obtain rfl := htracks.awaiting_unique live.outcomes live.lost hawaiting
        (home.awaiting serves.loop?_eq)
      have hturn := home.takesTurn live.outcomes live.lost serves.loop?_eq
      have htally : t.turn w top = t := by
        obtain ⟨_, holder, code, rfl, -⟩ := serves.wrap
        cases holder <;> rfl
      rw [step] at hnext ⊢
      simp only [Tally.next, hturn, if_true, htally]
      exact serves_turn serves h.sound (h.kept live.outcomes) home live hh proceeds hnext
  | @resumes w top rest _ i stack c earlier q next o step parked suspends hresumes =>
      have hturn : st.takesTurn r.depth top rest = false :=
        Story.takesTurn_of_bridge parked.bridge (parked.idle top (by simp))
      rw [step]
      simp only [Tally.next, hturn, Bool.false_eq_true, if_false]
      exact h.resumes htracks parked _ hresumes

/-- The tally of a run that starts is right. -/
theorem start {rest : List (Activation S σ)} (depth : rest.length = r.depth) :
    (opening r.stack.toList : Tally S).Right r (.running w r.activation rest) .beginning := by
  obtain ⟨hsound, hh⟩ := sound_opening r.stack.toList
  have home : Home r .beginning w rest ⟨r.connection, r.stack, .terminal r.terminal⟩ :=
    .direct rfl rfl rfl depth
  refine of_loop hsound (fun n hn => ?_) home rfl hh rfl
  generalize r.stack.toList = frames at hn
  induction frames with
  | nil => cases hn
  | cons frame frames ih => exact ih (by simpa [opening, push] using hn)

end Tally.Right

end Trampoline
