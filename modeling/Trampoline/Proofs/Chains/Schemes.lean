import Trampoline.Proofs.Chains.Points
import Trampoline.Proofs.Run.Leads
import Trampoline.Proofs.Run.Unwinding

/-!
# Runs that go by a scheme

An agenda says what a run comes to: its hops to a context, the value of each, the value in the end
and the most frames on the way.  A scheme for it says what comes next at each point of the run: a
move, a hop, or the end.  A run that is tended goes by its scheme, from hop to hop, and so by the
agenda.

Main definitions and results:

- Definition `Tended`: a run that is tended from its start, with the most frames that its stack has
  held.
- Definitions `Agenda`, `Onward`, `Scheme`: what a run comes to, and its points.
- Definition `Scheme.AgendaProgress`, theorem `Scheme.AgendaProgress.next`: where a run is that goes
  by a scheme.
- Theorem `Scheme.AgendaProgress.settles`: such a run comes to its next hop, or to its end.
- Definition `Fulfills`, theorem `Scheme.fulfills`: what is known of it at any time.
-/

namespace Trampoline

variable {S : Closures} {σ : Type}

/-! ## Tended runs -/

/-- The number of frames pending in the loop of a run that has the turn. -/
def Story.height (st : Story S) (depth : Nat) : State S σ → Nat
  | .running _ top rest =>
    if st.takesTurn depth top rest then (top.loop?.map fun run => run.stack.length).getD 0 else 0
  | .returned _ | .unwound _ _ => 0

/-- A run that is tended from its start, with the most frames that its stack has held. -/
inductive Tended (P : Program S σ) (r : Origin S) : State S σ → Story S → Nat → Prop
  | start {w : World S σ} {rest : List (Activation S σ)}
      (h : State.Reachable P (.running w r.activation rest)) (depth : rest.length = r.depth) :
      Tended P r (.running w r.activation rest) .beginning r.stack.length
  | next {s : State S σ} {st : Story S} {high : Nat} (h : Tended P r s st high)
      (tends : Tends P r s st) :
      Tended P r (s.next P) (st.next r.depth s)
        (max high ((st.next r.depth s).height r.depth (s.next P)))
  | again {s : State S σ} {st : Story S} {high : Nat} (h : Tended P r s st high)
      (hs : s.activations = []) (code : Code S σ Unit) :
      Tended P r (.start s.world code) st high

theorem Tended.follows {P : Program S σ} {r : Origin S} {s : State S σ} {st : Story S} {high : Nat}
    (h : Tended P r s st high) : Follows P r s st := by
  induction h with
  | start h depth => exact .start h depth
  | next h tends ih => exact ih.next
  | again h hs code ih => exact ih.again hs code

section

variable {P : Program S σ} {r : Origin S} {s : State S σ} {st : Story S}

/-- No callback is completed next, and a connection has not been canceled. -/
def State.quiet (c : Connection) : State S σ → Bool
  | .running w top _ => !w.connections.isCanceled c && (top.completion? w).isNone
  | s => !s.world.connections.isCanceled c

theorem Tends.of_quiet (h : s.quiet r.connection = true) : Tends P r s st := by
  refine ⟨?_, ?_⟩
  · cases s <;> simp_all [State.quiet]
  · rintro w top rest cb o rfl hc
    simp [State.quiet, hc] at h

/-- A step that runs the task of a suspension tends the run. -/
theorem Tends.of_task {w : World S σ} {cb : Callback} {v : Value} {rest : List (Activation S σ)}
    {context : Context S.Executor} {c : Connection}
    (hs : s = .running w (.owing cb (P.bodyWith (.succeed v) cb)) rest)
    (uncanceled : w.connections.isCanceled r.connection = false)
    (pending : st.pending = some (.deferred context (.succeed v) c)) : Tends P r s st := by
  subst hs
  refine ⟨uncanceled, ?_⟩
  rintro w top rest cb o ⟨⟩ hc -
  cases hc
  exact ⟨context, _, c, pending, rfl⟩

/-- A run that has been taken up waits for no callback. -/
theorem Tends.of_resumed (resumed : st.resumptions = st.callbacks)
    (uncanceled : s.world.connections.isCanceled r.connection = false) : Tends P r s st := by
  refine ⟨uncanceled, fun w top rest cb o hs hc hlast => ?_⟩
  simp [resumed] at hlast

/-- Quiet steps tend a run. -/
theorem Tended.quiet {high : Nat} (h : Tended P r s st high) {n : Nat}
    (hquiet : ∀ m < n, (chronicle P r.depth m (s, st)).1.quiet r.connection = true) :
    ∃ high', Tended P r (chronicle P r.depth n (s, st)).1 (chronicle P r.depth n (s, st)).2
      high' := by
  induction n with
  | zero => exact ⟨high, h⟩
  | succ n ih =>
      obtain ⟨high, hn⟩ := ih fun m hm => hquiet m (Nat.lt_succ_of_lt hm)
      rw [chronicle_succ]
      exact ⟨_, hn.next (.of_quiet (hquiet n (Nat.lt_succ_self n)))⟩

theorem TurnAtPoint.height_eq {frames : List (Frame S)} {p : Point S}
    (h : TurnAtPoint r s st frames p) : st.height r.depth s = frames.length := by
  cases h with
  | mk turn connection stack => simp [Story.height, turn, CallStack.length_eq, stack]

/-- Nothing is pending in a loop of a run that waits or that has come to its end. -/
theorem Tracks.height_eq_zero (h : Tracks P r s st)
    (hidle : st.outcomes ≠ [] ∨ ∃ q, st.pending = some q ∧ q.Suspends) :
    st.height r.depth s = 0 := by
  have hturn : ∀ {w : World S σ} {top : Activation S σ} {rest : List (Activation S σ)},
      s = .running w top rest → st.takesTurn r.depth top rest = false := by
    rintro w top rest rfl
    rcases hidle with hout | ⟨q, hq, hsuspends⟩
    · exact Still.takesTurn (h.still_of_delivered hout) (.inl hout)
    · rcases h.turn_cases with hno |
        ⟨run, hrun, home, ⟨m, stands, live, -⟩ | ⟨q', next, serves, live⟩⟩
      · exact hno
      · cases hq.symm.trans live.pending
      · cases hq.symm.trans live.pending
        obtain ⟨_, _, _, -, hserves⟩ := serves.wrap
        exact (hserves.calls hsuspends).elim
  cases s with
  | running w top rest => simp [Story.height, hturn rfl]
  | returned w => rfl
  | unwound w payload => rfl

end

/-! ## Schemes -/

/-- What a run comes to. -/
structure Agenda (S : Closures) where
  /-- Where the tasks of the run go. -/
  context : Context S.Executor
  /-- The number of tasks. -/
  hops : Nat
  /-- The value of each task. -/
  values : Nat → Value
  /-- The value that is delivered. -/
  result : Value
  /-- The most frames that are pending at a time. -/
  height : Nat

/-- What comes next at a point with some frames pending, after so many hops, with so many frames at
most so far, and so many moves left.  `At` says the same of the point after it. -/
inductive Onward (P : Program S σ) (agenda : Agenda S)
    (At : Nat → Nat → Nat → List (Frame S) → Point S → Prop) :
    Nat → Nat → Nat → List (Frame S) → Point S → Prop
  | moves {k high left : Nat} {frames frames' : List (Frame S)} {p p' : Point S}
      (goes : p.Goes P frames frames' p') (next : At k (max high frames'.length) left frames' p') :
      Onward P agenda At k high (left + 1) frames p
  /-- A hop with one frame pending. -/
  | hops {k high left left' : Nat} {frame : Frame S} (h : k < agenda.hops)
      (next : At (k + 1) (max high 1) left' [frame] (.node (.pure (agenda.values k)))) :
      Onward P agenda At k high left [frame]
        (.node (.deferred agenda.context (.succeed (agenda.values k))))
  | ends {left : Nat} : Onward P agenda At agenda.hops agenda.height left [] (.value agenda.result)

/-- A move after which no more frames are pending than before at some time. -/
theorem Onward.moves_within {P : Program S σ} {agenda : Agenda S}
    {At : Nat → Nat → Nat → List (Frame S) → Point S → Prop} {k high left : Nat}
    {frames frames' : List (Frame S)} {p p' : Point S} (goes : p.Goes P frames frames' p')
    (h : frames'.length ≤ high) (next : At k high left frames' p') :
    Onward P agenda At k high (left + 1) frames p :=
  .moves goes (by rwa [Nat.max_eq_left h])

/-- The points of a run that goes by an agenda. -/
structure Scheme (P : Program S σ) (agenda : Agenda S) where
  At : Nat → Nat → Nat → List (Frame S) → Point S → Prop
  hops_le : ∀ {k high left frames p}, At k high left frames p → k ≤ agenda.hops
  onward : ∀ {k high left frames p}, At k high left frames p →
    Onward P agenda At k high left frames p

/-- What a step of the machine does with a run that goes by an agenda. -/
inductive AgendaStep (P : Program S σ) (r : Origin S) (agenda : Agenda S) (s : State S σ)
    (st : Story S) : Prop
  /-- It submits one task to the context, for which the run parks one frame. -/
  | hops (p : Park S) (w : World S σ) (below : List (Activation S σ)) (frames : p.stack.length = 1)
      (parks : (st.next r.depth s).parks = st.parks ++ [p])
      (submits : s.next P = .submit P w agenda.context
        (.body p.callback (.succeed (agenda.values st.parks.length))) below)
  /-- The loop of the run has the turn after it. -/
  | goes (frames : List (Frame S)) (p : Point S) (parks : (st.next r.depth s).parks = st.parks)
      (atPoint : TurnAtPoint r (s.next P) (st.next r.depth s) frames p)
  | waits (same : st.next r.depth s = st)
      (pending : ∃ v, st.pending = some (.deferred agenda.context (.succeed v) r.connection))
  | ends (parks : (st.next r.depth s).parks = st.parks)
      (outcomes : (st.next r.depth s).outcomes = [.ok agenda.result])

namespace Scheme

variable {P : Program S σ} {agenda : Agenda S} {scheme : Scheme P agenda} {r : Origin S}
  {s : State S σ} {st : Story S} {high : Nat}

/-- A run is at a point of the scheme, it waits for the task of a hop, after which it will be at
one, or it has delivered. -/
inductive AgendaProgress (scheme : Scheme P agenda) (r : Origin S) (s : State S σ) (st : Story S)
    (high : Nat) : Prop
  | atPoint {left : Nat} {frames : List (Frame S)} {p : Point S}
      (atPoint : TurnAtPoint r s st frames p) (here : scheme.At st.parks.length high left frames p)
  | waits {v : Value} {left : Nat} {p : Park S} {frame : Frame S}
      (pending : st.pending = some (.deferred agenda.context (.succeed v) r.connection))
      (lost : st.lost = false) (last : st.parks.getLast? = some p)
      (connection : p.connection = r.connection) (stack : p.stack.toList = [frame])
      (outcomes : st.outcomes = [])
      (here : scheme.At st.parks.length (max high 1) left [frame] (.node (.pure v)))
  | delivered (outcomes : st.outcomes = [.ok agenda.result]) (lost : st.lost = false)
      (parks : st.parks.length = agenda.hops) (height : high = agenda.height)

namespace AgendaProgress

/-- A run goes by its scheme from step to step. -/
theorem next (h : scheme.AgendaProgress r s st high) (tracks : Tracks P r s st)
    (after : Tracks P r (s.next P) (st.next r.depth s)) (tends : Tends P r s st) :
    scheme.AgendaProgress r (s.next P) (st.next r.depth s)
      (max high ((st.next r.depth s).height r.depth (s.next P))) := by
  cases h with
  | @atPoint left frames p atPoint here =>
      obtain ⟨houtcomes, hlost, -⟩ := atPoint.live tracks
      generalize hk : st.parks.length = k at here
      cases scheme.onward here with
      | @moves _ _ left frames frames' p p' goes next =>
          obtain ⟨hpoint, -, hkeeps⟩ := atPoint.goes tends.uncanceled goes
          rw [← hk, ← hkeeps.parks] at next
          rw [hpoint.height_eq]
          exact .atPoint hpoint next
      | @hops _ _ _ left' frame hlt next =>
          obtain ⟨p, hstack, hconnection, -, hparks, hpending, hout, hlost'⟩ :=
            atPoint.suspends (P := P) tends.uncanceled
          have hheight := after.height_eq_zero (.inr ⟨_, hpending, trivial⟩)
          have hlength : (st.next r.depth s).parks.length = k + 1 := by simp [hparks, hk]
          rw [← hlength] at next
          rw [hheight, Nat.max_zero]
          exact .waits hpending (hlost'.trans hlost) (by simp [hparks]) hconnection hstack
            (hout.trans houtcomes) next
      | ends =>
          obtain ⟨hout, hparks, hlost'⟩ := atPoint.delivers
          have hheight := after.height_eq_zero (.inl (by simp [hout]))
          rw [houtcomes, List.nil_append] at hout
          rw [hheight, Nat.max_zero]
          exact .delivered hout (hlost'.trans hlost) (by rw [hparks, hk]) rfl
  | @waits v left p frame pending lost last connection stack outcomes here =>
      rcases tracks.waits_or_task tends pending lost last with hsame | ⟨w, rest, hs⟩
      · have hpending : (st.next r.depth s).pending =
            some (.deferred agenda.context (.succeed v) r.connection) := by rw [hsame, pending]
        rw [after.height_eq_zero (.inr ⟨_, hpending, trivial⟩), Nat.max_zero, hsame]
        exact .waits pending lost last connection stack outcomes here
      · obtain ⟨hpoint, hparks, -⟩ := tracks.resumes_of_task pending lost last connection hs
        rw [stack] at hpoint
        rw [← hparks] at here
        rw [hpoint.height_eq]
        exact .atPoint hpoint here
  | delivered outcomes lost parks height =>
      have hout : st.outcomes ≠ [] := by simp [outcomes]
      have hsame : st.next r.depth s = st :=
        Still.story_next (tracks.still_of_delivered hout) (.inl hout)
      have hheight := after.height_eq_zero (.inl (by rw [hsame]; exact hout))
      rw [hheight, Nat.max_zero, hsame]
      exact .delivered outcomes lost parks height

/-- A step submits a task, or it leaves the run with what it has parked. -/
theorem agendaStep (h : scheme.AgendaProgress r s st high) (tracks : Tracks P r s st)
    (tends : Tends P r s st) : AgendaStep P r agenda s st := by
  cases h with
  | @atPoint left frames p atPoint here =>
      generalize hk : st.parks.length = k at here
      cases scheme.onward here with
      | moves goes next =>
          obtain ⟨hpoint, -, hkeeps⟩ := atPoint.goes tends.uncanceled goes
          exact .goes _ _ hkeeps.parks hpoint
      | hops hlt next =>
          obtain ⟨p, hstack, -, ⟨w, below, hsubmits⟩, hparks, -⟩ :=
            atPoint.suspends (P := P) tends.uncanceled
          rw [← hk] at hsubmits
          exact .hops p w below (by rw [CallStack.length_eq, hstack]; rfl) hparks hsubmits
      | ends =>
          obtain ⟨hout, hparks, -⟩ := atPoint.delivers
          rw [(atPoint.live tracks).1, List.nil_append] at hout
          exact .ends hparks hout
  | waits pending lost last connection stack outcomes here =>
      rcases tracks.waits_or_task tends pending lost last with hsame | ⟨w, rest, hs⟩
      · exact .waits hsame ⟨_, pending⟩
      · obtain ⟨hpoint, hparks, -⟩ := tracks.resumes_of_task pending lost last connection hs
        exact .goes _ _ hparks hpoint
  | delivered outcomes lost parks height =>
      have hout : st.outcomes ≠ [] := by simp [outcomes]
      have hsame : st.next r.depth s = st :=
        Still.story_next (tracks.still_of_delivered hout) (.inl hout)
      exact .ends (by rw [hsame]) (by rw [hsame, outcomes])

/-- How far a run has come. -/
theorem come_to (h : scheme.AgendaProgress r s st high) (tracks : Tracks P r s st) :
    st.lost = false ∧ st.parks.length ≤ agenda.hops ∧ (st.outcomes = [] ∨
      st.outcomes = [.ok agenda.result] ∧ st.parks.length = agenda.hops ∧
        high = agenda.height) := by
  cases h with
  | atPoint atPoint here =>
      obtain ⟨houtcomes, hlost, -⟩ := atPoint.live tracks
      exact ⟨hlost, scheme.hops_le here, .inl houtcomes⟩
  | waits pending lost last connection stack outcomes here =>
      exact ⟨lost, scheme.hops_le here, .inl outcomes⟩
  | delivered outcomes lost parks height =>
      exact ⟨lost, Nat.le_of_eq parks, .inr ⟨outcomes, parks, height⟩⟩

/-- The task that a run waits for takes the run up. -/
theorem lands (h : scheme.AgendaProgress r s st high) (tracks : Tracks P r s st) {v : Value}
    {p : Park S} {w : World S σ} {rest : List (Activation S σ)}
    (hs : s = .running w (.owing p.callback (P.bodyWith (.succeed v) p.callback)) rest)
    (hpending : st.pending = some (.deferred agenda.context (.succeed v) r.connection))
    (hlast : st.parks.getLast? = some p) : (st.next r.depth s).resumptions = st.callbacks := by
  cases h with
  | atPoint atPoint here =>
      obtain ⟨-, hlost, hresumed⟩ := atPoint.live tracks
      exact absurd hresumed (tracks.not_resumed hpending trivial hlost)
  | waits pending lost last connection stack outcomes here =>
      rw [last, Option.some.injEq] at hlast
      subst hlast
      exact (tracks.resumes_of_task hpending lost last connection hs).2.2
  | delivered outcomes lost parks height =>
      have hnone := (tracks.waiting hpending trivial lost).1
      simp [outcomes] at hnone

/-- A run that waits for no task is at its end, or at a point. -/
theorem of_resumed (h : scheme.AgendaProgress r s st high) (tracks : Tracks P r s st)
    (resumed : st.resumptions = st.callbacks) :
    st.outcomes = [.ok agenda.result] ∨ ∃ left frames p,
      TurnAtPoint r s st frames p ∧ scheme.At st.parks.length high left frames p := by
  cases h with
  | atPoint atPoint here => exact .inr ⟨_, _, _, atPoint, here⟩
  | waits pending lost last connection stack outcomes here =>
      exact absurd resumed (tracks.not_resumed pending trivial lost)
  | delivered outcomes lost parks height => exact .inl outcomes

/-- A run at a point makes all moves that are left, and then it hops or delivers. -/
theorem settles {left : Nat} {frames : List (Frame S)} {p : Point S} (h : Tended P r s st high)
    (atPoint : TurnAtPoint r s st frames p) (here : scheme.At st.parks.length high left frames p)
    (uncanceled : s.world.connections.isCanceled r.connection = false) :
    ∃ n high', Tended P r (chronicle P r.depth n (s, st)).1 (chronicle P r.depth n (s, st)).2
        high' ∧
      ((chronicle P r.depth n (s, st)).2.outcomes = [.ok agenda.result] ∨
        (chronicle P r.depth n (s, st)).2.parks.length = st.parks.length + 1) := by
  -- The induction is on the moves that are left.
  induction left using Nat.strongRecOn generalizing s st high frames p with
  | _ left ih =>
      obtain ⟨houtcomes, -, hresumed⟩ := atPoint.live h.follows.tracks
      have hnext := h.next (.of_resumed hresumed uncanceled)
      generalize hk : st.parks.length = k at here
      cases scheme.onward here with
      | @moves _ _ left frames frames' p p' goes next =>
          obtain ⟨hpoint, hworld, hkeeps⟩ := atPoint.goes uncanceled goes
          rw [hpoint.height_eq] at hnext
          rw [← hk, ← hkeeps.parks] at next
          rw [← hworld] at uncanceled
          obtain ⟨n, high', hn⟩ := ih left (Nat.lt_succ_self left) hnext hpoint next uncanceled
          rw [hkeeps.parks, hk] at hn
          exact ⟨n + 1, high', hn⟩
      | hops hlt next =>
          obtain ⟨p, -, -, -, hparks, -⟩ := atPoint.suspends (P := P) uncanceled
          exact ⟨1, _, hnext, .inr (by simp [chronicle, hparks, hk])⟩
      | ends =>
          obtain ⟨hout, -⟩ := atPoint.delivers
          rw [houtcomes, List.nil_append] at hout
          exact ⟨1, _, hnext, .inl hout⟩

end AgendaProgress

/-- A tended run that starts at a point of a scheme goes by it. -/
theorem progress (scheme : Scheme P agenda) (h : Tended P r s st high) {left : Nat}
    (start : scheme.At 0 r.stack.toList.length left r.stack.toList (.node r.effect)) :
    scheme.AgendaProgress r s st high := by
  induction h with
  | @start w rest h depth =>
      have hturn : (Story.beginning : Story S).takesTurn r.depth
          (r.activation : Activation S σ) rest = true := by
        simp [Origin.activation, Story.takesTurn, Activation.loop?, Story.beginning, depth]
      rw [CallStack.length_eq]
      have hactivation : (r.activation : Activation S σ) = (Point.node r.effect).activation
          ⟨r.connection, r.stack, .terminal r.terminal⟩ := rfl
      rw [hactivation] at hturn ⊢
      exact .atPoint (.mk hturn rfl rfl) start
  | next h tends ih => exact ih.next h.follows.tracks h.follows.next.tracks tends
  | again h hs code ih =>
      cases ih with
      | atPoint atPoint here =>
          cases atPoint with
          | mk turn connection stack => cases hs
      | waits pending lost last connection stack outcomes here =>
          exact .waits pending lost last connection stack outcomes here
      | delivered outcomes lost parks height => exact .delivered outcomes lost parks height

/-- One frame is parked for each task. -/
theorem frames (scheme : Scheme P agenda) (h : Tended P r s st high) {left : Nat}
    (start : scheme.At 0 r.stack.toList.length left r.stack.toList (.node r.effect)) :
    ∀ p ∈ st.parks, p.stack.length = 1 := by
  induction h with
  | start h depth => exact fun p hp => absurd hp List.not_mem_nil
  | next h tends ih =>
      cases (scheme.progress h start).agendaStep h.follows.tracks tends with
      | hops p w below frames parks submits =>
          rw [parks, List.forall_mem_append]
          exact ⟨ih, by simpa using frames⟩
      | goes frames p parks atPoint => rwa [parks]
      | waits same pending => rwa [same]
      | ends parks outcomes => rwa [parks]
  | again h hs code ih => exact ih

end Scheme

/-! ## Runs by agenda -/

/-- All that is known of a tended run that goes by an agenda. -/
structure Fulfills (P : Program S σ) (r : Origin S) (agenda : Agenda S) (s : State S σ)
    (st : Story S) (high : Nat) : Prop where
  /-- It delivers nothing but its result, and that only once. -/
  outcomes : st.outcomes = [] ∨ st.outcomes = [.ok agenda.result]
  lost : st.lost = false
  /-- It suspends for its tasks, each time with one frame. -/
  parks_le : st.parks.length ≤ agenda.hops
  frames : ∀ p ∈ st.parks, p.stack.length = 1
  /-- A step submits a task when the run suspends, and only then. -/
  agendaStep : Tends P r s st → AgendaStep P r agenda s st
  /-- A task that is run takes the run up. -/
  lands : ∀ v w p rest,
    s = .running w (.owing p.callback (P.bodyWith (.succeed v) p.callback)) rest →
    st.pending = some (.deferred agenda.context (.succeed v) r.connection) →
      st.parks.getLast? = some p → (st.next r.depth s).resumptions = st.callbacks
  /-- As long as no task is to be run, it goes on by itself to the next one, or to its end. -/
  settles : st.resumptions = st.callbacks →
    s.world.connections.isCanceled r.connection = false →
      ∃ n high', Tended P r (chronicle P r.depth n (s, st)).1 (chronicle P r.depth n (s, st)).2
          high' ∧
        ((chronicle P r.depth n (s, st)).2.outcomes = [.ok agenda.result] ∨
          (chronicle P r.depth n (s, st)).2.parks.length = st.parks.length + 1)
  /-- When the machine is at rest and all tasks have been run, it has delivered. -/
  delivered : s.activations = [] → st.resumptions = st.callbacks → st.outcomes = [.ok agenda.result]
  /-- A run that has delivered has hopped for all of its tasks. -/
  parks_eq : st.outcomes ≠ [] → st.parks.length = agenda.hops
  height : st.outcomes ≠ [] → high = agenda.height

/-- A tended run that starts at a point of a scheme goes by the agenda. -/
theorem Scheme.fulfills {P : Program S σ} {agenda : Agenda S} (scheme : Scheme P agenda)
    {r : Origin S} {s : State S σ} {st : Story S} {high : Nat} (h : Tended P r s st high)
    (start : ∃ left, scheme.At 0 r.stack.toList.length left r.stack.toList (.node r.effect)) :
    Fulfills P r agenda s st high := by
  obtain ⟨left, start⟩ := start
  have hprogress := scheme.progress h start
  have htracks := h.follows.tracks
  obtain ⟨hlost, hparks, hout⟩ := hprogress.come_to htracks
  refine ⟨hout.imp_right And.left, hlost, hparks, scheme.frames h start,
    hprogress.agendaStep htracks,
    fun v w p rest hs hpending hlast => hprogress.lands htracks hs hpending hlast,
    fun hresumed huncanceled => ?_, fun hrest hresumed => ?_,
    fun hne => (hout.resolve_left hne).2.1, fun hne => (hout.resolve_left hne).2.2⟩
  · rcases hprogress.of_resumed htracks hresumed with hout | ⟨left, frames, p, atPoint, here⟩
    · exact ⟨0, high, h, .inl hout⟩
    · exact AgendaProgress.settles h atPoint here huncanceled
  · rcases hprogress.of_resumed htracks hresumed with hout | ⟨left, frames, p, atPoint, -⟩
    · exact hout
    · -- A machine at rest has no loop at a point.
      cases atPoint with
      | mk turn connection stack => cases hrest

end Trampoline
