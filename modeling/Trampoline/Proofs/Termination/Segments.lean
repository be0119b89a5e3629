import Mathlib.Data.Nat.Find
import Trampoline.Proofs.Partial.Stopping
import Trampoline.Proofs.Run.Progress
import Trampoline.Proofs.Termination.Drivers

/-!
# Partial evaluations and segments of a run terminate

A run of well-founded descriptions is cut into segments by its suspensions: the first begins
with the run, each of the others with the completion that takes the run up again.  Each segment
comes to its end, and to one end only: the run delivers its outcome, or it is suspended again,
with a fresh epoch, or a fatal panic takes it away.  A partial evaluation of well-founded
descriptions comes back with what it has left, or with a fatal panic.

Main definitions and results:

- Definition `Segment`: where a segment of a run begins.
- Definitions `Story.Underway`, `SegmentEnd`: a segment that goes on, and its ends.
- Theorem `Follows.ends_of_not_underway`: a segment that does not go on has come to an end.
- Theorem `Segment.terminates`: each segment of a well-founded run ends.
- Definition `World.HandsBack`, theorem `State.partially_terminates`: a partial evaluation of
  well-founded descriptions hands back what halts, or a fatal panic.
- Theorem `Effect.WellFounded.terminates_both`: both loops come to an end.
-/

namespace Trampoline

variable {S : Closures} {σ : Type}

/-! ## Segments -/

/-- Where a segment of a run begins. -/
inductive Segment (P : Program S σ) (r : Origin S) : State S σ → Story S → Prop
  /-- The run starts. -/
  | start {w : World S σ} {rest : List (Activation S σ)}
      (h : State.Reachable P (.running w r.activation rest)) (depth : rest.length = r.depth) :
      Segment P r (.running w r.activation rest) .beginning
  /-- The callback that the run waits for is completed. -/
  | resumed {w : World S σ} {top : Activation S σ} {rest : List (Activation S σ)} {st : Story S}
      {cb : Callback} {o : Outcome} (h : Follows P r (.running w top rest) st)
      (bridge : st.bridge = some cb.bridge) (completes : top.completion? w = some (cb, o))
      (armed : w.isArmed cb = true) :
      Segment P r (State.next P (.running w top rest)) (st.next r.depth (.running w top rest))

/-- Since the segment began, with `st`, the run has neither delivered, nor been suspended, nor
been taken away. -/
structure Story.Underway (st st' : Story S) : Prop where
  outcomes : st'.outcomes = []
  parks : st'.parks = st.parks
  lost : st'.lost = false

/-- The ends of a segment. -/
inductive SegmentEnd where
  | delivery
  | suspension
  | unwinding

/-- What has happened at the end of a segment that began with `st`. -/
def SegmentEnd.Holds (st : Story S) (s' : State S σ) (st' : Story S) : SegmentEnd → Prop
  | delivery => ∃ o, st'.outcomes = [o] ∧ st'.parks = st.parks ∧ st'.lost = false
  | suspension => ∃ p q, st'.parks = st.parks ++ [p] ∧ st'.outcomes = [] ∧ st'.lost = false ∧
    st'.pending = some q ∧ q.Suspends ∧ s'.world.isArmed p.callback = true ∧
      p.callback.epoch = st.parks.length + 1 ∧ p.callback ∉ st.callbacks
  | unwinding => st'.lost = true ∧ st'.outcomes = [] ∧ st'.parks = st.parks ∧
    ∃ w payload rest, w.classifier payload = false ∧ s' = .unwind w payload rest

/-- A segment has one end at most. -/
theorem SegmentEnd.Holds.unique {st st' : Story S} {s' : State S σ} {e e' : SegmentEnd}
    (h : e.Holds st s' st') (h' : e'.Holds st s' st') : e = e' := by
  have hdelivery : SegmentEnd.delivery.Holds st s' st' →
      st'.outcomes ≠ [] ∧ st'.lost = false := by
    rintro ⟨o, ho, -, hlost⟩
    exact ⟨by simp [ho], hlost⟩
  have hsuspension : SegmentEnd.suspension.Holds st s' st' →
      st'.outcomes = [] ∧ st'.lost = false := by
    rintro ⟨p, q, -, hout, hlost, -⟩
    exact ⟨hout, hlost⟩
  have hunwinding : SegmentEnd.unwinding.Holds st s' st' → st'.lost = true := fun h => h.1
  cases e <;> cases e' <;> simp_all

/-! ## The end of a segment -/

section

variable {P : Program S σ} {r : Origin S} {s : State S σ} {st st' : Story S}

/-- The bridge of a run that waits for the answer to a question for which it suspends is armed,
for the suspension that came last. -/
theorem Tracks.armed_of_pending (h : Tracks P r s st) {q : Question S} (hq : st.pending = some q)
    (hsuspends : q.Suspends) (hlost : st.lost = false) {p : Park S}
    (hp : st.parks.getLast? = some p) :
    st.outcomes = [] ∧ s.world.isArmed p.callback = true := by
  obtain ⟨i, stack, c, earlier, next, parked⟩ := h.parked_of_suspends hq hsuspends hlost
  rw [parked.parks, List.getLast?_concat, Option.some.injEq] at hp
  exact ⟨parked.live.outcomes, hp ▸ parked.armed⟩

/-- A segment that does not go on has come to an end. -/
theorem Follows.ends_of_not_underway (hf : Follows P r s st') (hu : st.Underway st')
    (hnot : ¬st.Underway (st'.next r.depth s)) :
    ∃ e : SegmentEnd, e.Holds st (s.next P) (st'.next r.depth s) := by
  cases hlost : (st'.next r.depth s).lost with
  | true =>
      obtain ⟨-, hlose, -, hunwinds⟩ := hf.tracks.loses hu.lost hlost
      refine ⟨.unwinding, hlost, ?_, ?_, hunwinds⟩
      · rw [hlose]
        exact hu.outcomes
      · rw [hlose]
        exact hu.parks
  | false =>
      rcases st'.next_parks r.depth s with ⟨hparks, -⟩ | ⟨p, q, hparks, hq, hsuspends⟩
      · rcases hf.tracks.next_delivers with hsame | ⟨w, o, rest, hout, -⟩
        · exact absurd ⟨hsame.trans hu.outcomes, hparks.trans hu.parks, hlost⟩ hnot
        · exact ⟨.delivery, o, by rw [hout, hu.outcomes, List.nil_append],
            hparks.trans hu.parks, hlost⟩
      · have htracks := hf.next.tracks
        obtain ⟨hout, harmed⟩ := htracks.armed_of_pending hq hsuspends hlost (p := p)
          (by rw [hparks, List.getLast?_concat])
        have hepoch := (htracks.numbered st'.parks.length p (by simp [hparks])).2
        rw [hu.parks] at hparks hepoch
        refine ⟨.suspension, p, q, hparks, hout, hlost, hq, hsuspends, harmed, hepoch, fun hp => ?_⟩
        -- The callbacks of the earlier suspensions have smaller epochs.
        have hsame : st.callbacks = st'.callbacks := by rw [Story.callbacks, ← hu.parks]; rfl
        rw [hsame] at hp
        obtain ⟨k, hk⟩ := List.mem_iff_getElem?.mp hp
        have hearlier := (hf.tracks.numbered.callback hk).2
        have hlt := (List.getElem?_eq_some_iff.mp hk).1
        rw [Story.callbacks, List.length_map, hu.parks] at hlt
        omega

/-- Where a segment begins, a loop of the run is in front of a node, and the segment goes on. -/
theorem Segment.turns (h : Segment P r s st) :
    Follows P r s st ∧ st.Underway st ∧ ∃ w run node rest,
      s = .running w (.eval (.loop run) node) rest ∧
        st.takesTurn r.depth (.eval (.loop run) node : Activation S σ) rest = true := by
  cases h with
  | start h depth =>
      exact ⟨.start h depth, ⟨rfl, rfl, rfl⟩, _, _, _, _, rfl,
        by simp [Story.takesTurn, Activation.loop?, Story.beginning, depth]⟩
  | @resumed w top rest st cb o h bridge completes armed =>
      have hturn : st.takesTurn r.depth top rest = false := by
        by_contra hturn
        rw [Bool.not_eq_false] at hturn
        rw [h.tracks.not_armed_of_turn hturn bridge] at armed
        cases armed
      have hresume : st.next r.depth (.running w top rest) = st.resume cb o := by
        simp [Story.next, hturn, completes, bridge, armed]
      have hnext := h.next
      refine ⟨hnext, ?_⟩
      have htracks := h.tracks
      generalize hs : State.running w top rest = s at htracks
      cases htracks.stepping with
      | other same =>
          rw [← hs, hresume] at same
          have hlonger := congrArg Story.resumptions same
          simp [Story.resume] at hlonger
      | turn step stands home live =>
          cases hs
          simp [home.takesTurn live.outcomes live.lost stands.loop?_eq] at hturn
      | serves step serves home live =>
          cases hs
          simp [home.takesTurn live.outcomes live.lost serves.loop?_eq] at hturn
      | resumes step parked suspends hresumes =>
          cases hs
          have hlive : (st.resume cb o).outcomes = [] ∧ (st.resume cb o).lost = false := by
            simp [Story.resume, Story.answer, parked.live.pending, parked.live.outcomes,
              parked.live.lost]
          rw [hresume]
          refine ⟨⟨hlive.1, rfl, hlive.2⟩, ?_⟩
          rw [State.next]
          generalize State.work P w rest top = s' at hresumes
          cases hresumes with
          | mk w' new size hb idle' =>
              exact ⟨w', _, _, _, rfl, by
                simp [Story.takesTurn, Activation.loop?, Story.resume, parked.bridge]⟩

/-! ## Segments of well-founded descriptions -/

/-- While a segment goes on, the run keeps the bridge that it has. -/
theorem Story.bridge_of_underway (P : Program S σ) (depth : Nat) (s : State S σ) (st : Story S)
    {n : Nat} (h : ∀ k ≤ n, st.Underway (chronicle P depth k (s, st)).2) :
    (chronicle P depth n (s, st)).2.bridge = st.bridge := by
  induction n with
  | zero => rfl
  | succ n ih =>
      have hbefore := h n (Nat.le_succ n)
      have hafter := h (n + 1) (Nat.le_refl _)
      rw [chronicle_succ] at hafter ⊢
      rcases Story.next_parks (chronicle P depth n (s, st)).2 depth (chronicle P depth n (s, st)).1
        with ⟨-, hsame⟩ | ⟨p, q, hparks, -⟩
      · exact hsame.trans (ih fun k hk => h k (Nat.le_succ_of_le hk))
      · have hlonger := hafter.parks
        rw [hparks, hbefore.parks] at hlonger
        simp at hlonger

/-- Loops that deliver in one place take their turns alike. -/
theorem Story.takesTurn_congr {st st' : Story S} {a a' : Activation S σ} {run run' : Loop S}
    (hu : st.Underway st) (hu' : st.Underway st') (hbridge : st'.bridge = st.bridge)
    (ha : a.loop? = some run) (ha' : a'.loop? = some run') (houtlet : run'.outlet = run.outlet)
    (depth : Nat) (rest : List (Activation S σ)) :
    st'.takesTurn depth a' rest = st.takesTurn depth a rest := by
  simp [Story.takesTurn, ha, ha', houtlet, hbridge, hu.outcomes, hu'.outcomes, hu.lost, hu'.lost]

/-- A loop whose exit no frame takes delivers. -/
theorem Story.leave_of_uncaught {run : Loop S} {o : Outcome} (st : Story S)
    (h : (run.stack.takeFor o).1 = none) : st.leave run o = st.deliver o := by
  unfold Story.leave
  split
  · next frame stack htake => simp [htake] at h
  · rfl

/-- If a loop of the run comes to its end, so does the segment. -/
theorem Activation.Ends.not_underway {w : World S σ} {act : Activation S σ}
    {rest : List (Activation S σ)} {depth : Nat} (h : act.Ends w)
    (hturn : st'.takesTurn depth act rest = true) (hu : st.Underway st') :
    ¬st.Underway (st'.next depth (.running w act rest)) := by
  have hdelivers : ∀ {st'' : Story S} {o : Outcome}, ¬st.Underway (st''.deliver o) :=
    fun hu'' => by simpa [Story.deliver] using hu''.outcomes
  simp only [Story.next, hturn, if_true]
  cases h with
  | canceled hc =>
      simp only [Story.turn, hc, if_true]
      exact hdelivers
  | @fails d e hnone =>
      cases d with
      | partially stack resume => cases hturn
      | loop run =>
          simp only [Story.turn]
          split
          · exact hdelivers
          · rw [Story.meet, Story.leave_of_uncaught _ hnone]
            exact hdelivers
  | @yields d v hnone =>
      cases d with
      | partially stack resume => cases hturn
      | loop run =>
          rw [Story.turn, Story.leave_of_uncaught _ hnone]
          exact hdelivers
  | @boundary d node hsuspends =>
      cases d with
      | partially stack resume => cases hturn
      | loop run =>
          have hparks : ∀ {st'' : Story S} {q : Option (Question S)},
              st''.parks = st.parks → ¬st.Underway ((st''.park w run).ask q) :=
            fun hsame hu'' => by simpa [Story.park, Story.ask, hsame] using hu''.parks
          simp only [Story.turn]
          split
          · exact hdelivers
          · cases node with
            | async k => exact hparks hu.parks
            | parked inner stack => exact hparks hu.parks
            | deferred context b => exact hparks hu.parks
            | _ => exact hsuspends.elim
  | region => cases hturn
  | @panics α holder payload hfatal =>
      obtain ⟨run, hrun⟩ := Story.loop_of_takesTurn hturn
      rw [Holder.loop?_wrap] at hrun
      rw [Story.turn_wrap st' w hrun, Story.heed, if_neg (by simp [hfatal])]
      exact fun hu'' => by simpa using hu''.lost

/-- A segment of well-founded descriptions does not go on for ever. -/
theorem Segment.not_forever (h : Segment P r s st) (he : r.effect.WellFounded P)
    (hframes : ∀ frame ∈ r.stack.toList, frame.WellFounded P) :
    ∃ n, ¬st.Underway (chronicle P r.depth n (s, st)).2 := by
  by_contra hforever
  simp only [not_exists, not_not] at hforever
  obtain ⟨hf, hu, w, run, node, rest, rfl, hturn⟩ := h.turns
  -- All that the run has before it is well-founded.
  obtain ⟨-, hproceeds⟩ := hf.tracks.of_turn_eval hturn
  have hcourse : r.course.WellFounded P := (Course.wellFounded_within _ _).mpr ⟨he, hframes⟩
  obtain ⟨hnode, hstack⟩ := (Course.wellFounded_within _ _).mp
    (hproceeds.wellFounded hcourse hf.yields)
  -- So its loop comes to its end, and the segment with it.
  obtain ⟨n, w', act, d, hrun, hd, hlike, hends⟩ :=
    State.finishes (d := .loop run) (w := w) hnode hstack hf.reachable
  have hstate := chronicle_fst P r.depth n (.running w (.eval (.loop run) node) rest, st)
  rw [hrun] at hstate
  have hloop : ∃ run', act.loop? = some run' ∧ run'.outlet = run.outlet := by
    cases d with
    | partially stack resume => exact hlike.elim
    | loop run' => exact ⟨run', Activation.loop?_of_driver? hd, hlike⟩
  obtain ⟨run', hact, houtlet⟩ := hloop
  have hturn' := (Story.takesTurn_congr hu (hforever n)
    (Story.bridge_of_underway P r.depth _ st fun k _ => hforever k)
    (rfl : (.eval (.loop run) node : Activation S σ).loop? = some run) hact houtlet
    r.depth rest).trans hturn
  have hnext := hforever (n + 1)
  rw [chronicle_succ, hstate] at hnext
  exact hends.not_underway hturn' (hforever n) hnext

/-- Each segment of a run of well-founded descriptions comes to one of its ends after so many
steps. -/
theorem Segment.terminates (h : Segment P r s st) (he : r.effect.WellFounded P)
    (hframes : ∀ frame ∈ r.stack.toList, frame.WellFounded P) :
    ∃ n, (∀ k < n, st.Underway (chronicle P r.depth k (s, st)).2) ∧
      ∃! e : SegmentEnd,
        e.Holds st (chronicle P r.depth n (s, st)).1 (chronicle P r.depth n (s, st)).2 := by
  classical
  have hleaves := h.not_forever he hframes
  obtain ⟨hf, hu, -⟩ := h.turns
  have hbefore : ∀ k < Nat.find hleaves, st.Underway (chronicle P r.depth k (s, st)).2 :=
    fun k hk => not_not.mp (Nat.find_min hleaves hk)
  refine ⟨Nat.find hleaves, hbefore, ?_⟩
  have hnot := Nat.find_spec hleaves
  cases hn : Nat.find hleaves with
  | zero =>
      rw [hn] at hnot
      exact absurd hu hnot
  | succ n =>
      rw [hn, chronicle_succ] at hnot
      rw [chronicle_succ]
      obtain ⟨e, hends⟩ := (hf.chronicle n).ends_of_not_underway (hbefore n (by omega)) hnot
      exact ⟨e, hends, fun e' he' => he'.unique hends⟩

end

/-! ## Partial evaluations of well-founded descriptions -/

/-- What a partial evaluation may hand back in this world: what halts, or a fatal panic. -/
def World.HandsBack (w : World S σ) : Except Payload (Effect S) → Prop
  | .ok left => left.Halts
  | .error payload => w.classifier payload = false

namespace Activation

/-- The work of a partial evaluation stands in front of what goes on with its result. -/
theorem behind?_of_driver? {a : Activation S σ} {stack : CallStack (Frame S)}
    {resume : Except Payload (Effect S) → Activation S σ}
    (h : a.driver? = some (.partially stack resume)) : a.behind? = some resume := by
  cases a with
  | eval d n => cases h; rfl
  | value d v => cases h; rfl
  | node d code => cases h; rfl
  | outcome d code => cases h; rfl
  | _ => cases h

namespace Ends

variable {w : World S σ} {act : Activation S σ} {stack : CallStack (Frame S)}
  {resume : Except Payload (Effect S) → Activation S σ}

/-- A partial evaluation that comes to its end leaves what halts, or a fatal panic. -/
theorem residue? (h : act.Ends w) (hd : act.driver? = some (.partially stack resume)) :
    ∃ x, act.residue? w = some x ∧ w.HandsBack (x.map Residue.effect) := by
  have hexits : ∀ {o : Outcome}, (stack.takeFor o).1 = none →
      (Residue.ofExit? stack o).map .ok =
        (some (.ok (.outcome o)) : Option (Except Payload (Residue S))) :=
    fun hnone => by simp [Residue.ofExit?, hnone]
  have hneeds : ∀ node : Effect S, node.NeedsRun → (Residue.ofNode stack node).effect.Halts :=
    fun node hneeds => (Residue.standsFor_ofNode stack hneeds).1
  cases h with
  | canceled hc => cases hd
  | @fails d e hnone =>
      cases hd
      exact ⟨.ok (.outcome (.error e)), hexits hnone, trivial⟩
  | @yields d v hnone =>
      cases hd
      exact ⟨.ok (.outcome (.ok v)), hexits hnone, trivial⟩
  | @boundary d node hsuspends =>
      cases hd
      cases node with
      | async k => exact ⟨_, rfl, hneeds (.async k) trivial⟩
      | parked inner stack' => exact ⟨_, rfl, hneeds (.parked inner stack') trivial⟩
      | deferred context b => exact ⟨_, rfl, hneeds (.deferred context b) trivial⟩
      | _ => exact hsuspends.elim
  | @region _ _ source modify restore =>
      cases hd
      exact ⟨_, rfl, hneeds (.switchConnection source modify restore) trivial⟩
  | @panics α holder payload hfatal =>
      cases holder with
      | node d =>
          cases hd
          exact ⟨.error payload, by simp [Holder.wrap, Activation.residue?, hfatal], hfatal⟩
      | outcome d =>
          cases hd
          exact ⟨.error payload, by simp [Holder.wrap, Activation.residue?, hfatal], hfatal⟩
      | _ => cases hd

/-- It hands that back to the code that has asked for it. -/
theorem hands_back (P : Program S σ) (h : act.Ends w)
    (hd : act.driver? = some (.partially stack resume)) (rest : List (Activation S σ)) :
    ∃ x, State.next P (.running w act rest) = .running w (resume x) rest ∧ w.HandsBack x := by
  obtain ⟨x, hx, hback⟩ := h.residue? hd
  exact ⟨_, State.work_of_residue? P (behind?_of_driver? hd) hx rest, hback⟩

end Ends

end Activation

/-- A partial evaluation of well-founded descriptions comes back after so many steps. -/
theorem State.partially_terminates {P : Program S σ} {w : World S σ} {e : Effect S}
    {stack : CallStack (Frame S)} {resume : Except Payload (Effect S) → Activation S σ}
    {rest : List (Activation S σ)} (he : e.WellFounded P)
    (hframes : ∀ frame ∈ stack.toList, frame.WellFounded P)
    (h : State.Reachable P (.running w (.eval (.partially stack resume) e) rest)) :
    ∃ n w' x, State.run P n (.running w (.eval (.partially stack resume) e) rest) =
      .running w' (resume x) rest ∧ w'.HandsBack x := by
  obtain ⟨n, w', act, d, hrun, hd, hlike, hends⟩ :=
    State.finishes (d := .partially stack resume) (w := w) he hframes h
  obtain ⟨stack', rfl⟩ : ∃ stack', d = .partially stack' resume := by
    cases d with
    | loop run => exact hlike.elim
    | partially stack' resume' => exact ⟨stack', congrArg _ hlike⟩
  obtain ⟨x, hnext, hback⟩ := hends.hands_back P hd rest
  exact ⟨n + 1, w', x, by rw [State.run_succ', hrun, hnext], hback⟩

/-- Well-founded descriptions come to an end, in whatever context: a partial evaluation hands
back what it has left, or a fatal panic, and each segment of a run goes on until it has come to
exactly one of its ends. -/
theorem Effect.WellFounded.terminates_both {P : Program S σ} {e : Effect S}
    (he : e.WellFounded P) {stack : CallStack (Frame S)}
    (hframes : ∀ frame ∈ stack.toList, frame.WellFounded P) :
    (∀ w resume rest, State.Reachable P (.running w (.eval (.partially stack resume) e) rest) →
      ∃ n w' x, State.run P n (.running w (.eval (.partially stack resume) e) rest) =
        .running w' (resume x) rest ∧ w'.HandsBack x) ∧
    ∀ r : Origin S, r.effect = e → r.stack = stack → ∀ s st, Segment P r s st →
      ∃ n, (∀ k < n, st.Underway (chronicle P r.depth k (s, st)).2) ∧
        ∃! i : SegmentEnd,
          i.Holds st (chronicle P r.depth n (s, st)).1 (chronicle P r.depth n (s, st)).2 := by
  refine ⟨fun w resume rest h => State.partially_terminates he hframes h, ?_⟩
  rintro r rfl rfl s st h
  exact h.terminates he hframes

namespace Errand

/-- An errand after a value comes back at once, with an errand and nothing else. -/
theorem wellFounded_errands : errands.WellFounded program := by
  have hleaf : ∀ errand, (Effect.async errand : Effect closures).WellFounded program :=
    fun errand => .leaf rfl fun _ => id
  refine .bind (hleaf answer) ⟨?_, ?_⟩
  · rintro q ⟨o, ho⟩
    cases o with
    | ok v =>
        cases ho
        exact Code.terminates_done program _
    | error e => cases ho
  · rintro q a e ⟨o, ho⟩ hyields he
    cases o with
    | error e => cases ho
    | ok v =>
        cases ho
        cases a with
        | error f => cases he
        | ok e' =>
            cases he
            cases hyields with
            | done => exact hleaf answer

/-- Two errands, one after the other: a partial evaluation comes back, and both the segment with
which the run starts and the one that the answer to the first errand starts come to an end. -/
theorem terminates_errands :
    (∃ n w x, State.run program n (.running (.initial () "main") (opening errands).activation []) =
      .running w ((opening errands).resume x) [] ∧ w.HandsBack x) ∧
    (∃ n, (∀ k < n, (play errands 0).2.Underway (chronicle program 1 k (play errands 0)).2) ∧
      ∃! i : SegmentEnd, i.Holds (play errands 0).2 (chronicle program 1 n (play errands 0)).1
        (chronicle program 1 n (play errands 0)).2) ∧
    (play errands 3).2.resumptions = [⟨0, 1⟩] ∧
    ∃ n, (∀ k < n, (play errands 3).2.Underway (chronicle program 1 k (play errands 3)).2) ∧
      ∃! i : SegmentEnd, i.Holds (play errands 3).2 (chronicle program 1 n (play errands 3)).1
        (chronicle program 1 n (play errands 3)).2 := by
  have hframes : ∀ frame ∈ (CallStack.empty : CallStack (Frame closures)).toList,
      frame.WellFounded program := by simp
  have hsegment : Segment program (origin errands) (play errands 3).1 (play errands 3).2 :=
    .resumed (follows_play errands 2) rfl rfl rfl
  obtain ⟨hpartial, hsegments⟩ := Effect.WellFounded.terminates_both wellFounded_errands hframes
  exact ⟨hpartial _ _ _ (unfolds_unfold errands 0).reachable,
    hsegments (origin errands) rfl rfl _ _ (.start (follows_play errands 0).reachable rfl), rfl,
    hsegments (origin errands) rfl rfl _ _ hsegment⟩

end Errand

end Trampoline
