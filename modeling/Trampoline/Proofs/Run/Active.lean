import Trampoline.Proofs.Machine.Cancellation
import Trampoline.Proofs.Run.Delivery
import Trampoline.Proofs.Run.Leads
import Trampoline.Proofs.Run.Regular

/-!
# The connection that a run is active on

At every moment before its end a run is active on one connection and has certain frames
pending: those of its loop, or those in the bridge in which it is parked.  What the run sees
of that connection it sees when it looks, and it looks only where it meets a node.

Main definitions and results:

- Definition `Active`: the active connection of a run, and its pending frames.
- Definition `Activation.WorksFor`, theorem `Home.place_unique`: the place of a run.
- Theorem `Tracks.of_active`: how the evaluation of a run goes on under its active connection.
- Theorems `Tracks.adds_look`, `Leads.looks`: a look finds the connection as it is, and, once
  it has been canceled, finds it canceled.
- Theorem `Leads.of_pending`: a run that waits for an answer does nothing until it has it.
-/

namespace Trampoline

variable {S : Closures} {σ : Type}

/-- A run is active on a connection, with these frames pending: they are those of a loop of
the run on the control stack, in view or behind a partial evaluation, in the place where the
run started, or, once it has a bridge, anywhere; or those in its bridge, if that is armed. -/
def Active (r : Origin S) (st : Story S) (s : State S σ) (c : Connection)
    (stack : CallStack (Frame S)) : Prop :=
  (∃ above act below, s.activations = above ++ act :: below ∧
    act.Every fun a => ∃ run, a.loop? = some run ∧ run.connection = c ∧ run.stack = stack ∧
      match st.bridge with
      | none => run.outlet = .terminal r.terminal ∧ below.length = r.depth
      | some i => run.outlet = .bridge i) ∨
  ∃ i b epoch, st.bridge = some i ∧ s.world.bridges[i]? = some b ∧ b.armed = some epoch ∧
    b.connection = c ∧ b.stack = stack

/-! ## One loop at a time -/

/-- Where nothing works for a bridge, no loop of it is in view or hidden. -/
theorem Activation.Idle.not_every {i : Nat} {a : Activation S σ} (h : a.Idle i)
    (ha : a.Every fun a => ∃ run, a.loop? = some run ∧ run.outlet = .bridge i) : False := by
  obtain ⟨b, ⟨run, hrun, hout⟩, hidle⟩ := Activation.Every.both a ha h
  exact hidle run hrun hout

/-- An activation, with certain others below, is the work of a loop of a run, in view or behind a
partial evaluation: of the one that the run has started with, in its place, or, once the run has a
bridge, of one that has been given that. -/
def Activation.WorksFor (r : Origin S) (st : Story S) (below : List (Activation S σ))
    (a : Activation S σ) : Prop :=
  a.Every fun b => ∃ run, b.loop? = some run ∧
    match st.bridge with
    | none => run.outlet = .terminal r.terminal ∧ below.length = r.depth
    | some i => run.outlet = .bridge i

/-- What works for a run that has a bridge is not idle for that. -/
theorem Activation.WorksFor.not_idle {r : Origin S} {st : Story S} {below : List (Activation S σ)}
    {a : Activation S σ} (h : a.WorksFor r st below) {i : Nat} (hi : st.bridge = some i) :
    ¬a.Idle i := by
  refine fun hidle => hidle.not_every (h.mono fun b hb => ?_)
  obtain ⟨run, hrun, hout⟩ := hb
  simp only [hi] at hout
  exact ⟨run, hrun, hout⟩

/-- A run for whose bridge nothing on the control stack works is active in the bridge. -/
theorem Active.of_idle {r : Origin S} {st : Story S} {s : State S σ} {c : Connection}
    {stack : CallStack (Frame S)} (h : Active r st s c stack) {i : Nat} (hi : st.bridge = some i)
    (hidle : ∀ a ∈ s.activations, a.Idle i) :
    ∃ b epoch, s.world.bridges[i]? = some b ∧ b.armed = some epoch ∧ b.connection = c ∧
      b.stack = stack := by
  rcases h with ⟨above, act, below, place, hact⟩ | ⟨j, b, epoch, hj, hb⟩
  · have hworks : act.WorksFor r st below :=
      hact.mono fun _ ⟨run, hrun, _, _, hplace⟩ => ⟨run, hrun, hplace⟩
    exact absurd (hidle act (by simp [place])) (hworks.not_idle hi)
  · rw [hi, Option.some.injEq] at hj
    subst hj
    exact ⟨b, epoch, hb⟩

namespace Home

variable {r : Origin S} {st : Story S} {s : State S σ} {w : World S σ}
  {above below : List (Activation S σ)} {act : Activation S σ} {run : Loop S} {c : Connection}
  {stack : CallStack (Frame S)}

/-- A loop in its home works for its run. -/
theorem worksFor (home : Home r st w below run) (h : act.Every fun b => b.loop? = some run) :
    act.WorksFor r st below :=
  h.mono fun _ hb => ⟨run, hb, home.in_place⟩

/-- The run is active on the connection of a loop in its home, with the frames of that. -/
theorem active (home : Home r st s.world below run) (place : s.activations = above ++ act :: below)
    (h : act.Every fun a => a.loop? = some run) : Active r st s run.connection run.stack :=
  .inl ⟨above, act, below, place, h.mono fun _ ha => ⟨run, ha, rfl, rfl, home.in_place⟩⟩

/-- It is in one place with whatever else works for the run. -/
theorem place_unique {above' below' : List (Activation S σ)} {act' : Activation S σ}
    (home : Home r st w below run) (place : s.activations = above ++ act :: below)
    (idle : ∀ i, st.bridge = some i → ∀ a ∈ above, a.Idle i)
    (place' : s.activations = above' ++ act' :: below') (hact' : act'.WorksFor r st below') :
    above' = above ∧ act' = act ∧ below' = below := by
  have hsame : above' ++ act' :: below' = above ++ act :: below := place'.symm.trans place
  have hclose : below'.length = below.length →
      above' = above ∧ act' = act ∧ below' = below := by
    intro hlength
    obtain ⟨habove, htail⟩ := List.append_inj' hsame (by simp [hlength])
    rw [List.cons.injEq] at htail
    exact ⟨habove, htail⟩
  cases home with
  | direct bridge parks outlet depth =>
      obtain ⟨b, ⟨_, -, hplace⟩, -⟩ := Activation.Every.both act' hact' hact'
      simp only [bridge] at hplace
      exact hclose (hplace.2.trans depth.symm)
  | bridged i bridge outlet holds hidle =>
      have hbusy : ¬act'.Idle i := hact'.not_idle bridge
      rcases List.append_eq_append_iff.mp hsame with ⟨as, habove, htail⟩ | ⟨as, habove, htail⟩
      · cases as with
        | nil =>
            rw [List.nil_append, List.cons.injEq] at htail
            exact hclose (by rw [htail.2])
        | cons a as =>
            rw [List.cons_append, List.cons.injEq] at htail
            exact absurd (htail.1 ▸ idle i bridge a (by simp [habove])) hbusy
      · cases as with
        | nil =>
            rw [List.nil_append, List.cons.injEq] at htail
            exact hclose (by rw [htail.2])
        | cons a as =>
            rw [List.cons_append, List.cons.injEq] at htail
            exact absurd (hidle act' (by simp [htail.2])) hbusy

/-- The loop of a run that is in its home is the one that the run is active with. -/
theorem of_active (home : Home r st s.world below run)
    (place : s.activations = above ++ act :: below)
    (hact : act.Every fun a => a.loop? = some run)
    (idle : ∀ i, st.bridge = some i → ∀ a ∈ above, a.Idle i) (h : Active r st s c stack) :
    run.connection = c ∧ run.stack = stack := by
  rcases h with ⟨above', act', below', place', hact'⟩ | ⟨i, b, epoch, hi, hb, harmed, -⟩
  · obtain ⟨rfl, rfl, rfl⟩ := home.place_unique place idle place'
      (hact'.mono fun _ ⟨run', hrun, _, _, hplace⟩ => ⟨run', hrun, hplace⟩)
    obtain ⟨a, ⟨run', hrun', hc, hstack, -⟩, hrun⟩ := Activation.Every.both act' hact' hact
    rw [hrun, Option.some.injEq] at hrun'
    subst hrun'
    exact ⟨hc, hstack⟩
  · -- A loop in its home has a bridge that waits for nobody.
    have hnot := home.not_wins ⟨i, epoch⟩
    rw [Story.bridgeIn, hi] at hnot
    exact (hnot ⟨rfl, World.isArmed_eq_true_iff.mpr ⟨b, hb, harmed⟩⟩).elim

end Home

namespace Tracks

variable {P : Program S σ} {r : Origin S} {s : State S σ} {st : Story S}

/-- Under its active connection, with its pending frames, a run that has not come to its end
has a loop in its turn, or waits for the answer to a question, which is no look. -/
theorem of_active (h : Tracks P r s st) {c : Connection} {stack : CallStack (Frame S)}
    (hactive : Active r st s c stack) (hout : st.outcomes = []) (hlost : st.lost = false) :
    (∃ w act below run m, s = .running w act below ∧ Stands act run m ∧ run.connection = c ∧
      run.stack = stack ∧ st.pending = none) ∨
    ∃ (q : Question S) (next : q.Answer → Course S), st.pending = some q ∧ q.GoesOn c next ∧
      (∀ d, q ≠ .canceled d) ∧
      Proceeds r.course st.exchanges ((Course.ask q next).within stack.toList) := by
  cases h with
  | @turn w act below _ run m stands proceeds home live resumed =>
      have hloop : act.Every fun a => a.loop? = some run := stands.every stands.loop?_eq
      have place : (State.running w act below).activations = [] ++ act :: below := rfl
      obtain ⟨hc, hstack⟩ := home.of_active place hloop (by simp) hactive
      exact .inl ⟨w, act, below, run, m, rfl, stands, hc, hstack, live.pending⟩
  | @calling _ above below act _ run q next place serves waits idle proceeds home live resumed =>
      have hloop : act.Every fun a => a.loop? = some run := serves.mono fun a ha => ha.loop?_eq
      obtain ⟨hc, hstack⟩ := home.of_active place hloop idle hactive
      obtain ⟨a, hserves, -⟩ := Activation.Every.both act serves serves
      obtain ⟨_, holder, code, -, hs⟩ := hserves.wrap
      obtain ⟨c', hgoes⟩ := proceeds.goesOn
      obtain ⟨hc', hlook⟩ := hgoes.of_fails hs.fails
      rw [hc', hc] at hgoes
      rw [hstack] at proceeds
      exact .inr ⟨q, next, live.pending, hgoes, hlook, proceeds⟩
  | @suspended _ _ i stack' c' earlier q next idle holds bridge parks completes proceeds live
      resumed suspends =>
      obtain ⟨b, epoch, hb, -, rfl, rfl⟩ := hactive.of_idle bridge idle
      rw [holds, Option.some.injEq] at hb
      subst hb
      obtain ⟨c'', hgoes⟩ := proceeds.goesOn
      rw [hgoes.of_completes completes] at hgoes
      refine .inr ⟨q, next, live.pending, hgoes, fun d hd => ?_, proceeds⟩
      subst hd
      exact suspends
  | delivered outcomes ending evaluates pending lost still numbered resumed =>
      simp [outcomes] at hout
  | lost outcomes lost pending evaluates still numbered resumed => simp [hlost] at lost

end Tracks

/-! ## Waiting for an answer -/

namespace Tracks

variable {P : Program S σ} {r : Origin S} {s : State S σ} {st : Story S}

/-- A run never waits for the answer to a look. -/
theorem pending_ne_canceled (h : Tracks P r s st) (hlost : st.lost = false) (c : Connection) :
    st.pending ≠ some (.canceled c) := by
  intro hq
  cases h with
  | turn stands proceeds home live resumed => simp [live.pending] at hq
  | @calling _ above below act _ run q next place serves waits idle proceeds home live resumed =>
      rw [live.pending, Option.some.injEq] at hq
      obtain ⟨a, hserves, -⟩ := Activation.Every.both act serves serves
      obtain ⟨_, holder, code, -, hs⟩ := hserves.wrap
      obtain ⟨c', hgoes⟩ := proceeds.goesOn
      exact (hgoes.of_fails hs.fails).2 c hq
  | suspended idle holds bridge parks completes proceeds live resumed suspends =>
      rw [live.pending, Option.some.injEq] at hq
      subst hq
      exact suspends
  | delivered outcomes ending evaluates pending lost still numbered resumed =>
      simp [pending] at hq
  | lost outcomes lost pending evaluates still numbered resumed => simp [hlost] at lost

/-- A step that notes a look is one of a loop of the run, which is in front of a node under
the connection that it looks at, and finds it as it is. -/
theorem loop_of_look (h : Tracks P r s st) {c : Connection} {b : Bool}
    (hadds : (st.next r.depth s).exchanges = st.exchanges ++ [⟨.canceled c, b⟩]) :
    ∃ w run node rest, s = .running w (.eval (.loop run) node) rest ∧
      st.takesTurn r.depth (.eval (.loop run) node : Activation S σ) rest = true ∧
      run.connection = c ∧ w.connections.isCanceled c = b ∧
      Proceeds r.course st.exchanges ((Course.eval c node).within run.stack.toList) := by
  have hnot : (st.next r.depth s).exchanges ≠ st.exchanges := by
    rw [hadds]
    simp
  cases hq : st.pending with
  | some q =>
      rcases h.next_of_pending hq with ⟨-, hsame, -⟩ | ⟨a, hanswered, -⟩
      · exact absurd hsame hnot
      · have hx := (List.append_inj' (hanswered.symm.trans hadds) rfl).2
        rw [List.cons.injEq] at hx
        cases hx.1
        cases hlost : st.lost with
        | false => exact absurd hq (h.pending_ne_canceled hlost c)
        | true =>
            obtain ⟨-, -, -, hstill⟩ := h.still_of_lost hlost
            exact absurd (congrArg Story.exchanges (Still.story_next hstill (.inr hlost))) hnot
  | none =>
      cases s with
      | returned w => exact absurd rfl hnot
      | unwound w payload => exact absurd rfl hnot
      | running w top rest =>
          cases hturn : st.takesTurn r.depth top rest with
          | false =>
              refine absurd ?_ hnot
              simp only [Story.next, hturn, Bool.false_eq_true, if_false]
              split
              · split
                · simp [Story.resume, Story.answer, hq]
                · rfl
              · rfl
          | true =>
              obtain ⟨run, m, stands, -, -, proceeds⟩ := h.stands_of_turn hturn hq
              simp only [Story.next, hturn, if_true] at hadds hnot
              cases stands with
              | eval _ node =>
                  rw [Story.turn_eval_exchanges] at hadds
                  have hx := (List.append_inj' hadds rfl).2
                  cases hx
                  exact ⟨w, run, node, rest, rfl, hturn, rfl, rfl, proceeds⟩
              | value _ v =>
                  refine absurd ?_ hnot
                  simp only [Story.turn, Story.leave]
                  split <;> rfl
              | node _ e => simp [Story.turn, Story.heed, Story.answer, hq] at hnot
              | switch _ source restore new =>
                  simp [Story.turn, Story.heed, Story.answer, hq] at hnot

/-- A look finds the connection as it is. -/
theorem adds_look (h : Tracks P r s st) {c : Connection} {b : Bool}
    (hadds : (st.next r.depth s).exchanges = st.exchanges ++ [⟨.canceled c, b⟩]) :
    s.world.connections.isCanceled c = b := by
  obtain ⟨w, run, node, rest, rfl, -, -, hb, -⟩ := h.loop_of_look hadds
  exact hb

/-- A loop in front of a node waits for no answer. -/
theorem of_turn_eval {w : World S σ} {run : Loop S} {node : Effect S}
    {rest : List (Activation S σ)} (h : Tracks P r (.running w (.eval (.loop run) node) rest) st)
    (hturn : st.takesTurn r.depth (.eval (.loop run) node : Activation S σ) rest = true) :
    st.Live none ∧ Proceeds r.course st.exchanges
      ((Course.eval run.connection node).within run.stack.toList) := by
  rcases h.turn_cases with hno | ⟨run', -, -, ⟨m, stands, live, proceeds⟩ | ⟨_, _, serves, -⟩⟩
  · rw [hturn] at hno
    cases hno
  · cases stands
    exact ⟨live, proceeds⟩
  · exact serves.elim

end Tracks

namespace Leads

variable {P : Program S σ} {r : Origin S} {s s' : State S σ} {st st' : Story S}

/-- A canceled connection stays canceled. -/
theorem isCanceled (h : Leads P r s st s' st') {c : Connection}
    (hc : s.world.connections.isCanceled c = true) :
    s'.world.connections.isCanceled c = true := by
  induction h with
  | now => exact hc
  | next h ih => exact State.isCanceled_next P ih
  | again h hs code ih => exact ih

/-- Once a connection has been canceled, each look at it finds it canceled. -/
theorem looks (h : Leads P r s st s' st') (hf : Follows P r s st) {c : Connection}
    (hc : s.world.connections.isCanceled c = true) :
    ∃ zs, st'.exchanges = st.exchanges ++ zs ∧ ∀ b, ⟨.canceled c, b⟩ ∈ zs → b = true := by
  induction h with
  | now => exact ⟨[], by simp, by simp⟩
  | again h hs code ih => exact ih
  | @next s' st' h ih =>
      obtain ⟨zs, hzs, hlooks⟩ := ih
      have htracks := (h.follows hf).tracks
      rcases htracks.gains with hsame | ⟨x, hadds, -⟩
      · exact ⟨zs, hsame.trans hzs, hlooks⟩
      · refine ⟨zs ++ [x], by rw [hadds, hzs, List.append_assoc], fun b hb => ?_⟩
        rcases List.mem_append.mp hb with hb | hb
        · exact hlooks b hb
        · rw [List.mem_singleton] at hb
          subst hb
          rw [← htracks.adds_look hadds]
          exact h.isCanceled hc

/-- A run in front of a node on a canceled connection delivers its cancellation, and does
nothing any more. -/
theorem of_canceled {w : World S σ} {run : Loop S} {node : Effect S}
    {rest : List (Activation S σ)}
    (h : Leads P r (.running w (.eval (.loop run) node) rest) st s' st')
    (hf : Follows P r (.running w (.eval (.loop run) node) rest) st)
    (hturn : st.takesTurn r.depth (.eval (.loop run) node : Activation S σ) rest = true)
    (hcanceled : w.connections.isCanceled run.connection = true) :
    st' = st ∨ st' = (st.look run.connection true).deliver (.error .cancelled) := by
  have hnext : st.next r.depth (.running w (.eval (.loop run) node) rest) =
      (st.look run.connection true).deliver (.error .cancelled) := by
    simp [Story.next, hturn, Story.turn, hcanceled]
  rcases h.first (by simp) with ⟨-, hsame⟩ | hlater
  · exact .inl hsame
  · have hover : (st.next r.depth (.running w (.eval (.loop run) node) rest)).outcomes ≠ [] := by
      simp [hnext, Story.deliver]
    obtain ⟨hsame, -⟩ := hlater.unchanged (hf.next.tracks.still_of_delivered hover) (.inl hover)
    exact .inr (hsame.trans hnext)

/-- A run that waits for an answer does nothing until it has it. -/
theorem of_pending (h : Leads P r s st s' st') (hf : Follows P r s st) {q : Question S}
    (hq : st.pending = some q) :
    (st'.pending = some q ∧ st'.exchanges = st.exchanges ∧ st'.outcomes = st.outcomes) ∨
      ∃ a, st.exchanges ++ [⟨q, a⟩] <+: st'.exchanges := by
  induction h with
  | now => exact .inl ⟨hq, rfl, rfl⟩
  | again h hs code ih => exact ih
  | @next s' st' h ih =>
      rcases ih with ⟨hpending, hex, hout⟩ | ⟨a, hprefix⟩
      · rcases (h.follows hf).tracks.next_of_pending hpending with
          ⟨hpending', hex', hout'⟩ | ⟨a, hadds, -⟩
        · exact .inl ⟨hpending', hex'.trans hex, hout'.trans hout⟩
        · exact .inr ⟨a, hadds ▸ hex ▸ List.prefix_rfl⟩
      · exact .inr ⟨a, hprefix.trans ((Leads.step P r s' st').exchanges (h.follows hf))⟩

end Leads

end Trampoline
