import Trampoline.Proofs.Run.Agreement
import Trampoline.Proofs.Run.Hops

/-!
# Hops pass

What the machine does with a hop of a run: the registration completes its callback in the
step after it has been started, and the loop that takes the run up finds the connection as
it was.  So the outcome of a hop is known, and the look at the connection after it as well.

Main definitions and results:

- Definition `Program.Completes`: the registrations of hops do nothing else.
- Definitions `InHop`, `AfterHop`: where a run stands in a hop, and right after it.
- Theorem `Follows.passing`: all hops of a run pass.
- Theorem `InHop.passes`: a hop takes the run up as it was.
-/

namespace Trampoline

variable {S : Closures} {σ : Type}

/-! ## Questions for hops -/

namespace Tracks

variable {P : Program S σ} {r : Origin S} {st : Story S}

/-- A run asks for the completion of a callback where its loop stands in front of the
asynchronous boundary, on a connection that has not been canceled. -/
theorem asks_async {s : State S σ} (h : Tracks P r s st) (hnone : st.pending = none)
    {k : S.Registration} {c : Connection} (hq : (st.next r.depth s).pending = some (.async k c)) :
    ∃ w run rest, s = .running w (.eval (.loop run) (.async k)) rest ∧
      w.connections.isCanceled run.connection = false ∧ run.connection = c := by
  have hleave : ∀ {run : Loop S} {o : Outcome} {st : Story S}, st.pending = none →
      (st.leave run o).pending = some (.async k c) → False := by
    intro run o st hnone hq
    unfold Story.leave at hq
    split at hq
    · exact Frame.direct hq
    · simp [Story.deliver, hnone] at hq
  cases s with
  | returned w => simp [Story.next, hnone] at hq
  | unwound w payload => simp [Story.next, hnone] at hq
  | running w top rest =>
      cases hturn : st.takesTurn r.depth top rest with
      | false =>
          rw [Story.next_pending hturn hnone] at hq
          cases hq
      | true =>
          obtain ⟨run, m, stands, -⟩ := h.stands_of_turn hturn hnone
          simp only [Story.next, hturn, if_true] at hq
          cases stands with
          | node _ e => simp [Story.turn, Story.heed, Story.answer, hnone] at hq
          | switch _ source restore new =>
              simp [Story.turn, Story.heed, Story.answer, hnone] at hq
          | value _ v => exact (hleave hnone hq).elim
          | eval _ node =>
              simp only [Story.turn] at hq
              cases hc : w.connections.isCanceled run.connection with
              | true => simp [hc, Story.look, Story.deliver, hnone] at hq
              | false =>
                  simp only [hc, Bool.false_eq_true, if_false] at hq
                  have hlook : (st.look run.connection false).pending = none := hnone
                  cases node with
                  | async k' =>
                      cases hq
                      exact ⟨w, run, rest, rfl, hc, rfl⟩
                  | fail e => exact (hleave hlook hq).elim
                  | switchConnection source modify restore =>
                      cases modify with
                      | restoring exit old r => cases r <;> cases hq
                      | _ => cases hq
                  | pure v => exact absurd (hlook.symm.trans hq) (by simp)
                  | bind source frame => exact absurd (hlook.symm.trans hq) (by simp)
                  | map source f => exact absurd (hlook.symm.trans hq) (by simp)
                  | continueOn context source => exact absurd (hlook.symm.trans hq) (by simp)
                  | _ => cases hq

end Tracks

/-! ## Hops pass -/

variable {hop : S.Registration → Option Outcome}

/-- The registration of a hop does nothing but complete its callback with the outcome. -/
def Program.Completes (P : Program S σ) (hop : S.Registration → Option Outcome) : Prop :=
  ∀ k o, hop k = some o → ∀ c cb, P.registration k c cb = .perform (.complete cb o)

/-- Where a run stands in a hop: the registration is about to complete the callback that
the run waits for, on a connection that has not been canceled. -/
structure InHop (s : State S σ) (st : Story S) (c : Connection) (o : Outcome) : Prop where
  top : ∃ w cb rest, s = .running w (.owing cb (.perform (.complete cb o))) rest ∧
    w.isArmed cb = true ∧ w.connectionOf cb = c ∧ st.bridge = some cb.bridge
  canceled : s.world.connections.isCanceled c = false

/-- Where a run stands after a hop: a loop is in front of the outcome, on the connection of
the hop, which has not been canceled. -/
structure AfterHop (s : State S σ) (st : Story S) (c : Connection) (o : Outcome) : Prop where
  top : ∃ w i stack rest, s = .running w (.eval (.loop ⟨c, stack, .bridge i⟩) (.ofOutcome o)) rest ∧
    st.bridge = some i
  pending : st.pending = none
  canceled : s.world.connections.isCanceled c = false

/-- The hops of a run, in any state. -/
structure Passing (hop : S.Registration → Option Outcome) (s : State S σ) (st : Story S) :
    Prop where
  pass : HopsPass hop st.exchanges
  asked : ∀ k c o, st.pending = some (.async k c) → hop k = some o → InHop s st c o
  answered : ∀ xs k c o, st.exchanges = xs ++ [⟨.async k c, o⟩] → (hop k).isSome → AfterHop s st c o

/-- A hop takes one step. -/
theorem InHop.next {s : State S σ} {st : Story S} {c : Connection} {o : Outcome}
    (h : InHop s st c o) (P : Program S σ) (depth : Nat) {k : S.Registration}
    (hq : st.pending = some (.async k c)) :
    AfterHop (s.next P) (st.next depth s) c o ∧
      (st.next depth s).exchanges = st.exchanges ++ [⟨.async k c, o⟩] := by
  obtain ⟨w, cb, rest, rfl, harmed, hconnection, hbridge⟩ := h.top
  obtain ⟨b, hb, ha⟩ := World.isArmed_eq_true_iff.mp harmed
  have hc : b.connection = c := by simpa [World.connectionOf, hb] using hconnection
  subst hc
  have hstory : st.next depth (.running w (.owing cb (.perform (.complete cb o))) rest) =
      st.resume cb o := by
    have hturn : st.takesTurn depth (.owing cb (.perform (.complete cb o)) : Activation S σ) rest =
        false := rfl
    have hcompletion : (Activation.owing cb (.perform (.complete cb o))).completion? w =
        some (cb, o) := rfl
    simp [Story.next, hturn, hcompletion, hbridge, harmed]
  have hstep : State.next P (.running w (.owing cb (.perform (.complete cb o))) rest) =
      State.complete P w cb o (.owing cb (.done ()) :: rest) := rfl
  rw [hstory, hstep, State.complete_of_armed P o hb ha]
  refine ⟨⟨⟨_, _, _, _, rfl, ?_⟩, ?_, h.canceled⟩, ?_⟩
  · simp [Story.resume, Story.answer, hq, hbridge]
  · simp [Story.resume, Story.answer, hq]
  · simp [Story.resume, Story.answer, hq, Question.read, Reply.toOutcome]

/-- After a hop the run looks at its connection and finds it not canceled. -/
theorem AfterHop.next {s : State S σ} {st : Story S} {c : Connection} {o : Outcome}
    (h : AfterHop s st c o) (depth : Nat) :
    (st.next depth s).exchanges = st.exchanges ++ [⟨.canceled c, false⟩] := by
  obtain ⟨w, i, stack, rest, rfl, hbridge⟩ := h.top
  have hturn : st.takesTurn depth
      (.eval (.loop ⟨c, stack, .bridge i⟩) (.ofOutcome o) : Activation S σ) rest = true := by
    simp [Story.takesTurn, Activation.loop?, hbridge]
  have hcanceled : w.connections.isCanceled c = false := h.canceled
  simp only [Story.next, hturn, if_true, Story.turn_eval_exchanges, hcanceled]

/-- After a hop the run does not ask for another one at once. -/
theorem AfterHop.next_pending {P : Program S σ} {r : Origin S} {s : State S σ} {st : Story S}
    {c : Connection} {o : Outcome} (h : AfterHop s st c o) (tracks : Tracks P r s st)
    {k : S.Registration} {c' : Connection} : (st.next r.depth s).pending ≠ some (.async k c') := by
  intro hq
  obtain ⟨w, i, stack, rest, rfl, -⟩ := h.top
  obtain ⟨w', run, rest', hs, -⟩ := tracks.asks_async h.pending hq
  cases o <;> simp [Effect.ofOutcome] at hs

/-- Where a run asks for the outcome of a hop, it stands in it. -/
theorem Tracks.inHop {P : Program S σ} {r : Origin S} {s : State S σ} {st : Story S}
    (h : Tracks P r s st) (hbounded : s.Bounded) (hP : P.Completes hop) (hnone : st.pending = none)
    {k : S.Registration} {c : Connection} {o : Outcome} (hk : hop k = some o)
    (hq : (st.next r.depth s).pending = some (.async k c)) :
    InHop (s.next P) (st.next r.depth s) c o := by
  obtain ⟨w, cb, rest, hlast, harmed, hconnection, hs⟩ := h.starts hbounded hnone hq
  obtain ⟨p, hp⟩ : ∃ p, (st.next r.depth s).callbacks[p]? = some cb := by
    rw [List.getLast?_eq_getElem?] at hlast
    exact ⟨_, hlast⟩
  have hbridge := ((h.next hbounded).numbered.callback hp).1
  refine ⟨⟨w, cb, rest, ?_, harmed, hconnection, hbridge⟩, ?_⟩
  · rw [hs, hP k o hk]
  · obtain ⟨w₀, run, rest₀, rfl, hc, rfl⟩ := h.asks_async hnone hq
    have hstep : State.next P (.running w₀ (.eval (.loop run) (.async k)) rest₀) =
        State.suspend P w₀ run (fun c cb => [.owing cb (P.registration k c cb)]) rest₀ := by
      simp [State.next, State.work, State.eval, hc, State.reduce]
    rw [hstep]
    simpa [State.suspend] using hc

/-- What is known of the hops of a run stays known when no hop begins or ends. -/
theorem Passing.next_elsewhere {P : Program S σ} {r : Origin S} {s : State S σ} {st : Story S}
    (h : Passing hop s st) (tracks : Tracks P r s st) (hbounded : s.Bounded) (hP : P.Completes hop)
    (hasked : ∀ k c, st.pending = some (.async k c) → hop k = none)
    (hends : ¬EndsInHop hop st.exchanges) : Passing hop (s.next P) (st.next r.depth s) where
  pass := by
    rcases tracks.gains with hex | ⟨x, hex, hx⟩
    · exact hex ▸ h.pass
    · rw [hex]
      refine h.pass.snoc ?_ fun xs k c o hxs hk => absurd ⟨xs, k, c, o, hxs, hk⟩ hends
      rintro k c a o rfl hk
      rcases hx with ⟨_, _, hx⟩ | ⟨hx, -⟩
      · cases hx
      · rw [hasked k c hx] at hk
        cases hk
  asked := by
    intro k c o hq hk
    cases hp : st.pending with
    | none => exact tracks.inHop hbounded hP hp hk hq
    | some q =>
        rcases tracks.next_of_pending hp with ⟨hq', -⟩ | ⟨_, -, hq'⟩
        · rw [hq', Option.some.injEq] at hq
          subst hq
          rw [hasked k c hp] at hk
          cases hk
        · rw [hq'] at hq
          cases hq
  answered := by
    intro xs k c o hxs hk
    rcases tracks.gains with hex | ⟨x, hex, hx⟩
    · exact absurd ⟨xs, k, c, o, hex ▸ hxs, hk⟩ hends
    · rw [hex] at hxs
      obtain ⟨-, hlast⟩ := List.append_inj' hxs rfl
      rw [List.cons.injEq] at hlast
      obtain ⟨rfl, -⟩ := hlast
      rcases hx with ⟨_, _, hx⟩ | ⟨hx, -⟩
      · cases hx
      · simp [hasked k c hx] at hk

/-- A step of the machine keeps to what is known of the hops of a run. -/
theorem Passing.next {P : Program S σ} {r : Origin S} {s : State S σ} {st : Story S}
    (h : Passing hop s st) (tracks : Tracks P r s st) (hbounded : s.Bounded)
    (hP : P.Completes hop) : Passing hop (s.next P) (st.next r.depth s) := by
  by_cases hends : EndsInHop hop st.exchanges
  · -- The node in the place of the hop only makes the run look at its connection.
    obtain ⟨xs, k, c, o, hxs, hk⟩ := hends
    have hafter := h.answered xs k c o hxs hk
    have hex := hafter.next r.depth
    refine ⟨?_, fun k' c' o' hq _ => absurd hq (hafter.next_pending tracks), ?_⟩
    · rw [hex]
      refine h.pass.snoc (fun k' c' a o' hx _ => by cases hx) fun xs' k' c' o' hxs' _ => ?_
      obtain ⟨-, hlast⟩ := List.append_inj' (hxs.symm.trans hxs') rfl
      cases hlast
      rfl
    · intro xs' k' c' o' hxs'
      obtain ⟨-, hlast⟩ := List.append_inj' (hex.symm.trans hxs') rfl
      cases hlast
  · by_cases hasked : ∃ k c o, st.pending = some (.async k c) ∧ hop k = some o
    · -- The registration is on top of the control stack and does nothing but complete.
      obtain ⟨k, c, o, hq, hk⟩ := hasked
      obtain ⟨hafter, hex⟩ := (h.asked k c o hq hk).next P r.depth hq
      refine ⟨?_, fun k' c' o' hq' _ => ?_, fun xs k' c' o' hxs _ => ?_⟩
      · rw [hex]
        refine h.pass.snoc (fun k' c' a o' hx hk' => ?_) fun xs k' c' o' hxs hk' =>
          absurd ⟨xs, k', c', o', hxs, hk'⟩ hends
        cases hx
        exact Option.some.inj (hk.symm.trans hk')
      · rw [hafter.pending] at hq'
        cases hq'
      · obtain ⟨-, hlast⟩ := List.append_inj' (hex.symm.trans hxs) rfl
        cases hlast
        exact hafter
    · refine h.next_elsewhere tracks hbounded hP (fun k c hq => ?_) hends
      cases hk : hop k with
      | none => rfl
      | some o => exact absurd ⟨k, c, o, hq, hk⟩ hasked

/-- In any run hops pass. -/
theorem Follows.passing {P : Program S σ} {r : Origin S} {s : State S σ} {st : Story S}
    (h : Follows P r s st) (hP : P.Completes hop) : Passing hop s st := by
  induction h with
  | start h depth => exact ⟨⟨by simp [Story.beginning], by simp [Story.beginning]⟩,
      by simp [Story.beginning], by simp [Story.beginning]⟩
  | next h ih => exact ih.next h.tracks h.reachable.bounded hP
  | again h hs code ih =>
      refine ⟨ih.pass, fun k c o hq hk => ?_, fun xs k c o hxs hk => ?_⟩
      · obtain ⟨w, cb, rest, rfl, -⟩ := (ih.asked k c o hq hk).top
        simp [State.activations] at hs
      · obtain ⟨w, i, stack, rest, rfl, -⟩ := (ih.answered xs k c o hxs hk).top
        simp [State.activations] at hs

/-! ## What a hop takes up -/

/-- A bridge that waits for a completion has what its run has parked last. -/
theorem Tracks.parked {P : Program S σ} {r : Origin S} {s : State S σ} {st : Story S}
    (h : Tracks P r s st) {cb : Callback} (hcb : st.bridge = some cb.bridge)
    (harmed : s.world.isArmed cb = true) :
    ∃ p b, st.parks.getLast? = some p ∧ p.callback = cb ∧
      s.world.bridges[cb.bridge]? = some b ∧ b.armed = some cb.epoch ∧ b.stack = p.stack := by
  obtain ⟨b, hb, ha⟩ := World.isArmed_eq_true_iff.mp harmed
  rcases h.bridge_cases hcb with ⟨⟨b', hb', ha'⟩, -⟩ | ⟨earlier, p, hparks, -, hp, hb'⟩
  · exact (World.not_wins_of_disarmed hb' ha' cb ⟨rfl, harmed⟩).elim
  · rw [hb', Option.some.injEq] at hb
    subst hb
    rw [Option.some.injEq] at ha
    exact ⟨p, _, by rw [hparks, List.getLast?_concat], by rw [hp, ha], hb', by rw [ha], rfl⟩

/-- A hop takes the run up with the frames and the connection that it has parked. -/
theorem InHop.passes {P : Program S σ} {r : Origin S} {s : State S σ} {st : Story S}
    {c : Connection} {o : Outcome} (h : InHop s st c o) (tracks : Tracks P r s st)
    {k : S.Registration} (hq : st.pending = some (.async k c)) :
    ∃ w p rest, st.parks.getLast? = some p ∧ w.connections = s.world.connections ∧
      (st.next r.depth s).exchanges = st.exchanges ++ [⟨.async k c, o⟩] ∧
      s.next P =
        .running w (.eval (.loop ⟨c, p.stack, .bridge p.callback.bridge⟩) (.ofOutcome o)) rest := by
  obtain ⟨-, hex⟩ := h.next P r.depth hq
  obtain ⟨w, cb, rest, rfl, harmed, hconnection, hbridge⟩ := h.top
  obtain ⟨p, b, hp, rfl, hb, ha, hstack⟩ := tracks.parked hbridge harmed
  rw [State.world_running] at hb
  have hbc : b.connection = c := by
    simpa [World.connectionOf, hb] using hconnection
  have hstep :
      State.next P (.running w (.owing p.callback (.perform (.complete p.callback o))) rest) =
        State.complete P w p.callback o (.owing p.callback (.done ()) :: rest) := rfl
  rw [State.complete_of_armed P o hb ha, hbc, hstack] at hstep
  refine ⟨_, p, _, hp, ?_, hex, hstep⟩
  rfl

end Trampoline
