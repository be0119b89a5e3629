import Trampoline.Proofs.Run.Tracking

/-!
# Delivery and resumption

What the invariant says about the callbacks and the terminal of a run, whatever
completions arrive in whatever order: each suspension is ended by its own callback and
once at most, the terminal is called once at most, and a run that nothing works for has
either delivered or keeps all that it needs in its bridge.

Main definitions and results:

- Definition `AtMostOnce`, theorem `Follows.atMostOnce`: nothing happens twice.
- Definitions `Executing`, `Delivered`, `Suspended`, theorem
  `Follows.delivered_or_suspended`: no run is lost.
-/

namespace Trampoline

variable {S : Closures} {σ : Type}

/-! ## Nothing happens twice -/

/-- The run delivers at most once, each of its suspensions ends at most once and by its own
callback, and no other completion has an effect. -/
structure AtMostOnce (P : Program S σ) (r : Origin S) (s : State S σ) (st : Story S) :
    Prop where
  /-- At most one outcome is delivered. -/
  outcomes : st.outcomes.length ≤ 1
  /-- A step that delivers an outcome gives it to the terminal that the run started with. -/
  delivers : (st.next r.depth s).outcomes = st.outcomes ∨ ∃ w o rest,
    (st.next r.depth s).outcomes = st.outcomes ++ [o] ∧
      s.next P = .deliver P w r.terminal o rest
  /-- Once it has delivered, nothing works for the run and its bridge has no terminal. -/
  taken : st.outcomes ≠ [] → ∀ i, st.bridge = some i →
    (∀ a ∈ s.activations, a.Idle i) ∧ ∃ b, s.world.bridges[i]? = some b ∧ b.terminal = none
  /-- The callbacks of the suspensions differ in their epochs. -/
  epochs : ∀ k cb, st.callbacks[k]? = some cb → st.bridge = some cb.bridge ∧ cb.epoch = k + 1
  /-- The suspensions end in their order, each by its own callback. -/
  resumed : st.resumptions <+: st.callbacks
  /-- A loop of the run comes back only by the callback of the suspension that has not
  ended yet. -/
  resumes : ∀ i, st.bridge = some i → (∀ a ∈ s.activations, a.Idle i) →
    (∀ a ∈ (s.next P).activations, a.Idle i) ∨
      ∃ cb, st.callbacks = st.resumptions ++ [cb] ∧ s.world.isArmed cb = true ∧
        (st.next r.depth s).resumptions = st.resumptions ++ [cb]
  /-- The bridge waits for that callback and for no other. -/
  armed : ∀ cb, st.bridge = some cb.bridge →
    (s.world.isArmed cb = true ↔ st.callbacks = st.resumptions ++ [cb])
  /-- A completion that the bridge does not wait for runs no code: it returns to what was
  waiting, and all bridges are as they were. -/
  stale : ∀ cb o rest, s.world.isArmed cb = false →
    ∃ w, State.complete P s.world cb o rest = .resume w rest ∧ w.bridges = s.world.bridges

/-- A turn adds the outcome with which the loop comes to its end. -/
theorem Story.turn_outcomes (st : Story S) (w : World S σ) (act : Activation S σ) :
    (st.turn w act).outcomes = st.outcomes ++ (act.exit? w).toList := by
  have hsame : st.outcomes = st.outcomes ++ (none : Option Outcome).toList :=
    (List.append_nil _).symm
  have hanswer : ∀ reply, (st.answer reply).outcomes = st.outcomes := by
    intro reply
    unfold Story.answer
    split <;> rfl
  have hheed : ∀ {α : Type} (code : Code S σ α) (reply : Except Failure α → Reply S),
      (st.heed w code reply).outcomes = st.outcomes := by
    intro α code reply
    cases code with
    | done a => exact hanswer _
    | panic payload =>
        simp only [Story.heed]
        split
        · exact hanswer _
        · rfl
    | _ => rfl
  cases act with
  | eval d node =>
      cases d with
      | partially stack resume => exact hsame
      | loop run =>
          simp only [Story.turn, Activation.exit?]
          split
          · rfl
          · cases node with
            | fail e =>
                simp only [Story.meet, Story.leave, CallStack.takeFor]
                cases run.stack.findErrorHandler with
                | mk frame stack => cases frame <;> first | rfl | exact hsame
            | _ => exact hsame
  | value d v =>
      cases d with
      | partially stack resume => exact hsame
      | loop run =>
          simp only [Story.turn, Story.leave, CallStack.takeFor, Activation.exit?]
          cases run.stack.popNext with
          | mk frame stack => cases frame <;> first | rfl | exact hsame
  | node d code => cases d with
    | loop run => exact (hheed code _).trans hsame
    | partially stack resume => exact hsame
  | outcome d code => cases d with
    | loop run => exact (hheed code _).trans hsame
    | partially stack resume => exact hsame
  | switch run source restore code => exact (hheed code _).trans hsame
  | _ => exact hsame

/-- What is no turn of the run adds no outcome. -/
theorem Story.next_outcomes {st : Story S} {depth : Nat} {w : World S σ} {top : Activation S σ}
    {rest : List (Activation S σ)} (h : st.takesTurn depth top rest = false) :
    (st.next depth (.running w top rest)).outcomes = st.outcomes := by
  simp only [Story.next, h, Bool.false_eq_true, if_false]
  split
  · split
    · simp only [Story.resume, Story.answer]
      split <;> rfl
    · rfl
  · rfl

/-- A run has one outcome at most. -/
theorem Tracks.outcomes_length_le {P : Program S σ} {r : Origin S} {s : State S σ} {st : Story S}
    (h : Tracks P r s st) : st.outcomes.length ≤ 1 := by
  cases h with
  | turn stands proceeds home live resumed => simp [live.outcomes]
  | calling place serves waits idle proceeds home live resumed => simp [live.outcomes]
  | suspended idle holds bridge parks completes proceeds live resumed => simp [live.outcomes]
  | delivered outcomes ending evaluates pending lost still numbered resumed => simp [outcomes]
  | lost outcomes lost pending evaluates still numbered resumed => simp [outcomes]

/-- A step that adds an outcome gives it to the terminal of the run. -/
theorem Tracks.next_delivers {P : Program S σ} {r : Origin S} {s : State S σ} {st : Story S}
    (h : Tracks P r s st) : (st.next r.depth s).outcomes = st.outcomes ∨ ∃ w o rest,
      (st.next r.depth s).outcomes = st.outcomes ++ [o] ∧
        s.next P = .deliver P w r.terminal o rest := by
  cases s with
  | returned w => exact .inl rfl
  | unwound w payload => exact .inl rfl
  | running w top rest =>
      rcases h.turn_cases with hturn | ⟨run, hrun, home, -⟩
      · exact .inl (Story.next_outcomes hturn)
      · cases hturn : st.takesTurn r.depth top rest with
        | false => exact .inl (Story.next_outcomes hturn)
        | true =>
            simp only [Story.next, hturn, if_true, st.turn_outcomes w top]
            cases ho : top.exit? w with
            | none => exact .inl (List.append_nil _)
            | some o =>
                obtain ⟨w', run', hwork, hbridges, houtlet, -⟩ := State.work_exit P rest hrun ho
                obtain ⟨w'', hfinish, -⟩ := home.finish P hbridges houtlet o
                exact .inr ⟨w'', o, rest, rfl, hwork.trans hfinish⟩

/-- A loop in its turn is in view. -/
theorem Stands.every {act : Activation S σ} {run : Loop S} {m : Course S}
    {φ : Activation S σ → Prop} (h : Stands act run m) (hφ : φ act) : act.Every φ := by
  cases h <;> exact hφ

/-- Where a run has a loop on the control stack, not all that is there is idle for it. -/
theorem Tracks.resumes_of_idle {P : Program S σ} {r : Origin S} {s : State S σ} {st : Story S}
    (h : Tracks P r s st) {i : Nat} (hi : st.bridge = some i)
    (hidle : ∀ a ∈ s.activations, a.Idle i) :
    (∀ a ∈ (s.next P).activations, a.Idle i) ∨
      ∃ cb, st.callbacks = st.resumptions ++ [cb] ∧ s.world.isArmed cb = true ∧
        (st.next r.depth s).resumptions = st.resumptions ++ [cb] := by
  have hloop : ∀ {act : Activation S σ} {run : Loop S} {w : World S σ}
      {below : List (Activation S σ)}, Home r st w below run →
      act.Every (fun a => a.loop? = some run) → act ∈ s.activations → False := by
    intro act run w below home hact hmem
    obtain ⟨a, hrun, hne⟩ := Activation.Every.both act hact (hidle act hmem)
    exact hne run hrun (home.of_bridge hi).1
  cases h with
  | turn stands proceeds home live resumed =>
      exact (hloop home (stands.every stands.loop?_eq) (by simp)).elim
  | calling place serves waits idle proceeds home live resumed =>
      exact (hloop home (serves.mono (fun a ha => ha.loop?_eq)) (by simp [place])).elim
  | delivered outcomes ending evaluates pending lost still numbered resumed =>
      exact .inl ((still i hi).next P).idle
  | lost outcomes lost pending evaluates still numbered resumed =>
      exact .inl ((still i hi).next P).idle
  | @suspended _ _ j stack c earlier q next idle holds bridge parks completes proceeds live
      resumed =>
      rw [hi, Option.some.injEq] at bridge
      subst bridge
      have parked : Parked r s st i stack c earlier q next :=
        ⟨idle, holds, hi, parks, completes, proceeds, live, resumed⟩
      cases s with
      | returned w => exact .inl idle
      | unwound w payload => exact .inl idle
      | running w top rest =>
          rcases parked.step P with ⟨_, hq⟩ | ⟨o, hresume, _⟩
          · exact .inl (hq.all_idle fun a ha => idle a (by simp [ha]))
          · refine .inr ⟨⟨i, earlier.length + 1⟩, parked.callbacks, parked.armed, ?_⟩
            rw [hresume]
            exact (parked.resume_eq _ o).2.2

/-- The bridge of a run waits for the callback of the suspension that has not ended yet. -/
theorem Tracks.armed_iff {P : Program S σ} {r : Origin S} {s : State S σ} {st : Story S}
    (h : Tracks P r s st) {cb : Callback} (hcb : st.bridge = some cb.bridge) :
    s.world.isArmed cb = true ↔ st.callbacks = st.resumptions ++ [cb] := by
  rcases h.bridge_cases hcb with
    ⟨⟨b, hb, ha⟩, hresumed⟩ | ⟨earlier, p, hparks, hresumed, hp, hb⟩
  · have hnot : ¬s.world.isArmed cb = true := fun harmed =>
      World.not_wins_of_disarmed hb ha cb ⟨rfl, harmed⟩
    simp [hnot, hresumed]
  · have hcallbacks : st.callbacks = st.resumptions ++ [⟨cb.bridge, earlier.length + 1⟩] := by
      simp [Story.callbacks, hparks, hresumed, hp]
    obtain ⟨i, epoch⟩ := cb
    rw [World.isArmed_eq_true_iff, hcallbacks]
    simp only [hb, Option.some.injEq, exists_eq_left', List.append_cancel_left_eq,
      List.cons.injEq, Callback.mk.injEq, true_and, and_true]

/-- Nothing happens twice to a run, whatever is completed, when and how often. -/
theorem Follows.atMostOnce {P : Program S σ} {r : Origin S} {s : State S σ} {st : Story S}
    (h : Follows P r s st) : AtMostOnce P r s st where
  outcomes := h.tracks.outcomes_length_le
  delivers := h.tracks.next_delivers
  taken := by
    intro hout i hi
    cases h.tracks with
    | turn stands proceeds home live resumed => exact absurd live.outcomes hout
    | calling place serves waits idle proceeds home live resumed =>
        exact absurd live.outcomes hout
    | suspended idle holds bridge parks completes proceeds live resumed =>
        exact absurd live.outcomes hout
    | delivered outcomes ending evaluates pending lost still numbered resumed =>
        obtain ⟨c, n, holds⟩ := (still i hi).holds
        exact ⟨(still i hi).idle, _, holds, rfl⟩
    | lost outcomes lost pending evaluates still numbered resumed => exact absurd outcomes hout
  epochs := fun k cb hcb => h.tracks.numbered.callback hcb
  resumed := by
    have hall : st.resumptions = st.callbacks → st.resumptions <+: st.callbacks := fun hr =>
      hr ▸ List.prefix_rfl
    cases h.tracks with
    | turn stands proceeds home live resumed => exact hall resumed
    | calling place serves waits idle proceeds home live resumed => exact hall resumed
    | suspended idle holds bridge parks completes proceeds live resumed =>
        rw [resumed, Story.callbacks, parks, List.map_append]
        exact List.prefix_append _ _
    | delivered outcomes ending evaluates pending lost still numbered resumed =>
        exact hall resumed
    | lost outcomes lost pending evaluates still numbered resumed => exact hall resumed
  resumes := fun i hi hidle => h.tracks.resumes_of_idle hi hidle
  armed := fun cb hcb => h.tracks.armed_iff hcb
  stale := fun cb o rest hcb => ⟨_, State.complete_of_not_armed P o hcb, rfl⟩

/-- A run with two suspensions, both of them ended. -/
theorem Errand.atMostOnce_answer :
    (play (.bind (.async answer) (.bind (.user answer))) 12).2.resumptions = [⟨0, 1⟩, ⟨0, 2⟩] ∧
      AtMostOnce program (origin (.bind (.async answer) (.bind (.user answer))))
        (play (.bind (.async answer) (.bind (.user answer))) 12).1
        (play (.bind (.async answer) (.bind (.user answer))) 12).2 :=
  ⟨rfl, Follows.atMostOnce (follows_play _ 12)⟩

/-! ## No run is lost -/

/-- A loop of the run is on the control stack, in view or behind a partial evaluation: in
the place where the run started, or, once it has a bridge, anywhere. -/
def Executing (r : Origin S) (st : Story S) (s : State S σ) : Prop :=
  ∃ above act below, s.activations = above ++ act :: below ∧
    act.Every fun a => ∃ run, a.loop? = some run ∧
      match st.bridge with
      | none => run.outlet = .terminal r.terminal ∧ below.length = r.depth ∧ st.outcomes = []
      | some i => run.outlet = .bridge i

/-- The run has given an outcome to its terminal, and its bridge, if it has one, waits for
nobody and has no terminal. -/
structure Delivered (st : Story S) (s : State S σ) : Prop where
  outcome : ∃ o, st.outcomes = [o]
  bridge : ∀ i, st.bridge = some i →
    ∃ b, s.world.bridges[i]? = some b ∧ b.terminal = none ∧ b.armed = none

/-- The run waits in its bridge for the completion of its latest suspension, `p`: the bridge
has the terminal of the run, the frames that were pending and the connection that was
active, and its armed epoch is the number of suspensions. -/
structure Suspended (r : Origin S) (st : Story S) (s : State S σ) (p : Park S) : Prop where
  outcome : st.outcomes = []
  latest : st.parks.getLast? = some p
  callback : p.callback.epoch = st.parks.length ∧ st.bridge = some p.callback.bridge
  bridge : ∃ b, s.world.bridges[p.callback.bridge]? = some b ∧ b.terminal = some r.terminal ∧
    b.armed = some st.parks.length ∧ b.epochs = st.parks.length ∧
    b.stack.toList = p.stack.toList ∧ b.connection = p.connection

/-- Unless a panic has taken it away, a run that has no loop on the control stack has
delivered or is suspended, and not both; and a completion of the armed epoch takes a
suspended run up with just the frames and the connection of its latest suspension. -/
theorem Follows.delivered_or_suspended {P : Program S σ} {r : Origin S} {s : State S σ}
    {st : Story S} (h : Follows P r s st) (hlost : st.lost = false)
    (hidle : ¬Executing r st s) :
    (Delivered st s ∧ ∀ p, ¬Suspended r st s p) ∨
      ∃ p, Suspended r st s p ∧ ¬Delivered st s ∧
        ∀ o rest, ∃ w, State.complete P s.world p.callback o rest = .running w
          (.eval (.loop ⟨p.connection, p.stack, .bridge p.callback.bridge⟩) (.ofOutcome o))
          rest := by
  have hexecuting : ∀ {above below : List (Activation S σ)} {act : Activation S σ}
      {run : Loop S} {w : World S σ}, s.activations = above ++ act :: below →
      act.Every (fun a => a.loop? = some run) → Home r st w below run → st.outcomes = [] →
      Executing r st s := by
    intro above below act run w hplace hact home hout
    refine ⟨above, act, below, hplace, hact.mono fun a ha => ⟨run, ha, ?_⟩⟩
    cases home with
    | direct bridge parks outlet depth => simp [bridge, outlet, depth, hout]
    | bridged i bridge outlet holds idle => simp [bridge, outlet]
  cases h.tracks with
  | turn stands proceeds home live resumed =>
      exact absurd (hexecuting (show _ = [] ++ _ :: _ from rfl) (stands.every stands.loop?_eq)
        home live.outcomes) hidle
  | calling place serves waits idle proceeds home live resumed =>
      exact absurd (hexecuting place (serves.mono fun a ha => ha.loop?_eq) home live.outcomes)
        hidle
  | lost outcomes lost pending evaluates still numbered resumed => simp [lost] at hlost
  | delivered outcomes ending evaluates pending lost still numbered resumed =>
      refine .inl ⟨⟨⟨_, outcomes⟩, fun i hi => ?_⟩, fun p hp => ?_⟩
      · obtain ⟨c, n, holds⟩ := (still i hi).holds
        exact ⟨_, holds, rfl, rfl⟩
      · have hnone := hp.outcome
        simp [outcomes] at hnone
  | @suspended _ _ i stack c earlier q next idle holds bridge parks completes proceeds live
      resumed =>
      refine .inr ⟨⟨⟨i, earlier.length + 1⟩, stack, c⟩, ⟨live.outcomes, ?_, ⟨?_, bridge⟩,
        _, holds, rfl, ?_, ?_, rfl, rfl⟩, fun hd => ?_, fun o rest => ?_⟩
      · simp [parks]
      · simp [parks]
      · simp [parks]
      · simp [parks]
      · obtain ⟨o, ho⟩ := hd.outcome
        simp [live.outcomes] at ho
      · have hcomplete : State.complete P s.world ⟨i, earlier.length + 1⟩ o rest = _ :=
          State.complete_of_armed P o holds rfl
        exact ⟨_, hcomplete⟩

/-- A run whose callback is kept is suspended when all code has returned. -/
theorem Errand.suspended_keep :
    ∃ p, Suspended (origin (.bind (.async keep) (.bind (.user answer))))
        (play (.bind (.async keep) (.bind (.user answer))) 5).2
        (play (.bind (.async keep) (.bind (.user answer))) 5).1 p ∧
      p.stack.toList = [.bind (.user answer)] := by
  have hidle : ¬Executing (origin (.bind (.async keep) (.bind (.user answer))))
      (play (.bind (.async keep) (.bind (.user answer))) 5).2
      (play (.bind (.async keep) (.bind (.user answer))) 5).1 := by
    rintro ⟨above, act, below, hplace, -⟩
    have hnone : (play (.bind (.async keep) (.bind (.user answer))) 5).1.activations = [] := rfl
    simp [hnone] at hplace
  rcases Follows.delivered_or_suspended (follows_play _ 5) rfl hidle with
    ⟨hdelivered, -⟩ | ⟨p, hp, -⟩
  · obtain ⟨o, ho⟩ := hdelivered.outcome
    have hnone : (play (.bind (.async keep) (.bind (.user answer))) 5).2.outcomes = [] := rfl
    simp [hnone] at ho
  · refine ⟨p, hp, ?_⟩
    have hlatest := hp.latest
    cases hlatest
    rfl

end Trampoline
