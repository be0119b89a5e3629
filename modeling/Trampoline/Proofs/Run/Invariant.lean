import Trampoline.Proofs.Machine.Completion
import Trampoline.Proofs.Run.Serving

/-!
# The invariant of a run

Where a run is, between any two steps of the machine: its loop has the turn, code works on
a question of its loop, it is parked in its bridge, it has delivered, or a panic has taken
it away.  In each case the invariant says where the frames, the connection and the terminal
are, and how far the evaluator has come with the same answers.

Main definitions and results:

- Definition `Home`: where a loop of the run has what it needs.
- Definition `Still`: the run has come to its end.
- Definition `Tracks`: the invariant.
- Theorem `Tracks.bridge_cases`: what is in the bridge of the run.
- Theorems `Home.finish`, `Home.arm`, `Home.followSwitch`: what a loop in its home does with
  its terminal, its frames and its connection.
-/

namespace Trampoline

variable {S : Closures} {σ : Type}

/-! ## The invariant -/

namespace Story

/-- The callbacks that were handed out for the suspensions. -/
def callbacks (st : Story S) : List Callback :=
  st.parks.map Park.callback

/-- All suspensions belong to one bridge, and their epochs count them. -/
def Numbered (st : Story S) : Prop :=
  ∀ k p, st.parks[k]? = some p → st.bridge = some p.callback.bridge ∧ p.callback.epoch = k + 1

/-- The run has come to no end yet and waits for the answer to this question, if to any. -/
structure Live (st : Story S) (q : Option (Question S)) : Prop where
  pending : st.pending = q
  outcomes : st.outcomes = []
  lost : st.lost = false
  numbered : st.Numbered

end Story

/-- Where a loop of the run has what it needs: before the first suspension all of it is in
the loop, later the terminal is in the bridge, which follows the connection of the loop and
waits for nobody. -/
inductive Home (r : Origin S) (st : Story S) (w : World S σ) (below : List (Activation S σ))
    (run : Loop S) : Prop
  | direct (bridge : st.bridge = none) (parks : st.parks = [])
      (outlet : run.outlet = .terminal r.terminal) (depth : below.length = r.depth)
  | bridged (i : Nat) (bridge : st.bridge = some i) (outlet : run.outlet = .bridge i)
      (holds : w.bridges[i]? =
        some ⟨run.connection, some r.terminal, .empty, none, st.parks.length⟩)
      (idle : ∀ a ∈ below, a.Idle i)

/-- The run of bridge `i` has come to its end: nothing on the control stack works for it,
and the bridge, with what is left of the terminal, waits for nobody. -/
structure Still (i : Nat) (t : Option (Terminal S)) (s : State S σ) : Prop where
  idle : ∀ a ∈ s.activations, a.Idle i
  holds : ∃ c n, s.world.bridges[i]? = some ⟨c, t, .empty, none, n⟩

/-- The invariant of a run. -/
inductive Tracks (P : Program S σ) (r : Origin S) : State S σ → Story S → Prop
  /-- A loop of the run has the turn. -/
  | turn {w : World S σ} {act : Activation S σ} {below : List (Activation S σ)}
      {st : Story S} {run : Loop S} {m : Course S} (stands : Stands act run m)
      (proceeds : Proceeds r.course st.exchanges (m.within run.stack.toList))
      (home : Home r st w below run) (live : st.Live none)
      (resumed : st.resumptions = st.callbacks) : Tracks P r (.running w act below) st
  /-- Code of the host works on a question of a loop of the run. -/
  | calling {s : State S σ} {above below : List (Activation S σ)} {act : Activation S σ}
      {st : Story S} {run : Loop S} {q : Question S} {next : q.Answer → Course S}
      (place : s.activations = above ++ act :: below)
      (serves : act.Every (Activation.Serves P run q next)) (waits : above = [] ∨ act.Waits)
      (idle : ∀ i, st.bridge = some i → ∀ a ∈ above, a.Idle i)
      (proceeds : Proceeds r.course st.exchanges ((Course.ask q next).within run.stack.toList))
      (home : Home r st s.world below run) (live : st.Live (some q))
      (resumed : st.resumptions = st.callbacks) : Tracks P r s st
  /-- The run is parked in its bridge. -/
  | suspended {s : State S σ} {st : Story S} {i : Nat} {stack : CallStack (Frame S)}
      {c : Connection} {earlier : List (Park S)} {q : Question S} {next : q.Answer → Course S}
      (idle : ∀ a ∈ s.activations, a.Idle i)
      (holds : s.world.bridges[i]? = some
        ⟨c, some r.terminal, stack, some (earlier.length + 1), earlier.length + 1⟩)
      (bridge : st.bridge = some i)
      (parks : st.parks = earlier ++ [⟨⟨i, earlier.length + 1⟩, stack, c⟩])
      (completes : ∀ o, next (q.read (.outcome o)) = .completion c o)
      (proceeds : Proceeds r.course st.exchanges ((Course.ask q next).within stack.toList))
      (live : st.Live (some q)) (resumed : st.resumptions = earlier.map Park.callback)
      (suspends : q.Suspends) : Tracks P r s st
  /-- The run has delivered. -/
  | delivered {s : State S σ} {st : Story S} {o : Outcome} {e : Ending S}
      (outcomes : st.outcomes = [o]) (ending : e.outcome? = some o)
      (evaluates : Evaluates r.course st.exchanges e) (pending : st.pending = none)
      (lost : st.lost = false) (still : ∀ i, st.bridge = some i → Still i none s)
      (numbered : st.Numbered) (resumed : st.resumptions = st.callbacks) : Tracks P r s st
  /-- A panic has taken the run away while code worked on a question. -/
  | lost {s : State S σ} {st : Story S} {q : Question S} (outcomes : st.outcomes = [])
      (lost : st.lost = true) (pending : st.pending = some q)
      (evaluates : Evaluates r.course st.exchanges (.asking q))
      (still : ∀ i, st.bridge = some i → Still i (some r.terminal) s)
      (numbered : st.Numbered) (resumed : st.resumptions = st.callbacks) : Tracks P r s st

/-! ## The suspensions of a run -/

/-- The callbacks of the suspensions of a run belong to its bridge and count its epochs. -/
theorem Story.Numbered.callback {st : Story S} (h : st.Numbered) {k : Nat} {cb : Callback}
    (hcb : st.callbacks[k]? = some cb) : st.bridge = some cb.bridge ∧ cb.epoch = k + 1 := by
  simp only [callbacks, List.getElem?_map, Option.map_eq_some_iff] at hcb
  obtain ⟨p, hp, rfl⟩ := hcb
  exact h k p hp

/-- What the invariant says of the suspensions of a run. -/
theorem Tracks.numbered {P : Program S σ} {r : Origin S} {s : State S σ} {st : Story S}
    (h : Tracks P r s st) : st.Numbered := by
  cases h with
  | turn stands proceeds home live resumed => exact live.numbered
  | calling place serves waits idle proceeds home live resumed => exact live.numbered
  | suspended idle holds bridge parks completes proceeds live resumed => exact live.numbered
  | delivered outcomes ending evaluates pending lost still numbered resumed => exact numbered
  | lost outcomes lost pending evaluates still numbered resumed => exact numbered

/-! ## Steps that are none of the run's business -/

namespace Story

variable {st : Story S} {depth : Nat} {w : World S σ} {top : Activation S σ}
  {rest : List (Activation S σ)}

/-- An activation takes no turn of a run for whose bridge it does not work, unless it is in
the place where the run started. -/
theorem takesTurn_of_idle (hidle : ∀ i, st.bridge = some i → top.Idle i)
    (hplace : st.bridge = none → rest.length ≠ depth ∨ st.outcomes ≠ [] ∨ st.lost = true) :
    st.takesTurn depth top rest = false := by
  unfold takesTurn
  cases hrun : top.loop? with
  | none => rfl
  | some run =>
      cases hout : run.outlet with
      | bridge i =>
          have hne : st.bridge ≠ some i := fun hi =>
            (Activation.idle_iff_of_loop? hrun).mp (hidle i hi) hout
          simpa [hout] using hne
      | terminal t =>
          cases hb : st.bridge with
          | some i => simp [hout]
          | none => rcases hplace hb with h | h | h <;> simp [hout, h]

/-- Nothing that works for other bridges takes a turn of a run that has one. -/
theorem takesTurn_of_bridge {i : Nat} (bridge : st.bridge = some i) (hidle : top.Idle i) :
    st.takesTurn depth top rest = false := by
  refine takesTurn_of_idle (fun j hj => ?_) fun hb => by simp [bridge] at hb
  rw [bridge, Option.some.injEq] at hj
  exact hj ▸ hidle

/-- The bridge of a run, or the next one to be made if the run has none yet. -/
def bridgeIn (st : Story S) (w : World S σ) : Nat :=
  st.bridge.getD w.bridges.size

/-- A step that neither is a turn of a run nor completes the callback it waits for adds
nothing to its story. -/
theorem next_eq_self (hturn : st.takesTurn depth top rest = false)
    (hwins : ∀ cb o, top.completion? w = some (cb, o) → ¬w.Wins (st.bridgeIn w) cb) :
    st.next depth (.running w top rest) = st := by
  simp only [next, hturn, Bool.false_eq_true, if_false]
  split
  · next cb o hc =>
      rw [if_neg]
      rintro ⟨hb, harmed⟩
      exact hwins cb o hc ⟨by simp [bridgeIn, hb], harmed⟩
  · rfl

end Story

/-- A bridge that waits for nobody waits for no callback. -/
theorem World.not_wins_of_disarmed {w : World S σ} {i : Nat} {b : Bridge S}
    (hb : w.bridges[i]? = some b) (ha : b.armed = none) (cb : Callback) : ¬w.Wins i cb := by
  rintro ⟨hcb, harmed⟩
  obtain ⟨b', hb', ha'⟩ := isArmed_eq_true_iff.mp harmed
  rw [hcb, hb] at hb'
  cases hb'
  rw [ha] at ha'
  cases ha'

namespace Home

variable {r : Origin S} {st : Story S} {w : World S σ} {below : List (Activation S σ)}
  {run : Loop S}

/-- Nothing completes a callback of a run whose loop has not parked. -/
theorem not_wins (home : Home r st w below run) (cb : Callback) :
    ¬w.Wins (st.bridgeIn w) cb := by
  cases home with
  | direct bridge parks outlet depth =>
      exact World.not_wins_of_size_le (by simp [Story.bridgeIn, bridge]) cb
  | bridged i bridge outlet holds idle =>
      rw [Story.bridgeIn, bridge]
      exact World.not_wins_of_disarmed holds rfl cb

/-- A step that leaves the bridge of the run alone leaves all that its loop needs. -/
theorem congr {w' : World S σ} (home : Home r st w below run)
    (h : ∀ i, st.bridge = some i → w'.bridges[i]? = w.bridges[i]?) : Home r st w' below run := by
  cases home with
  | direct bridge parks outlet depth => exact .direct bridge parks outlet depth
  | bridged i bridge outlet holds idle =>
      exact .bridged i bridge outlet ((h i bridge).trans holds) idle

/-- A loop in its home has its turn. -/
theorem takesTurn (home : Home r st w below run) (hout : st.outcomes = []) (hlost : st.lost = false)
    {act : Activation S σ} (hrun : act.loop? = some run) :
    st.takesTurn r.depth act below = true := by
  cases home with
  | direct bridge parks outlet depth =>
      simp [Story.takesTurn, hrun, outlet, bridge, hout, hlost, depth]
  | bridged i bridge outlet holds idle => simp [Story.takesTurn, hrun, outlet, bridge]

/-- No activation above the place of a loop takes a turn of the run. -/
theorem takesTurn_above (home : Home r st w below run) {top act : Activation S σ}
    {above : List (Activation S σ)} (hidle : ∀ i, st.bridge = some i → top.Idle i) :
    st.takesTurn r.depth top (above ++ act :: below) = false := by
  refine Story.takesTurn_of_idle hidle fun hb => ?_
  cases home with
  | bridged i bridge outlet holds idle => simp [hb] at bridge
  | direct bridge parks outlet depth =>
      refine .inl ?_
      rw [List.length_append, List.length_cons, depth]
      omega

/-- A loop in its home delivers where the run delivers, and stands in the place of the run. -/
theorem in_place (home : Home r st w below run) :
    match st.bridge with
    | none => run.outlet = .terminal r.terminal ∧ below.length = r.depth
    | some i => run.outlet = .bridge i := by
  cases home with
  | direct bridge parks outlet depth =>
      rw [bridge]
      exact ⟨outlet, depth⟩
  | bridged i bridge outlet holds idle =>
      rw [bridge]
      exact outlet

/-- The loop of a run that has a bridge delivers there, and the bridge has the terminal and
nothing else. -/
theorem of_bridge (home : Home r st w below run) {i : Nat} (hi : st.bridge = some i) :
    run.outlet = .bridge i ∧ w.bridges[i]? =
      some ⟨run.connection, some r.terminal, .empty, none, st.parks.length⟩ := by
  cases home with
  | direct bridge parks outlet depth => simp [bridge] at hi
  | bridged j bridge outlet holds idle =>
      rw [bridge, Option.some.injEq] at hi
      subst hi
      exact ⟨outlet, holds⟩

/-- The bridge of the run exists. -/
theorem lt_size (home : Home r st w below run) {i : Nat} (hi : st.bridge = some i) :
    i < w.bridges.size :=
  (Array.getElem?_eq_some_iff.mp (home.of_bridge hi).2).1

/-- What waits below the loop does not work for the run. -/
theorem idle_below (home : Home r st w below run)
    (hbounded : ∀ i, w.bridges.size ≤ i → ∀ a ∈ below, a.Idle i) :
    ∀ a ∈ below, a.Idle (st.bridgeIn w) := by
  cases home with
  | direct bridge parks outlet depth =>
      simpa [Story.bridgeIn, bridge] using hbounded w.bridges.size (Nat.le_refl _)
  | bridged i bridge outlet holds idle => simpa [Story.bridgeIn, bridge] using idle

end Home

/-! ## Runs at their end -/

namespace Still

variable {i : Nat} {t : Option (Terminal S)}

/-- A quiet step from a world with a bridge that waits for nobody leaves the run at its
end. -/
theorem of_quiet {w : World S σ} {rest : List (Activation S σ)} {s : State S σ} {c : Connection}
    {n : Nat} (hq : Quiet i w rest s) (hb : w.bridges[i]? = some ⟨c, t, .empty, none, n⟩)
    (hidle : ∀ a ∈ rest, a.Idle i) : Still i t s := by
  refine ⟨hq.all_idle hidle, c, n, ?_⟩
  rw [hq.bridge_eq (Array.getElem?_eq_some_iff.mp hb).1, hb]

/-- A run that has come to its end stays there. -/
theorem next {s : State S σ} (h : Still i t s) (P : Program S σ) : Still i t (s.next P) := by
  cases s with
  | returned w => exact h
  | unwound w payload => exact h
  | running w top rest =>
      obtain ⟨c, n, hb⟩ := h.holds
      have hq : Quiet i w rest (State.work P w rest top) :=
        State.quiet_work P (h.idle top (by simp)) fun cb _ _ =>
          World.not_wins_of_disarmed hb rfl cb
      exact of_quiet hq hb fun a ha => h.idle a (by simp [ha])

/-- More code of the host changes nothing for a run at its end. -/
theorem again {s : State S σ} (h : Still i t s) (code : Code S σ Unit) :
    Still i t (.start s.world code) := by
  refine ⟨fun a ha => ?_, h.holds⟩
  rw [List.mem_singleton.mp ha]
  exact Activation.idle_code i code

/-- A run at its end takes no turn. -/
theorem takesTurn {st : Story S} {w : World S σ} {top : Activation S σ}
    {rest : List (Activation S σ)} {depth : Nat}
    (still : ∀ i, st.bridge = some i → Still i t (.running w top rest))
    (hover : st.outcomes ≠ [] ∨ st.lost = true) : st.takesTurn depth top rest = false :=
  Story.takesTurn_of_idle (fun i hi => (still i hi).idle top (by simp)) fun _ => .inr hover

/-- The story of a run at its end is complete. -/
theorem story_next {st : Story S} {s : State S σ} {depth : Nat}
    (still : ∀ i, st.bridge = some i → Still i t s) (hover : st.outcomes ≠ [] ∨ st.lost = true) :
    st.next depth s = st := by
  cases s with
  | returned w => rfl
  | unwound w payload => rfl
  | running w top rest =>
      refine Story.next_eq_self (takesTurn still hover) fun cb _ _ => ?_
      cases hb : st.bridge with
      | none => exact World.not_wins_of_size_le (by simp [Story.bridgeIn, hb]) cb
      | some i =>
          obtain ⟨c, n, holds⟩ := (still i hb).holds
          rw [Story.bridgeIn, hb]
          exact World.not_wins_of_disarmed holds rfl cb

end Still

/-! ## Loops in their home -/

namespace Home

variable {r : Origin S} {st : Story S} {w : World S σ} {below : List (Activation S σ)}
  {run : Loop S}

/-- A loop in its home that ends hands its outcome to the terminal that the run started
with, and leaves the bridge without it. -/
theorem finish (P : Program S σ) (home : Home r st w below run) {w' : World S σ} {run' : Loop S}
    (hw : w'.bridges = w.bridges) (hrun : run'.outlet = run.outlet) (o : Outcome) :
    ∃ w'' : World S σ,
      State.finish P w' run' o below = State.deliver P w'' r.terminal o below ∧
      ∀ i, st.bridge = some i → Still i none (State.deliver P w'' r.terminal o below) := by
  rw [State.finish_eq, hrun]
  cases home with
  | direct bridge parks outlet depth =>
      rw [outlet]
      exact ⟨w', rfl, fun i hi => by simp [bridge] at hi⟩
  | bridged i bridge outlet holds idle =>
      rw [← hw] at holds
      rw [outlet]
      simp only [World.terminal?, World.release, holds, Option.bind_some]
      refine ⟨_, rfl, fun j hj => ?_⟩
      rw [bridge, Option.some.injEq] at hj
      subst hj
      refine .of_quiet (State.quiet_deliver P o fun cb _ => ?_)
        (World.setBridge_bridges_self holds) idle
      exact World.not_wins_of_disarmed (World.setBridge_bridges_self holds) rfl cb

/-- A loop that parks leaves its frames, its connection and its terminal in a bridge, which
waits for the next epoch. -/
theorem arm (home : Home r st w below run)
    (hbounded : ∀ i, w.bridges.size ≤ i → ∀ a ∈ below, a.Idle i) :
    (w.arm run).2 = ⟨st.bridgeIn w, st.parks.length + 1⟩ ∧
      (w.arm run).1.bridges[st.bridgeIn w]? = some ⟨run.connection, some r.terminal, run.stack,
        some (st.parks.length + 1), st.parks.length + 1⟩ ∧
      ∀ a ∈ below, a.Idle (st.bridgeIn w) := by
  refine ⟨?_, ?_, home.idle_below hbounded⟩
  · cases home with
    | direct bridge parks outlet depth => simp [World.arm, outlet, Story.bridgeIn, bridge, parks]
    | bridged i bridge outlet holds idle =>
        simp [World.arm, outlet, Story.bridgeIn, bridge, holds]
  · cases home with
    | direct bridge parks outlet depth => simp [World.arm, outlet, Story.bridgeIn, bridge, parks]
    | bridged i bridge outlet holds idle =>
        simp only [World.arm, outlet, Story.bridgeIn, bridge, holds, Option.getD_some]
        exact World.setBridge_bridges_self holds

/-- The bridge of a run follows its loop to another connection. -/
theorem followSwitch (home : Home r st w below run) (new : Connection) :
    Home r st (w.followSwitch run new) below { run with connection := new } := by
  cases home with
  | direct bridge parks outlet depth => exact .direct bridge parks outlet depth
  | bridged i bridge outlet holds idle =>
      refine .bridged i bridge outlet ?_ idle
      unfold World.followSwitch
      split
      · next hnew => rw [holds, hnew]
      · simp only [outlet, holds]
        exact World.setBridge_bridges_self holds

end Home

namespace Home

variable {r : Origin S} {st : Story S} {w : World S σ} {below : List (Activation S σ)}
  {run : Loop S}

/-- Where a loop has what it needs does not depend on the frames that are pending. -/
theorem withStack (home : Home r st w below run) (stack : CallStack (Frame S)) :
    Home r st w below { run with stack := stack } := by
  cases home with
  | direct bridge parks outlet depth => exact .direct bridge parks outlet depth
  | bridged i bridge outlet holds idle => exact .bridged i bridge outlet holds idle

/-- Where a loop has what it needs does not depend on what has been asked. -/
theorem of_story {st' : Story S} (home : Home r st w below run) (hb : st'.bridge = st.bridge)
    (hp : st'.parks = st.parks) : Home r st' w below run := by
  cases home with
  | direct bridge parks outlet depth =>
      exact .direct (hb.trans bridge) (hp.trans parks) outlet depth
  | bridged i bridge outlet holds idle =>
      exact .bridged i (hb.trans bridge) outlet (by rw [hp]; exact holds) idle

end Home

/-! ## What a bridge waits for -/

/-- The bridge of a run waits for nobody, or it has what the run has parked last, and waits
for the callback of that. -/
theorem Tracks.bridge_cases {P : Program S σ} {r : Origin S} {s : State S σ} {st : Story S}
    (h : Tracks P r s st) {i : Nat} (hi : st.bridge = some i) :
    (∃ b, s.world.bridges[i]? = some b ∧ b.armed = none) ∧ st.resumptions = st.callbacks ∨
      ∃ earlier p, st.parks = earlier ++ [p] ∧ st.resumptions = earlier.map Park.callback ∧
        p.callback = ⟨i, earlier.length + 1⟩ ∧ s.world.bridges[i]? = some ⟨p.connection,
          some r.terminal, p.stack, some (earlier.length + 1), earlier.length + 1⟩ := by
  have hhome : ∀ {w : World S σ} {below : List (Activation S σ)} {run : Loop S},
      Home r st w below run → ∃ b, w.bridges[i]? = some b ∧ b.armed = none :=
    fun home => ⟨_, (home.of_bridge hi).2, rfl⟩
  have hstill : ∀ {t : Option (Terminal S)}, Still i t s →
      ∃ b, s.world.bridges[i]? = some b ∧ b.armed = none := by
    intro t still
    obtain ⟨c, n, holds⟩ := still.holds
    exact ⟨_, holds, rfl⟩
  cases h with
  | turn stands proceeds home live resumed => exact .inl ⟨hhome home, resumed⟩
  | calling place serves waits idle proceeds home live resumed => exact .inl ⟨hhome home, resumed⟩
  | delivered outcomes ending evaluates pending lost still numbered resumed =>
      exact .inl ⟨hstill (still i hi), resumed⟩
  | lost outcomes lost pending evaluates still numbered resumed =>
      exact .inl ⟨hstill (still i hi), resumed⟩
  | suspended idle holds bridge parks completes proceeds live resumed =>
      rw [hi, Option.some.injEq] at bridge
      subst bridge
      exact .inr ⟨_, _, parks, resumed, rfl, holds⟩

end Trampoline
