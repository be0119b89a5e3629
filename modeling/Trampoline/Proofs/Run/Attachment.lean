import Trampoline.Proofs.Run.Restoration
import Trampoline.Proofs.Run.Standing

/-!
# A run and its bridge have one connection

A run that has been suspended has its connection in two places: its loop has one while it is at
work, and its bridge has one, which the callbacks of the run show and with which the next loop
starts.  The bridge gets it when the run parks for the first time, and follows each switch that
the loop makes after that.  So wherever code can look, it is the connection under which the
evaluation of the run stands: while code of the run works, while the run is suspended, when it has
delivered, and when a panic has taken it away.

Main definitions and results:

- Definition `Story.Held`: the connection that the bridge of a run holds.
- Theorem `Tracks.held_of_active`: it is the one that the run is active on.
- Theorem `Follows.held`: it is the one under which the evaluation of the run stands.
- Definition `Park.Boundary`, theorem `Follows.boundary`: where a run was suspended.
- Definition `Attached`, theorem `Follows.attached`: the connections of a run and of its bridge.
-/

namespace Trampoline

variable {S : Closures} {σ : Type}

/-! ## The connection of the bridge -/

namespace World

variable {w : World S σ}

/-- What is written to a bridge may leave its connection alone. -/
theorem setBridge_connection {i : Nat} {b b' : Bridge S} (h : w.bridges[i]? = some b)
    (hc : b'.connection = b.connection) (j : Nat) :
    (w.setBridge i b').bridges[j]?.map Bridge.connection =
      w.bridges[j]?.map Bridge.connection := by
  by_cases hj : i = j
  · subst hj
    rw [setBridge_bridges_self h, h, Option.map_some, Option.map_some, hc]
  · rw [setBridge_bridges_of_ne hj]

/-- A terminal is taken from a bridge without a change of its connection. -/
theorem release_connection (w : World S σ) (outlet : Outlet S) (j : Nat) :
    (w.release outlet).bridges[j]?.map Bridge.connection =
      w.bridges[j]?.map Bridge.connection := by
  cases outlet with
  | terminal t => rfl
  | bridge i =>
      cases hb : w.bridges[i]? with
      | none => simp only [release, hb]
      | some b =>
          simp only [release, hb]
          exact setBridge_connection hb (by rfl) j

/-- The connections of a bridge are those that its callbacks show. -/
theorem connectionOf_of_bridge {i : Nat} {b : Bridge S} (h : w.bridges[i]? = some b)
    {cb : Callback} (hcb : cb.bridge = i) : w.connectionOf cb = b.connection := by
  subst hcb
  simp [connectionOf, h]

end World

namespace State

variable (P : Program S σ) {w : World S σ} {rest : List (Activation S σ)}

/-- A return to the activation below changes no bridge. -/
@[simp]
theorem connection_resume (j : Nat) :
    (resume w rest).world.bridges[j]?.map Bridge.connection =
      w.bridges[j]?.map Bridge.connection := by
  cases rest <;> rfl

/-- A completion takes the parked run up under the connection of its bridge. -/
theorem connection_complete (cb : Callback) (o : Outcome) (j : Nat) :
    (complete P w cb o rest).world.bridges[j]?.map Bridge.connection =
      w.bridges[j]?.map Bridge.connection := by
  cases harmed : w.isArmed cb with
  | false =>
      rw [complete_of_not_armed P o harmed, connection_resume]
      rfl
  | true =>
      obtain ⟨b, hb, ha⟩ := World.isArmed_eq_true_iff.mp harmed
      rw [complete_of_armed P o hb ha, world_running, World.report_bridges]
      exact World.setBridge_connection hb (by rfl) j

/-- The end of a run changes the connection of no bridge. -/
theorem connection_finish (run : Loop S) (o : Outcome) (j : Nat) :
    (finish P w run o rest).world.bridges[j]?.map Bridge.connection =
      w.bridges[j]?.map Bridge.connection := by
  have hdeliver : ∀ (w : World S σ) (t : Terminal S),
      (deliver P w t o rest).world.bridges[j]?.map Bridge.connection =
        w.bridges[j]?.map Bridge.connection := by
    intro w t
    cases t with
    | user k => rfl
    | complete cb => exact connection_complete P cb o j
  rw [finish_eq]
  cases w.terminal? run.outlet with
  | none => exact connection_resume j
  | some t => exact (hdeliver _ t).trans (w.release_connection run.outlet j)

end State

/-- The bridge of a run, if it has one, holds this connection. -/
def Story.Held (st : Story S) (w : World S σ) (c : Connection) : Prop :=
  ∀ i, st.bridge = some i → w.bridges[i]?.map Bridge.connection = some c

namespace Story.Held

variable {st : Story S} {w : World S σ} {c : Connection}

/-- Every callback of the run shows that connection. -/
theorem connectionOf (h : st.Held w c) {cb : Callback} (hcb : st.bridge = some cb.bridge) :
    w.connectionOf cb = c := by
  obtain ⟨b, hb, hc⟩ := Option.map_eq_some_iff.mp (h cb.bridge hcb)
  rw [World.connectionOf_of_bridge hb rfl, hc]

/-- A bridge that keeps its connection holds what it has held. -/
theorem congr {st' : Story S} {w' : World S σ} (h : st.Held w c) (hb : st'.bridge = st.bridge)
    (hw : ∀ i, st.bridge = some i →
      w'.bridges[i]?.map Bridge.connection = w.bridges[i]?.map Bridge.connection) :
    st'.Held w' c := by
  intro i hi
  rw [hb] at hi
  rw [hw i hi, h i hi]

end Story.Held

/-- The bridge of a run holds the connection of its loop. -/
theorem Home.held {r : Origin S} {st : Story S} {w : World S σ} {below : List (Activation S σ)}
    {run : Loop S} (home : Home r st w below run) : st.Held w run.connection := by
  intro i hi
  rw [(home.of_bridge hi).2]
  rfl

/-- A run in front of frames with an exit stands under the connection of the exit. -/
theorem Origin.On.of_exit {r : Origin S} {xs : List (Exchange S)} {c : Connection} {o : Outcome}
    {frames : List (Frame S)}
    (h : Proceeds r.course xs ((Course.exit c o).within frames)) : r.On xs c := by
  exact ⟨_, h, (Course.under_within frames).mpr rfl, fun ha =>
    absurd ha (Course.head_within_exit_ne_aborted c o frames)⟩

/-- A loop that comes to an end leaves the evaluation under its connection, and the story with
the bridge that it had. -/
theorem Stands.exits {r : Origin S} {st : Story S} {w : World S σ} {act : Activation S σ}
    {run : Loop S} {m : Course S} (stands : Stands act run m)
    (proceeds : Proceeds r.course st.exchanges (m.within run.stack.toList)) {o : Outcome}
    (ho : act.exit? w = some o) :
    r.On (st.turn w act).exchanges run.connection ∧ (st.turn w act).bridge = st.bridge := by
  cases stands with
  | eval _ e =>
      have hlooked := proceeds.trans
        ((Proceeds.look run.connection e (w.connections.isCanceled run.connection)).within
          run.stack.toList)
      rw [Story.turn_eval_exchanges]
      cases hc : w.connections.isCanceled run.connection with
      | true =>
          rw [hc] at hlooked
          refine ⟨⟨_, hlooked, (Course.under_within _).mpr trivial, fun _ => by simp⟩, ?_⟩
          simp only [Story.turn, hc, if_true]
          rfl
      | false =>
          simp only [Activation.exit?, hc, Bool.false_eq_true, if_false] at ho
          rw [hc] at hlooked
          cases e with
          | fail e =>
              refine ⟨.of_exit hlooked, ?_⟩
              simp only [Story.turn, Story.meet, Story.leave, hc, Bool.false_eq_true, if_false]
              split <;> rfl
          | _ => cases ho
  | value _ v =>
      simp only [Story.turn, Story.leave]
      split <;> exact ⟨.of_exit proceeds, rfl⟩
  | node _ e => cases ho
  | switch _ source restore new => cases ho

/-- The evaluation of a run stands under the connection under which it asks, and the question
names that. -/
theorem Question.GoesOn.on {r : Origin S} {xs : List (Exchange S)} {c : Connection}
    {q : Question S} {next : q.Answer → Course S} (hgoes : q.GoesOn c next)
    {frames : List (Frame S)} (h : Proceeds r.course xs ((Course.ask q next).within frames)) :
    q.Under c ∧ r.On xs c := by
  have hstart : r.course.Under r.connection := (Course.under_within r.stack.toList).mpr rfl
  obtain ⟨d, hd⟩ := h.stands_under hstart
  obtain ⟨hqd, hgoes', -⟩ := (Course.under_within frames).mp hd
  obtain rfl := hgoes.unique hgoes'
  refine ⟨hqd, _, h, hd, fun ha => ?_⟩
  rw [Course.head_within_asks rfl frames] at ha
  cases ha

namespace Tracks

variable {P : Program S σ} {r : Origin S} {s : State S σ} {st : Story S}

/-- Wherever a run is active, its bridge holds the connection that it is active on. -/
theorem held_of_active (h : Tracks P r s st) {c : Connection} {stack : CallStack (Frame S)}
    (hactive : Active r st s c stack) : st.Held s.world c := by
  have hstill : ∀ {t : Option (Terminal S)}, (∀ i, st.bridge = some i → Still i t s) →
      st.Held s.world c := by
    intro t still i hi
    obtain ⟨b, epoch, hb, harmed, -⟩ := hactive.of_idle hi (still i hi).idle
    obtain ⟨d, n, holds⟩ := (still i hi).holds
    rw [holds, Option.some.injEq] at hb
    subst hb
    cases harmed
  cases h with
  | @turn w act below _ run m stands proceeds home live resumed =>
      have place : (State.running w act below).activations = [] ++ act :: below := rfl
      obtain ⟨hc, -⟩ := home.of_active place (stands.every stands.loop?_eq) (by simp) hactive
      exact hc ▸ home.held
  | calling place serves waits idle proceeds home live resumed =>
      obtain ⟨hc, -⟩ := home.of_active place (serves.mono fun a ha => ha.loop?_eq) idle hactive
      exact hc ▸ home.held
  | @suspended _ _ i stack' c' earlier q next idle holds bridge parks completes proceeds live
      resumed suspends =>
      obtain ⟨b, epoch, hb, -, hc, -⟩ := hactive.of_idle bridge idle
      intro k hk
      rw [bridge, Option.some.injEq] at hk
      rw [← hk, hb, Option.map_some, hc]
  | delivered outcomes ending evaluates pending lost still numbered resumed => exact hstill still
  | lost outcomes lost pending evaluates still numbered resumed => exact hstill still

/-- A run that has come to no end is active on some connection. -/
theorem active (h : Tracks P r s st) (hout : st.outcomes = []) (hlost : st.lost = false) :
    ∃ c stack, Active r st s c stack := by
  cases h with
  | turn stands proceeds home live resumed =>
      exact ⟨_, _, home.active (show _ = [] ++ _ :: _ from rfl) (stands.every stands.loop?_eq)⟩
  | calling place serves waits idle proceeds home live resumed =>
      exact ⟨_, _, home.active place (serves.mono fun a ha => ha.loop?_eq)⟩
  | suspended idle holds bridge parks completes proceeds live resumed suspends =>
      exact ⟨_, _, .inr ⟨_, _, _, bridge, holds, rfl, rfl, rfl⟩⟩
  | delivered outcomes ending evaluates pending lost still numbered resumed =>
      simp [outcomes] at hout
  | lost outcomes lost pending evaluates still numbered resumed => simp [hlost] at lost

/-- A run that waits for an answer is active on the connection under which its evaluation
stands. -/
theorem on_of_pending (h : Tracks P r s st) {q : Question S} (hq : st.pending = some q)
    (hlost : st.lost = false) :
    ∃ c stack, Active r st s c stack ∧ q.Under c ∧ r.On st.exchanges c := by
  obtain ⟨c, stack, next, hactive, hgoes, hasks⟩ := h.active_of_pending hq hlost
  obtain ⟨hqc, hon⟩ := hgoes.on hasks
  exact ⟨c, stack, hactive, hqc, hon⟩

/-- A step that delivers an outcome does so under the connection under which the evaluation
stands then, and the bridge holds it. -/
theorem on_of_delivers (h : Tracks P r s st) (hnone : st.outcomes = [])
    (hout : (st.next r.depth s).outcomes ≠ []) :
    ∃ c, r.On (st.next r.depth s).exchanges c ∧ (st.next r.depth s).Held (s.next P).world c := by
  cases s with
  | returned w => exact absurd hnone hout
  | unwound w payload => exact absurd hnone hout
  | running w top rest =>
      cases hturn : st.takesTurn r.depth top rest with
      | false =>
          rw [Story.next_outcomes hturn] at hout
          exact absurd hnone hout
      | true =>
          simp only [Story.next, hturn, if_true] at hout ⊢
          rw [st.turn_outcomes w top, hnone, List.nil_append] at hout
          obtain ⟨o, ho⟩ : ∃ o, top.exit? w = some o := by
            cases hexit : top.exit? w with
            | none => simp [hexit] at hout
            | some o => exact ⟨o, rfl⟩
          rcases h.turn_cases with hno | ⟨run, hrun, home, ⟨m, stands, live, proceeds⟩ |
            ⟨q, next, serves, live⟩⟩
          · simp [hturn] at hno
          · -- The outcome leaves the loop, and no bridge changes its connection.
            obtain ⟨w', run', hwork, hbridges, -⟩ := State.work_exit P rest hrun ho
            obtain ⟨hon, hbridge⟩ := stands.exits proceeds ho
            refine ⟨run.connection, hon, home.held.congr hbridge fun i _ => ?_⟩
            rw [State.next, hwork, State.connection_finish, hbridges]
          · cases top with
            | node d code => cases ho
            | outcome d code => cases ho
            | switch run source restore code => cases ho
            | _ => exact serves.elim

end Tracks

/-! ## The connection at the end of a run -/

namespace Story

variable {st : Story S}

/-- An exit takes no run away. -/
@[simp]
theorem leave_lost (run : Loop S) (o : Outcome) : (st.leave run o).lost = st.lost := by
  unfold leave
  split <;> rfl

/-- An exit suspends no run. -/
@[simp]
theorem leave_parks (run : Loop S) (o : Outcome) : (st.leave run o).parks = st.parks := by
  unfold leave
  split <;> rfl

/-- An exit makes no bridge. -/
@[simp]
theorem leave_bridge (run : Loop S) (o : Outcome) : (st.leave run o).bridge = st.bridge := by
  unfold leave
  split <;> rfl

/-- A loop in front of a node takes no run away. -/
@[simp]
theorem meet_lost (w : World S σ) (run : Loop S) (node : Effect S) :
    (st.meet w run node).lost = st.lost := by
  cases node with
  | fail e => exact leave_lost run _
  | _ => rfl

/-- The end of code suspends no run. -/
@[simp]
theorem heed_parks {α : Type} (w : World S σ) (code : Code S σ α)
    (reply : Except Failure α → Reply S) : (st.heed w code reply).parks = st.parks := by
  cases code with
  | done a => exact answer_parks st _
  | panic payload =>
      simp only [heed]
      split
      · exact answer_parks st _
      · rfl
  | _ => rfl

/-- The end of code makes no bridge. -/
@[simp]
theorem heed_bridge {α : Type} (w : World S σ) (code : Code S σ α)
    (reply : Except Failure α → Reply S) : (st.heed w code reply).bridge = st.bridge := by
  cases code with
  | done a => exact answer_bridge st _
  | panic payload =>
      simp only [heed]
      split
      · exact answer_bridge st _
      · rfl
  | _ => rfl

/-- A completion takes nothing away, and parks nothing. -/
theorem next_of_not_turn {depth : Nat} {w : World S σ} {top : Activation S σ}
    {rest : List (Activation S σ)} (h : st.takesTurn depth top rest = false) :
    (st.next depth (.running w top rest)).lost = st.lost ∧
      (st.next depth (.running w top rest)).parks = st.parks ∧
      (st.next depth (.running w top rest)).bridge = st.bridge := by
  simp only [next, h, Bool.false_eq_true, if_false]
  split
  · split <;> simp [resume]
  · exact ⟨rfl, rfl, rfl⟩

end Story

/-- A loop in its turn is not taken away. -/
theorem Stands.turn_lost {act : Activation S σ} {run : Loop S} {m : Course S}
    (h : Stands act run m) (st : Story S) (w : World S σ) : (st.turn w act).lost = st.lost := by
  cases h with
  | eval _ e =>
      simp only [Story.turn]
      split
      · rfl
      · exact Story.meet_lost w run e
  | value _ v => exact Story.leave_lost run _
  | node _ e => exact Story.answer_lost st _
  | switch _ source restore new => exact Story.answer_lost st _

/-- A run is taken away in front of an answer, by a fatal panic, which leaves all bridges alone. -/
theorem Tracks.loses {P : Program S σ} {r : Origin S} {s : State S σ} {st : Story S}
    (h : Tracks P r s st) (hbefore : st.lost = false)
    (hafter : (st.next r.depth s).lost = true) : st.pending ≠ none ∧
      st.next r.depth s = { st with lost := true } ∧
      (s.next P).world.bridges = s.world.bridges ∧
      ∃ w payload rest, w.classifier payload = false ∧ s.next P = .unwind w payload rest := by
  have hnot : (st.next r.depth s).lost ≠ st.lost := by simp [hbefore, hafter]
  cases h.stepping with
  | other same => exact absurd (congrArg Story.lost same) hnot
  | turn step stands home live =>
      rw [step] at hnot
      exact absurd (stands.turn_lost st _) hnot
  | resumes step =>
      rw [step] at hnot
      exact absurd (Story.answer_lost _ _) hnot
  | @serves w _ rest _ _ _ _ step serves home live =>
      obtain ⟨α, holder, code, rfl, hloop, -⟩ := serves.wrap
      rw [step, Story.turn_wrap st w hloop] at hnot ⊢
      cases code with
      | done a => exact absurd (Story.answer_lost st _) hnot
      | panic payload =>
          cases hc : w.classifier payload with
          | true =>
              simp only [Story.heed, hc, if_true] at hnot
              exact absurd (Story.answer_lost st _) hnot
          | false =>
              have hnext : State.next P (.running w (holder.wrap (.panic payload)) rest) =
                  .unwind w payload rest := by
                rw [State.next, State.work_wrap]
                simp [State.advance, holder.escape_eq P w rest hloop, State.panicIn,
                  State.contain, hc]
              refine ⟨by simp [live.pending], by simp [Story.heed, hc], ?_, w, payload, rest,
                hc, hnext⟩
              rw [hnext, State.world_unwind]
              rfl
      | _ => exact absurd rfl hnot

/-- The bridge of a run that has come to its end stays as it is. -/
theorem Still.next_bridges {i : Nat} {t : Option (Terminal S)} {s : State S σ} (h : Still i t s)
    (P : Program S σ) : (s.next P).world.bridges[i]? = s.world.bridges[i]? := by
  cases s with
  | returned w => rfl
  | unwound w payload => rfl
  | running w top rest =>
      obtain ⟨c, n, holds⟩ := h.holds
      have hq : Quiet i w rest (State.work P w rest top) :=
        State.quiet_work P (h.idle top (by simp)) fun cb _ _ =>
          World.not_wins_of_disarmed holds rfl cb
      exact hq.bridge_eq (Array.getElem?_eq_some_iff.mp holds).1

/-- Where code may look at the connection of a run that has a bridge, the bridge holds the one
under which the evaluation of the run stands. -/
theorem Follows.held {P : Program S σ} {r : Origin S} {s : State S σ} {st : Story S}
    (h : Follows P r s st) (hlook : st.pending ≠ none ∨ st.outcomes ≠ []) :
    ∃ c, r.On st.exchanges c ∧ st.Held s.world c := by
  induction h with
  | start h depth => simp [Story.beginning] at hlook
  | again h hs code ih => exact ih hlook
  | @next s st h ih =>
      have htracks := h.tracks
      have hnext := h.next.tracks
      -- A run that has come to its end keeps what it had then.
      have hstill : ∀ {t : Option (Terminal S)}, (∀ i, st.bridge = some i → Still i t s) →
          st.outcomes ≠ [] ∨ st.lost = true → st.pending ≠ none ∨ st.outcomes ≠ [] →
          ∃ c, r.On (st.next r.depth s).exchanges c ∧
            (st.next r.depth s).Held (s.next P).world c := by
        intro t still hover hlook
        obtain ⟨c, hon, hheld⟩ := ih hlook
        rw [Still.story_next still hover]
        exact ⟨c, hon, hheld.congr rfl fun i hi => by rw [(still i hi).next_bridges P]⟩
      by_cases hout : st.outcomes = []
      · cases hlost : st.lost with
        | true =>
            obtain ⟨-, hpending, -, still⟩ := htracks.still_of_lost hlost
            exact hstill still (.inr hlost) (.inl hpending)
        | false =>
            by_cases hout' : (st.next r.depth s).outcomes = []
            · cases hlost' : (st.next r.depth s).lost with
              | true =>
                  obtain ⟨hpending, hlose, hbridges, -⟩ := htracks.loses hlost hlost'
                  obtain ⟨c, hon, hheld⟩ := ih (.inl hpending)
                  rw [hlose]
                  exact ⟨c, hon, hheld.congr rfl fun i _ => by rw [hbridges]⟩
              | false =>
                  obtain ⟨q, hq⟩ := Option.ne_none_iff_exists'.mp
                    (hlook.resolve_right (absurd hout'))
                  obtain ⟨c, stack, hactive, -, hon⟩ := hnext.on_of_pending hq hlost'
                  exact ⟨c, hon, hnext.held_of_active hactive⟩
            · exact htracks.on_of_delivers hout hout'
      · exact hstill (htracks.still_of_delivered hout) (.inl hout) (.inr hout)

/-! ## The boundaries of a run -/

/-- A run that has asked this much was suspended in front of a question: its evaluation asked the
question under the connection that was parked, with the frames that were parked, and takes the
answer under that connection. -/
structure Park.Boundary (p : Park S) (r : Origin S) (xs : List (Exchange S)) (q : Question S) :
    Prop where
  suspends : q.Suspends
  under : q.Under p.connection
  asks : ∃ next, q.GoesOn p.connection next ∧
    Proceeds r.course xs ((Course.ask q next).within p.stack.toList)

namespace Park.Boundary

variable {p : Park S} {r : Origin S} {xs : List (Exchange S)} {q : Question S}

/-- After the answer, the connection is looked at first. -/
theorem looks (h : p.Boundary r xs q) {ys : List (Exchange S)} {a : q.Answer} {x : Exchange S}
    {n : Course S} (hn : Proceeds r.course (xs ++ ⟨q, a⟩ :: x :: ys) n) :
    x.question = .canceled p.connection := by
  obtain ⟨next, hgoes, hasks⟩ := h.asks
  have hnext : ∀ a, ∃ o, next a = Course.completion p.connection o := by
    have hsuspends := h.suspends
    cases q with
    | async k c => exact fun a => ⟨a, congrFun hgoes a⟩
    | parked node stack c => exact fun a => ⟨a, congrFun hgoes a⟩
    | deferred context body c => exact fun a => ⟨a, congrFun hgoes a⟩
    | _ => exact hsuspends.elim
  rcases (hasks.rest hn).taken (Course.head_within_asks rfl p.stack.toList) with
    ⟨hnil, -⟩ | ⟨b, zs, hcons, hgo⟩
  · cases hnil
  · rw [List.cons.injEq] at hcons
    obtain ⟨hx, rfl⟩ := hcons
    cases hx
    obtain ⟨o, ho⟩ := hnext a
    rw [ho] at hgo
    rcases hgo.taken (Course.head_within_asks rfl p.stack.toList) with
      ⟨hnil, -⟩ | ⟨b', zs', hcons', -⟩
    · cases hnil
    · rw [List.cons.injEq] at hcons'
      rw [hcons'.1]

/-- Up to the next switch, the evaluation of the run stands under the connection that was
parked, and asks under it. -/
theorem unswitched (h : p.Boundary r xs q) {ys : List (Exchange S)} {m n : Course S}
    (hm : Proceeds r.course xs m) (hhead : ∃ next, m.head = .asks q next)
    (hunswitched : ProceedsUnswitched m ys n) :
    r.On (xs ++ ys) p.connection ∧ ∀ y ∈ ys, y.question.Under p.connection := by
  obtain ⟨next, hgoes, hasks⟩ := h.asks
  obtain ⟨next', hnext⟩ := hhead
  obtain rfl := hm.eq_of_asks hasks hnext (Course.head_within_asks rfl p.stack.toList)
  have hlook : ∀ d, q ≠ .canceled d := by
    rintro d rfl
    exact h.suspends
  have under : ((Course.ask q next).within p.stack.toList).Under p.connection :=
    (Course.under_within p.stack.toList).mpr ⟨h.under, hgoes, hlook⟩
  exact ⟨.unswitched hm under (by simp [hnext]) hunswitched, (hunswitched.under under).2⟩

end Park.Boundary

/-- A step that parks waits for the answer to a question for which the run suspends.  Any other
leaves the run the bridge that it has. -/
theorem Story.next_parks (st : Story S) (depth : Nat) (s : State S σ) :
    ((st.next depth s).parks = st.parks ∧ (st.next depth s).bridge = st.bridge) ∨
      ∃ p q, (st.next depth s).parks = st.parks ++ [p] ∧ (st.next depth s).pending = some q ∧
        q.Suspends := by
  cases s with
  | returned w => exact .inl ⟨rfl, rfl⟩
  | unwound w payload => exact .inl ⟨rfl, rfl⟩
  | running w top rest =>
      cases hturn : st.takesTurn depth top rest with
      | false => exact .inl (Story.next_of_not_turn hturn).2
      | true =>
          simp only [Story.next, hturn, if_true]
          cases top with
          | eval d node =>
              cases d with
              | partially stack resume => exact .inl ⟨rfl, rfl⟩
              | loop run =>
                  simp only [Story.turn]
                  split
                  · exact .inl ⟨rfl, rfl⟩
                  · cases node with
                    | fail e => exact .inl ⟨Story.leave_parks run _, Story.leave_bridge run _⟩
                    | async k => exact .inr ⟨_, _, rfl, rfl, trivial⟩
                    | parked inner stack => exact .inr ⟨_, _, rfl, rfl, trivial⟩
                    | deferred context b => exact .inr ⟨_, _, rfl, rfl, trivial⟩
                    | _ => exact .inl ⟨rfl, rfl⟩
          | value d v => cases d with
            | loop run => exact .inl ⟨Story.leave_parks run _, Story.leave_bridge run _⟩
            | partially stack resume => exact .inl ⟨rfl, rfl⟩
          | node d code => cases d with
            | loop run => exact .inl ⟨Story.heed_parks w code _, Story.heed_bridge w code _⟩
            | partially stack resume => exact .inl ⟨rfl, rfl⟩
          | outcome d code => cases d with
            | loop run => exact .inl ⟨Story.heed_parks w code _, Story.heed_bridge w code _⟩
            | partially stack resume => exact .inl ⟨rfl, rfl⟩
          | switch run source restore code =>
              exact .inl ⟨Story.heed_parks w code _, Story.heed_bridge w code _⟩
          | _ => exact .inl ⟨rfl, rfl⟩

/-- A run that waits for the answer to a question for which it suspends stands at the boundary
that it has parked last. -/
theorem Tracks.boundary {P : Program S σ} {r : Origin S} {s : State S σ} {st : Story S}
    (h : Tracks P r s st) {q : Question S} (hq : st.pending = some q) (hsuspends : q.Suspends)
    (hlost : st.lost = false) :
    ∃ p, st.parks.getLast? = some p ∧ p.Boundary r st.exchanges q := by
  obtain ⟨i, stack, c, earlier, next, parked⟩ := h.parked_of_suspends hq hsuspends hlost
  obtain ⟨c', hgoes⟩ := parked.proceeds.goesOn
  rw [hgoes.of_completes parked.completes] at hgoes
  exact ⟨⟨⟨i, earlier.length + 1⟩, stack, c⟩, by rw [parked.parks, List.getLast?_concat],
    hsuspends, (hgoes.on parked.proceeds).1, next, hgoes, parked.proceeds⟩

/-- All suspensions of a run were boundaries of its evaluation.  It still waits there, or it has
the answer. -/
theorem Follows.boundary {P : Program S σ} {r : Origin S} {s : State S σ} {st : Story S}
    (h : Follows P r s st) {p : Park S} (hp : p ∈ st.parks) : ∃ xs q, p.Boundary r xs q ∧
      (st.exchanges = xs ∧ st.pending = some q ∨ ∃ a, xs ++ [⟨q, a⟩] <+: st.exchanges) := by
  induction h with
  | start h depth => simp [Story.beginning] at hp
  | again h hs code ih => exact ih hp
  | @next s st h ih =>
      have htracks := h.tracks
      have hearlier : p ∈ st.parks → ∃ xs q, p.Boundary r xs q ∧
          ((st.next r.depth s).exchanges = xs ∧ (st.next r.depth s).pending = some q ∨
            ∃ a, xs ++ [⟨q, a⟩] <+: (st.next r.depth s).exchanges) := by
        intro hp
        obtain ⟨xs, q, hboundary, ⟨rfl, hq⟩ | ⟨a, hprefix⟩⟩ := ih hp
        · rcases htracks.next_of_pending hq with ⟨hq', hex, -⟩ | ⟨a, hadds, -⟩
          · exact ⟨_, q, hboundary, .inl ⟨hex, hq'⟩⟩
          · exact ⟨_, q, hboundary, .inr ⟨a, hadds ▸ List.prefix_rfl⟩⟩
        · exact ⟨xs, q, hboundary, .inr ⟨a, hprefix.trans ((Leads.step P r s st).exchanges h)⟩⟩
      rcases st.next_parks r.depth s with ⟨hsame, -⟩ | ⟨p', q, hparks, hq, hsuspends⟩
      · exact hearlier (hsame ▸ hp)
      · rw [hparks, List.mem_append, List.mem_singleton] at hp
        rcases hp with hp | rfl
        · exact hearlier hp
        · have hgrows : (st.next r.depth s).parks ≠ st.parks := by simp [hparks]
          have hlost : (st.next r.depth s).lost = false := by
            by_contra hlost
            rw [Bool.not_eq_false] at hlost
            cases hbefore : st.lost with
            | true =>
                obtain ⟨-, -, -, still⟩ := htracks.still_of_lost hbefore
                exact hgrows (by rw [Still.story_next still (.inr hbefore)])
            | false =>
                obtain ⟨-, hlose, -⟩ := htracks.loses hbefore hlost
                exact hgrows (by rw [hlose])
          obtain ⟨p', hlast, hboundary⟩ := h.next.tracks.boundary hq hsuspends hlost
          simp only [hparks, List.getLast?_concat, Option.some.injEq] at hlast
          subst hlast
          exact ⟨_, q, hboundary, .inl ⟨rfl, hq⟩⟩

/-! ## A run and its bridge -/

/-- The connections of a run and of its bridge, in any state in which the run is followed. -/
structure Attached (P : Program S σ) (r : Origin S) (s : State S σ) (st : Story S) : Prop where
  /-- A run that has come to no end is active on a connection. -/
  active : st.outcomes = [] → st.lost = false → ∃ c stack, Active r st s c stack
  /-- Its bridge holds the connection that it is active on, at any time. -/
  held : ∀ c stack, Active r st s c stack → st.Held s.world c
  /-- While code works on a question of the run, while it is suspended for one, and when it has
  come to its end, the bridge holds the one connection under which the evaluation of the run
  stands, and all callbacks of the run show it; and a run that waits for an answer is active
  on it and has asked under it. -/
  stands : st.pending ≠ none ∨ st.outcomes ≠ [] → ∃ c, (∀ d, r.On st.exchanges d ↔ d = c) ∧
    st.Held s.world c ∧ (∀ cb, st.bridge = some cb.bridge → s.world.connectionOf cb = c) ∧
    ∀ q, st.pending = some q → st.lost = false → q.Under c ∧ ∃ stack, Active r st s c stack
  /-- When a question is asked, the machine starts its code with the connection that the question
  names, and with a callback that shows it. -/
  starts : ∀ q, st.pending = none → (st.next r.depth s).pending = some q →
    q.Started P (st.next r.depth s) (s.next P)
  /-- Each suspension was one at a boundary of the evaluation, under the connection that was
  parked there: the question for which the run suspends names it, the answer is followed by a
  look at it, and up to the next switch it is the connection under which the run asks, and the one
  that the bridge and the callbacks of the run show. -/
  boundary : ∀ p ∈ st.parks, ∃ xs q, p.Boundary r xs q ∧
    (st.exchanges = xs ∧ st.pending = some q ∨ ∃ a, xs ++ [⟨q, a⟩] <+: st.exchanges) ∧
    (∀ a x ys, st.exchanges = xs ++ ⟨q, a⟩ :: x :: ys → x.question = .canceled p.connection) ∧
    ∀ m ys n, Proceeds r.course xs m → (∃ next, m.head = .asks q next) → ProceedsUnswitched m ys n →
      xs ++ ys <+: st.exchanges → (∀ y ∈ ys, y.question.Under p.connection) ∧
        (xs ++ ys = st.exchanges → st.pending ≠ none ∨ st.outcomes ≠ [] →
          st.Held s.world p.connection ∧
          ∀ cb, st.bridge = some cb.bridge → s.world.connectionOf cb = p.connection)

/-- A run and its bridge never drift apart. -/
theorem Follows.attached {P : Program S σ} {r : Origin S} {s : State S σ} {st : Story S}
    (h : Follows P r s st) : Attached P r s st where
  active := h.tracks.active
  held := fun _ _ => h.tracks.held_of_active
  stands := by
    intro hlook
    obtain ⟨c, hon, hheld⟩ := h.held hlook
    refine ⟨c, fun d => ⟨fun hd => hd.unique hon, fun hd => hd ▸ hon⟩, hheld,
      fun cb hcb => hheld.connectionOf hcb, fun q hq hlost => ?_⟩
    obtain ⟨d, stack, hactive, hqd, hd⟩ := h.tracks.on_of_pending hq hlost
    obtain rfl := hd.unique hon
    exact ⟨hqd, stack, hactive⟩
  starts := fun _ hnone hq => h.tracks.starts h.reachable.bounded hnone hq
  boundary := by
    intro p hp
    obtain ⟨xs, q, hboundary, hasked⟩ := h.boundary hp
    refine ⟨xs, q, hboundary, hasked, fun a x ys hex => ?_, fun m ys n hm hhead hunswitched _ => ?_⟩
    · obtain ⟨n, hn, -⟩ := h.tracks.rests
      exact hboundary.looks (hex ▸ hn)
    · obtain ⟨hon, hunder⟩ := hboundary.unswitched hm hhead hunswitched
      refine ⟨hunder, fun hex hlook => ?_⟩
      obtain ⟨c, hc, hheld⟩ := h.held hlook
      rw [hex] at hon
      obtain rfl := hc.unique hon
      exact ⟨hheld, fun cb hcb => hheld.connectionOf hcb⟩

namespace Detour

/-- While the registration runs, and when its suspension has ended, the callback shows the
connection of the inner region; the panic of the inner restorer changes nothing, and the outer
one gives the run another connection, which the callback shows from then on. -/
theorem attached_detour :
    (play 7).2.called = [.modify outer .uncancelable, .modify inner outer, .async () inner] ∧
      (play 7).1.world.connectionOf ⟨0, 1⟩ = inner ∧
      (play 16).1.world.connectionOf ⟨0, 1⟩ = inner ∧
      (play 20).2.outcomes = [.error (.panicked "astray")] ∧
      (play 20).1.world.connectionOf ⟨0, 1⟩ = .uncancelable ∧
      Attached program origin (play 20).1 (play 20).2 :=
  ⟨rfl, rfl, rfl, rfl, rfl, (follows_play 20).attached⟩

end Detour

end Trampoline
