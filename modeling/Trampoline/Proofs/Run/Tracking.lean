import Trampoline.Proofs.Machine.Completion
import Trampoline.Proofs.Run.Invariant

/-!
# A run is tracked

The invariant of a run holds when it starts and is preserved by every step of the machine.
A turn of the run does what the evaluator does, node by node and frame by frame; the end of
the code that works on a question answers it; a completion of the callback that a parked
run waits for does too; and no other step changes what the run has.

Main definitions and results:

- Theorem `Tracks.takes_turn`: a turn of the run.
- Theorem `Tracks.serves_turn`: the end of the code that works on a question.
- Theorem `Tracks.resumes`: a completion that takes the run up.
- Theorem `Tracks.next`: a step of the machine preserves the invariant.
- Theorem `Follows.tracks`: the invariant holds whenever a run is followed.
- Definition `Parked`, theorem `Tracks.parked_of_suspends`: a run that is suspended.
- Definition `Stepping`, theorem `Tracks.stepping`: what a step of the machine is for a run.
-/

namespace Trampoline

variable {S : Closures} {σ : Type}

/-! ## Turns -/

namespace State

/-- What a loop does with an exit. -/
def leave (P : Program S σ) (w : World S σ) (run : Loop S) (o : Outcome)
    (rest : List (Activation S σ)) : State S σ :=
  match run.stack.takeFor o with
  | (some frame, stack) =>
    running w (.node (.loop { run with stack := stack }) (P.resolve frame o)) rest
  | (none, stack) => finish P w { run with stack := stack } o rest

theorem value_eq_leave (P : Program S σ) (w : World S σ) (run : Loop S) (v : Value)
    (rest : List (Activation S σ)) :
    value P w (.loop run) v rest = leave P w run (.ok v) rest := by
  simp only [value, leave, CallStack.takeFor, Driver.stack]
  cases run.stack.popNext with
  | mk frame stack => cases frame <;> rfl

theorem reduce_fail_eq_leave (P : Program S σ) (w : World S σ) (run : Loop S) (e : Failure)
    (rest : List (Activation S σ)) :
    reduce P w (.loop run) (.fail e) rest = leave P w run (.error e) rest := by
  simp only [reduce, leave, CallStack.takeFor, Driver.stack]
  cases run.stack.findErrorHandler with
  | mk frame stack => cases frame <;> rfl

end State

/-- A run that has not come to its end may ask. -/
theorem Story.Live.ask {st : Story S} {q : Option (Question S)} (live : st.Live q)
    (q' : Option (Question S)) : (st.ask q').Live q' :=
  ⟨rfl, live.outcomes, live.lost, live.numbered⟩

namespace Tracks

variable {P : Program S σ} {r : Origin S} {st : Story S} {w : World S σ}
  {below : List (Activation S σ)} {run : Loop S}

/-- Code of the host that has just been started serves the question of its loop. -/
theorem asks {act : Activation S σ} {q : Question S} {next : q.Answer → Course S}
    (serves : act.Every (Activation.Serves P run q next))
    (proceeds : Proceeds r.course st.exchanges ((Course.ask q next).within run.stack.toList))
    (home : Home r st w below run) (live : st.Live none)
    (resumed : st.resumptions = st.callbacks) :
    Tracks P r (.running w act below) (st.ask (some q)) :=
  .calling (show _ = [] ++ act :: below from rfl) serves (.inl rfl) (by simp) proceeds
    (home.of_story rfl rfl) (live.ask (some q)) resumed

/-- A loop whose frame has been given an exit goes on as the evaluator does. -/
theorem resolves {code : Code S σ (Effect S)} {q : Option (Question S)} {m : Course S}
    (h : Resolves P run code q m)
    (proceeds : Proceeds r.course st.exchanges (m.within run.stack.toList))
    (home : Home r st w below run) (live : st.Live none)
    (resumed : st.resumptions = st.callbacks) :
    Tracks P r (.running w (.node (.loop run) code) below) (st.ask q) := by
  cases h with
  | done e => exact .turn (.node run e) proceeds (home.of_story rfl rfl) (live.ask none) resumed
  | asks h => exact asks h proceeds home live resumed

/-- A loop that has begun a region goes on as the evaluator does. -/
theorem chooses {source : Effect S} {restore : Option (Restorer S)} {code : Code S σ Connection}
    {q : Option (Question S)} {m : Course S} (h : Chooses P run source restore code q m)
    (proceeds : Proceeds r.course st.exchanges (m.within run.stack.toList))
    (home : Home r st w below run) (live : st.Live none)
    (resumed : st.resumptions = st.callbacks) :
    Tracks P r (.running w (.switch run source restore code) below) (st.ask q) := by
  cases h with
  | done new =>
      exact .turn (.switch run source restore new) proceeds (home.of_story rfl rfl)
        (live.ask none) resumed
  | asks h => exact asks h proceeds home live resumed

/-- A loop that comes to an end delivers the outcome of the evaluator. -/
theorem delivers (P : Program S σ) (home : Home r st w below run) (live : st.Live none)
    (resumed : st.resumptions = st.callbacks) {w' : World S σ} {run' : Loop S} {o : Outcome}
    {e : Ending S} (hw : w'.bridges = w.bridges) (hrun : run'.outlet = run.outlet)
    (ending : e.outcome? = some o) (evaluates : Evaluates r.course st.exchanges e) :
    Tracks P r (State.finish P w' run' o below) (st.deliver o) := by
  obtain ⟨w'', hfinish, still⟩ := home.finish P hw hrun o
  rw [hfinish]
  exact .delivered (by simp [Story.deliver, live.outcomes]) ending evaluates live.pending
    live.lost still live.numbered resumed

/-- An exit from the node of a loop goes where the evaluator takes it. -/
theorem leave (P : Program S σ) (home : Home r st w below run) (live : st.Live none)
    (resumed : st.resumptions = st.callbacks) {o : Outcome}
    (proceeds : Proceeds r.course st.exchanges
      ((Course.exit run.connection o).within run.stack.toList)) :
    Tracks P r (State.leave P w run o below) (st.leave run o) := by
  unfold State.leave Story.leave
  cases htake : run.stack.takeFor o with
  | mk frame stack =>
      cases frame with
      | none =>
          have hexit : Proceeds r.course st.exchanges (.exit run.connection o) := by
            simpa using proceeds.trans (.uncaught htake)
          have hends : Evaluates r.course st.exchanges (.exited run.connection o) := by
            simpa using hexit.evaluates (.exit run.connection o)
          exact delivers P home live resumed rfl rfl rfl hends
      | some frame =>
          have htakes := CallStack.takes_of_takeFor htake
          have hmove : Proceeds r.course st.exchanges
              ((frame.move run.connection o).within stack.toList) := by
            simpa using proceeds.trans (.caught htake)
          exact resolves (Frame.resolves P { run with stack := stack } htakes) hmove
            (home.withStack stack) live resumed

/-- A loop that parks waits for the answer to the question that the evaluator asks. -/
theorem parks (home : Home r st w below run) (live : st.Live none)
    (resumed : st.resumptions = st.callbacks)
    (hbounded : ∀ i, w.bridges.size ≤ i → ∀ a ∈ below, a.Idle i) {q : Question S}
    {next : q.Answer → Course S} {s : State S σ}
    (completes : ∀ o, next (q.read (.outcome o)) = .completion run.connection o)
    (proceeds : Proceeds r.course st.exchanges ((Course.ask q next).within run.stack.toList))
    (suspends : q.Suspends) (hq : Quiet (st.bridgeIn w) (w.arm run).1 below s) :
    Tracks P r s ((st.park w run).ask (some q)) := by
  obtain ⟨hcb, hholds, hidle⟩ := home.arm hbounded
  have hbridge : ((st.park w run).ask (some q)).bridge = some (st.bridgeIn w) := by
    simp [Story.park, Story.ask, hcb]
  have hparks : ((st.park w run).ask (some q)).parks =
      st.parks ++ [⟨⟨st.bridgeIn w, st.parks.length + 1⟩, run.stack, run.connection⟩] := by
    simp [Story.park, Story.ask, hcb]
  refine .suspended (hq.all_idle hidle) ?_ hbridge hparks completes proceeds
    ⟨rfl, live.outcomes, live.lost, ?_⟩ resumed suspends
  · rw [hq.bridge_eq (Array.getElem?_eq_some_iff.mp hholds).1, hholds]
  · intro k p hp
    rw [hparks] at hp
    rw [hbridge]
    rcases Nat.lt_trichotomy k st.parks.length with hk | hk | hk
    · rw [List.getElem?_append_left hk] at hp
      have hnum := live.numbered k p hp
      refine ⟨?_, hnum.2⟩
      rw [Story.bridgeIn, hnum.1]
      rfl
    · subst hk
      simp only [List.getElem?_concat_length, Option.some.injEq] at hp
      subst hp
      exact ⟨rfl, rfl⟩
    · rw [List.getElem?_eq_none (by simp; omega)] at hp
      cases hp

/-- A loop in front of a node does what the evaluator does. -/
theorem eval (P : Program S σ) (home : Home r st w below run) (live : st.Live none)
    (resumed : st.resumptions = st.callbacks)
    (hbounded : ∀ i, w.bridges.size ≤ i → ∀ a ∈ below, a.Idle i) {node : Effect S}
    (proceeds : Proceeds r.course st.exchanges
      ((Course.eval run.connection node).within run.stack.toList)) :
    Tracks P r (State.eval P w (.loop run) node below)
      (st.turn w (.eval (.loop run) node : Activation S σ)) := by
  have hlooked : ∀ b : Bool, Proceeds r.course (st.look run.connection b).exchanges
      (Course.within (if b then .abort else node.move run.connection) run.stack.toList) :=
    fun b => proceeds.trans ((Proceeds.look run.connection node b).within run.stack.toList)
  have home' : ∀ b, Home r (st.look run.connection b) w below run := fun b =>
    home.of_story rfl rfl
  have live' : ∀ b, (st.look run.connection b).Live none := fun b =>
    ⟨live.pending, live.outcomes, live.lost, live.numbered⟩
  simp only [State.eval, Story.turn]
  cases hc : w.connections.isCanceled run.connection with
  | true =>
      have hends : Evaluates r.course (st.look run.connection true).exchanges .aborted := by
        simpa using (hlooked true).evaluates (.abort_within run.stack.toList)
      exact delivers P (home' true) (live' true) resumed rfl rfl rfl hends
  | false =>
      have hmove := hlooked false
      simp only [Bool.false_eq_true, if_false] at hmove ⊢
      replace home := home' false
      replace live := live' false
      cases node with
      | pure v => exact .turn (.value run v) hmove home live resumed
      | fail e =>
          rw [State.reduce_fail_eq_leave]
          exact leave P home live resumed hmove
      | suspend k =>
          have h : Resolves P run (P.thunk k) (some (.thunk k))
              (.ask (.thunk k) (.node run.connection)) :=
            .node P run _ id (fun r => by cases r <;> rfl) fun r hr => hr
          exact resolves h hmove home live resumed
      | delay k =>
          have hserves : (Activation.outcome (.loop run) (P.delay k)).Serves P run (.delay k)
              (Course.result run.connection) := by
            refine ⟨rfl, id, (P.delay k).returns_canReturn.mono fun o ho => ⟨?_, .ok o, ho, rfl⟩,
              fun e => rfl, fun payload => ⟨.error _, ⟨payload, rfl⟩, rfl⟩⟩
            cases o <;> rfl
          exact asks hserves hmove home live resumed
      | bind source frame =>
          refine .turn (.eval { run with stack := run.stack.push frame } source) ?_
            (home.withStack _) live resumed
          rw [CallStack.toList_push]
          exact hmove
      | map source f =>
          refine .turn (.eval { run with stack := run.stack.push (.map f) } source) ?_
            (home.withStack _) live resumed
          rw [CallStack.toList_push]
          exact hmove
      | continueOn context source =>
          exact .turn (.eval run _) hmove home live resumed
      | async k =>
          simp only [State.reduce]
          exact parks home live resumed hbounded (fun o => rfl) hmove trivial
            (State.quiet_suspend_arm P (by simp))
      | parked inner stack =>
          simp only [State.reduce]
          exact parks home live resumed hbounded (fun o => rfl) hmove trivial
            (State.quiet_suspend_arm P (by simp))
      | deferred context b =>
          exact parks home live resumed hbounded (fun o => rfl) hmove trivial
            (State.quiet_suspendOn_arm P context b)
      | switchConnection source modify restore =>
          exact chooses (modify.chooses P run source restore) hmove home live resumed

/-- A loop whose connection has been chosen goes on under it. -/
theorem switched (home : Home r st w below run) (live : st.Live none)
    (resumed : st.resumptions = st.callbacks) {source : Effect S}
    {restore : Option (Restorer S)} {new : Connection}
    (proceeds : Proceeds r.course st.exchanges
      ((Course.region source restore run.connection new).within run.stack.toList)) :
    Tracks P r (State.switched w run source restore new below) st := by
  unfold State.switched
  cases restore with
  | none => exact .turn (.eval _ _) proceeds (home.followSwitch new) live resumed
  | some r' => exact .turn (.eval _ _) proceeds (home.followSwitch new) live resumed

/-- A turn of the run. -/
theorem takes_turn (P : Program S σ) {act : Activation S σ} {m : Course S}
    (stands : Stands act run m) (home : Home r st w below run) (live : st.Live none)
    (resumed : st.resumptions = st.callbacks)
    (hbounded : ∀ i, w.bridges.size ≤ i → ∀ a ∈ below, a.Idle i)
    (proceeds : Proceeds r.course st.exchanges (m.within run.stack.toList)) :
    Tracks P r (State.work P w below act) (st.turn w act) := by
  cases stands with
  | eval _ e => exact eval P home live resumed hbounded proceeds
  | value _ v =>
      simp only [State.work, Story.turn, State.value_eq_leave]
      exact leave P home live resumed proceeds
  | node _ e =>
      simp only [State.work, State.advance, Story.turn, Story.heed,
        Story.answer_of_none live.pending]
      exact .turn (.eval run e) proceeds home live resumed
  | switch _ source restore new =>
      simp only [State.work, State.advance, Story.turn, Story.heed,
        Story.answer_of_none live.pending]
      exact switched home live resumed proceeds

/-! ## Code that works on a question -/

/-- The answer to the question that a loop has asked takes the evaluator one step on. -/
theorem answered {α : Type} {h : Holder S σ α} (hloop : h.loop? = some run) (a : α)
    (home : Home r st w below run) (live : st.Live none)
    (resumed : st.resumptions = st.callbacks)
    (proceeds : Proceeds r.course st.exchanges ((h.course run a).within run.stack.toList)) :
    Tracks P r (h.finish w below a) st := by
  cases h with
  | node d =>
      cases d <;> cases hloop
      exact .turn (.eval run a) proceeds home live resumed
  | outcome d =>
      cases d <;> cases hloop
      cases a with
      | ok v => exact .turn (.value run v) proceeds home live resumed
      | error e => exact .turn (.eval run (.fail e)) proceeds home live resumed
  | switch run' source restore =>
      cases hloop
      exact switched home live resumed proceeds
  | owing cb => cases hloop
  | code => cases hloop

end Tracks

/-- What the story notes about code that works for a loop depends on the code alone. -/
theorem Story.turn_wrap (st : Story S) (w : World S σ) {α : Type} {h : Holder S σ α}
    {run : Loop S} (hloop : h.loop? = some run) (code : Code S σ α) :
    st.turn w (h.wrap code) = st.heed w code h.reply := by
  cases h with
  | node d => cases d <;> cases hloop; rfl
  | outcome d => cases d <;> cases hloop; rfl
  | switch run' source restore => rfl
  | owing cb => cases hloop
  | code => cases hloop

/-- The end of code that works for a loop leaves the loop on top, on its connection or on one that
has been chosen. -/
theorem Holder.finish_cases (w : World S σ) (rest : List (Activation S σ)) {α : Type}
    {h : Holder S σ α} {run : Loop S} (hloop : h.loop? = some run) (a : α) :
    (∃ act, act.loop? = some run ∧ h.finish w rest a = .running w act rest) ∨
      ∃ source restore new, h.finish w rest a = State.switched w run source restore new rest := by
  cases h with
  | node d =>
      cases d <;> cases hloop
      exact .inl ⟨.eval (.loop run) a, rfl, rfl⟩
  | outcome d =>
      cases d <;> cases hloop
      cases a with
      | ok v => exact .inl ⟨.value (.loop run) v, rfl, rfl⟩
      | error e => exact .inl ⟨.eval (.loop run) (.fail e), rfl, rfl⟩
  | switch run' source restore =>
      cases hloop
      exact .inr ⟨source, restore, a, rfl⟩
  | owing cb => cases hloop
  | code => cases hloop

/-- A panic of code that works for a loop is contained in the loop. -/
theorem Holder.escape_eq (P : Program S σ) (w : World S σ) (rest : List (Activation S σ))
    {α : Type} {h : Holder S σ α} {run : Loop S} (hloop : h.loop? = some run)
    (payload : Payload) :
    h.escape P w rest payload = State.panicIn P w (.loop run) payload rest := by
  cases h with
  | node d => cases d <;> cases hloop; rfl
  | outcome d => cases d <;> cases hloop; rfl
  | switch run' source restore => cases hloop; rfl
  | owing cb => cases hloop
  | code => cases hloop

namespace Tracks

variable {P : Program S σ} {r : Origin S} {st : Story S} {w : World S σ}
  {below : List (Activation S σ)} {run : Loop S} {q : Question S} {next : q.Answer → Course S}

/-- Code that keeps its place goes on working on its question. -/
theorem of_stays {s : State S σ} (home : Home r st w below run) (live : st.Live (some q))
    (resumed : st.resumptions = st.callbacks)
    (proceeds : Proceeds r.course st.exchanges ((Course.ask q next).within run.stack.toList))
    (h : Stays (Activation.Serves P run q next) (st.bridgeIn w) w below s) : Tracks P r s st := by
  obtain ⟨above, act, place, idle, serves, waits⟩ := h.place
  refine .calling place serves waits (fun i hi => ?_) proceeds (home.congr fun i hi => ?_) live
    resumed
  · simpa [Story.bridgeIn, hi] using idle
  · have hb := h.bridge
    simp only [Story.bridgeIn, hi, Option.getD_some] at hb
    exact hb (home.lt_size hi)

/-- The end of the code that works on a question answers it. -/
theorem serves_turn (P : Program S σ) {act : Activation S σ} (hs : act.Serves P run q next)
    (home : Home r st w below run) (live : st.Live (some q))
    (resumed : st.resumptions = st.callbacks)
    (proceeds : Proceeds r.course st.exchanges ((Course.ask q next).within run.stack.toList)) :
    Tracks P r (State.work P w below act) (st.turn w act) := by
  obtain ⟨α, h, code, rfl, hloop, -, hreturns, hfails, -⟩ := hs.wrap
  rw [Story.turn_wrap st w hloop]
  have hanswer : ∀ reply, st.answer reply =
      { st with exchanges := st.exchanges ++ [⟨q, q.read reply⟩], pending := none } := by
    intro reply
    unfold Story.answer
    rw [live.pending]
  have hlive : ∀ reply, (st.answer reply).Live none := by
    intro reply
    rw [hanswer]
    exact ⟨rfl, live.outcomes, live.lost, live.numbered⟩
  have hhome : ∀ reply, Home r (st.answer reply) w below run := by
    intro reply
    rw [hanswer]
    exact home.of_story rfl rfl
  have hproceeds : ∀ reply, Proceeds r.course (st.answer reply).exchanges
      ((next (q.read reply)).within run.stack.toList) := by
    intro reply
    rw [hanswer]
    exact proceeds.trans (.reply (Course.head_within_asks rfl _) _)
  have hresumed : ∀ reply, (st.answer reply).resumptions = (st.answer reply).callbacks := by
    intro reply
    rw [hanswer]
    exact resumed
  by_cases hdone : ∃ a, code = .done a
  · obtain ⟨a, rfl⟩ := hdone
    have hcourse : next (q.read (h.reply (.ok a))) = h.course run a := hreturns.1
    rw [State.work_wrap]
    refine answered hloop a (hhome _) (hlive _) (hresumed _) ?_
    rw [← hcourse]
    exact hproceeds _
  · by_cases hpanic : ∃ payload, code = .panic payload
    · obtain ⟨payload, rfl⟩ := hpanic
      rw [State.work_wrap]
      simp only [State.advance, Story.heed, h.escape_eq P w below hloop, State.panicIn,
        State.contain]
      cases hc : w.classifier payload with
      | true =>
          have hfailed := hproceeds (h.reply (.error (.panicked payload.describe)))
          rw [hfails] at hfailed
          simp only [if_true]
          exact .turn (.eval run _) hfailed ((hhome _).congr fun _ _ => rfl) (hlive _) (hresumed _)
      | false =>
          simp only [Bool.false_eq_true, if_false]
          refine .lost live.outcomes rfl live.pending ?_ (fun i hi => ?_) live.numbered resumed
          · simpa using proceeds.evaluates (.ask_within q next run.stack.toList)
          · cases home with
            | direct bridge parks outlet depth => simp [bridge] at hi
            | bridged j bridge outlet holds idle =>
                have hij : j = i := by
                  simpa [bridge] using hi
                subst hij
                exact .of_quiet (.unwinds rfl) holds idle
    · have hdone' : ∀ a, code ≠ .done a := fun a ha => hdone ⟨a, ha⟩
      have hpanic' : ∀ payload, code ≠ .panic payload := fun payload hp => hpanic ⟨payload, hp⟩
      rw [st.heed_of_goes_on w hdone' hpanic']
      exact of_stays home live resumed proceeds (State.stays_work_wrap P
        (Activation.stable_serves P run q next) h hs.every hdone' hpanic'
        fun cb _ _ => home.not_wins cb)

/-- A completion of the callback that a parked run waits for answers its question. -/
theorem resumes {s : State S σ} {i : Nat} {stack : CallStack (Frame S)} {c : Connection}
    {earlier : List (Park S)} {o : Outcome} {rest : List (Activation S σ)}
    (h : Resumes i ⟨c, some r.terminal, stack, some (earlier.length + 1), earlier.length + 1⟩ o w
      rest s) (hidle : ∀ a ∈ rest, a.Idle i) (bridge : st.bridge = some i)
    (parks : st.parks = earlier ++ [⟨⟨i, earlier.length + 1⟩, stack, c⟩])
    (completes : next (q.read (.outcome o)) = .completion c o)
    (proceeds : Proceeds r.course st.exchanges ((Course.ask q next).within stack.toList))
    (live : st.Live (some q)) (resumed : st.resumptions = earlier.map Park.callback) :
    Tracks P r s (st.resume ⟨i, earlier.length + 1⟩ o) := by
  have hresume : st.resume ⟨i, earlier.length + 1⟩ o =
      { st with
        resumptions := st.resumptions ++ [⟨i, earlier.length + 1⟩]
        exchanges := st.exchanges ++ [⟨q, q.read (.outcome o)⟩]
        pending := none } := by
    simp [Story.resume, Story.answer, live.pending]
  rw [hresume]
  cases h with
  | mk w' new size hb idle =>
      refine .turn (.eval ⟨c, stack, .bridge i⟩ (.ofOutcome o)) ?_ (.bridged i bridge rfl ?_ ?_)
        ⟨rfl, live.outcomes, live.lost, live.numbered⟩ ?_
      · have hreply := proceeds.trans
          (.reply (Course.head_within_asks rfl stack.toList) (q.read (.outcome o)))
        rw [completes] at hreply
        exact hreply
      · simpa [parks] using hb
      · intro a ha
        rw [List.mem_append] at ha
        exact ha.elim (idle a) (hidle a)
      · simp [Story.callbacks, parks, resumed]

/-! ## Every step, every run -/

/-- While code of the host works on a question of the run, either that code takes the next step,
or it stays in its place, and the step is none of the run's business. -/
theorem step_calling (P : Program S σ) {w : World S σ} {top act : Activation S σ}
    {rest above below : List (Activation S σ)} (hbounded : (State.running w top rest).Bounded)
    (place : top :: rest = above ++ act :: below)
    (serves : act.Every (Activation.Serves P run q next)) (waits : above = [] ∨ act.Waits)
    (idle : ∀ i, st.bridge = some i → ∀ a ∈ above, a.Idle i) (home : Home r st w below run) :
    (above = [] ∧ top.Serves P run q next) ∨
      st.next r.depth (.running w top rest) = st ∧
        Stays (Activation.Serves P run q next) (st.bridgeIn w) w below
          (State.work P w rest top) := by
  cases above with
  | nil =>
      rw [List.nil_append, List.cons.injEq] at place
      obtain ⟨rfl, rfl⟩ := place
      rcases serves.cases with hs | ⟨resume, hresume⟩
      · exact .inl ⟨rfl, hs⟩
      · have hturn : st.takesTurn r.depth top rest = false := by
          simp [Story.takesTurn, Activation.loop?_of_behind? hresume]
        exact .inr ⟨Story.next_eq_self hturn fun cb _ _ => home.not_wins cb,
          State.stays_work_partially P (Activation.stable_serves P run q next) hresume serves
            fun cb _ _ => home.not_wins cb⟩
  | cons a above =>
      rw [List.cons_append, List.cons.injEq] at place
      obtain ⟨rfl, rfl⟩ := place
      have hwaits : act.Waits := by simpa using waits
      have hidle : ∀ x ∈ top :: above, x.Idle (st.bridgeIn w) := by
        intro x hx
        cases hb : st.bridge with
        | some i => simpa [Story.bridgeIn, hb] using idle i hb x hx
        | none =>
            have hmem : x ∈ top :: (above ++ act :: below) := by
              rcases List.mem_cons.mp hx with rfl | hx <;> simp_all
            simpa [Story.bridgeIn, hb] using hbounded w.bridges.size (Nat.le_refl _) x hmem
      have hturn : st.takesTurn r.depth top (above ++ act :: below) = false :=
        home.takesTurn_above fun i hi => idle i hi top (by simp)
      have hq : Quiet (st.bridgeIn w) w (above ++ act :: below)
          (State.work P w (above ++ act :: below) top) :=
        State.quiet_work P (hidle top (by simp)) fun cb _ _ => home.not_wins cb
      exact .inr ⟨Story.next_eq_self hturn fun cb _ _ => home.not_wins cb,
        hq.stays (Activation.stable_serves P run q next) (fun x hx => hidle x (by simp [hx]))
          serves hwaits⟩

/-- A step while code of the host works on a question of the run. -/
theorem next_calling (P : Program S σ) {w : World S σ} {top act : Activation S σ}
    {rest above below : List (Activation S σ)} (hbounded : (State.running w top rest).Bounded)
    (place : top :: rest = above ++ act :: below)
    (serves : act.Every (Activation.Serves P run q next)) (waits : above = [] ∨ act.Waits)
    (idle : ∀ i, st.bridge = some i → ∀ a ∈ above, a.Idle i)
    (proceeds : Proceeds r.course st.exchanges ((Course.ask q next).within run.stack.toList))
    (home : Home r st w below run) (live : st.Live (some q))
    (resumed : st.resumptions = st.callbacks) :
    Tracks P r (State.work P w rest top) (st.next r.depth (.running w top rest)) := by
  rcases step_calling P hbounded place serves waits idle home with ⟨rfl, hs⟩ | ⟨hsame, hstays⟩
  · rw [List.nil_append, List.cons.injEq] at place
    obtain ⟨rfl, rfl⟩ := place
    have hturn := home.takesTurn live.outcomes live.lost hs.loop?_eq
    simp only [Story.next, hturn, if_true]
    exact serves_turn P hs home live resumed proceeds
  · rw [hsame]
    exact of_stays home live resumed proceeds hstays

/-- A step while the run is parked completes the callback that it waits for, or is none of
its business. -/
theorem step_suspended (P : Program S σ) (depth : Nat) {top : Activation S σ}
    {rest : List (Activation S σ)} {i : Nat} {b : Bridge S} {epoch : Nat}
    (idle : ∀ a ∈ top :: rest, a.Idle i) (holds : w.bridges[i]? = some b)
    (armed : b.armed = some epoch) (bridge : st.bridge = some i) :
    st.next depth (.running w top rest) = st ∧ Quiet i w rest (State.work P w rest top) ∨
      w.isArmed ⟨i, epoch⟩ = true ∧ ∃ o,
        st.next depth (.running w top rest) = st.resume ⟨i, epoch⟩ o ∧
        Resumes i b o w rest (State.work P w rest top) := by
  have htop : top.Idle i := idle top (by simp)
  have hturn : st.takesTurn depth top rest = false := Story.takesTurn_of_bridge bridge htop
  by_cases hwins : ∃ cb o, top.completion? w = some (cb, o) ∧ w.Wins i cb
  · obtain ⟨⟨j, epoch'⟩, o, hc, hcb, harmed⟩ := hwins
    have hj : j = i := hcb
    subst hj
    obtain ⟨b', hb, ha⟩ := World.isArmed_eq_true_iff.mp harmed
    rw [holds, Option.some.injEq] at hb
    subst hb
    rw [armed, Option.some.injEq] at ha
    simp only at ha
    subst ha
    refine .inr ⟨harmed, o, ?_, State.resumes_work P htop hc rfl holds armed⟩
    simp [Story.next, hturn, hc, harmed, bridge]
  · have hquiet : ∀ cb o, top.completion? w = some (cb, o) → ¬w.Wins i cb :=
      fun cb o hc hw => hwins ⟨cb, o, hc, hw⟩
    refine .inl ⟨Story.next_eq_self hturn ?_, State.quiet_work P htop hquiet⟩
    simpa [Story.bridgeIn, bridge] using hquiet

/-- A step while the run is parked. -/
theorem next_suspended (P : Program S σ) {w : World S σ} {top : Activation S σ}
    {rest : List (Activation S σ)} {i : Nat} {stack : CallStack (Frame S)} {c : Connection}
    {earlier : List (Park S)} (idle : ∀ a ∈ top :: rest, a.Idle i)
    (holds : w.bridges[i]? = some
      ⟨c, some r.terminal, stack, some (earlier.length + 1), earlier.length + 1⟩)
    (bridge : st.bridge = some i)
    (parks : st.parks = earlier ++ [⟨⟨i, earlier.length + 1⟩, stack, c⟩])
    (completes : ∀ o, next (q.read (.outcome o)) = .completion c o)
    (proceeds : Proceeds r.course st.exchanges ((Course.ask q next).within stack.toList))
    (live : st.Live (some q)) (resumed : st.resumptions = earlier.map Park.callback)
    (suspends : q.Suspends) :
    Tracks P r (State.work P w rest top) (st.next r.depth (.running w top rest)) := by
  have hrest : ∀ a ∈ rest, a.Idle i := fun a ha => idle a (by simp [ha])
  rcases step_suspended P r.depth idle holds rfl bridge with
    ⟨hsame, hq⟩ | ⟨_, o, hresume, hresumes⟩
  · rw [hsame]
    refine .suspended (hq.all_idle hrest) ?_ bridge parks completes proceeds live resumed suspends
    exact (hq.bridge_eq (Array.getElem?_eq_some_iff.mp holds).1).trans holds
  · rw [hresume]
    exact resumes hresumes hrest bridge parks (completes o) proceeds live resumed

end Tracks

/-- A step of the machine preserves the invariant. -/
theorem Tracks.next {P : Program S σ} {r : Origin S} {s : State S σ} {st : Story S}
    (h : Tracks P r s st) (hbounded : s.Bounded) : Tracks P r (s.next P) (st.next r.depth s) := by
  cases h with
  | turn stands proceeds home live resumed =>
      have hturn := home.takesTurn live.outcomes live.lost stands.loop?_eq
      simp only [State.next, Story.next, hturn, if_true]
      exact takes_turn P stands home live resumed
        (fun i hi a ha => hbounded i hi a (by simp [ha])) proceeds
  | calling place serves waits idle proceeds home live resumed =>
      cases s with
      | returned w => simp [State.activations] at place
      | unwound w payload => simp [State.activations] at place
      | running w top rest =>
          exact next_calling P hbounded place serves waits idle proceeds home live resumed
  | suspended idle holds bridge parks completes proceeds live resumed suspends =>
      cases s with
      | returned w =>
          exact .suspended idle holds bridge parks completes proceeds live resumed suspends
      | unwound w payload =>
          exact .suspended idle holds bridge parks completes proceeds live resumed suspends
      | running w top rest =>
          exact next_suspended P idle holds bridge parks completes proceeds live resumed suspends
  | delivered outcomes ending evaluates pending lost still numbered resumed =>
      rw [Still.story_next still (.inl (by simp [outcomes]))]
      exact .delivered outcomes ending evaluates pending lost (fun i hi => (still i hi).next P)
        numbered resumed
  | lost outcomes lost pending evaluates still numbered resumed =>
      rw [Still.story_next still (.inr lost)]
      exact .lost outcomes lost pending evaluates (fun i hi => (still i hi).next P) numbered resumed

/-- The invariant holds when a run starts. -/
theorem Tracks.start {P : Program S σ} {r : Origin S} {w : World S σ} {rest : List (Activation S σ)}
    (depth : rest.length = r.depth) :
    Tracks P r (.running w r.activation rest) (.beginning : Story S) :=
  .turn (.eval ⟨r.connection, r.stack, .terminal r.terminal⟩ r.effect) (.refl _)
    (.direct rfl rfl rfl depth) ⟨rfl, rfl, rfl, fun k p hp => by simp [Story.beginning] at hp⟩ rfl

/-- More code of the host preserves the invariant. -/
theorem Tracks.again {P : Program S σ} {r : Origin S} {s : State S σ} {st : Story S}
    (h : Tracks P r s st) (hs : s.activations = []) (code : Code S σ Unit) :
    Tracks P r (.start s.world code) st := by
  cases h with
  | turn stands proceeds home live resumed => cases hs
  | calling place serves waits idle proceeds home live resumed => simp [hs] at place
  | suspended idle holds bridge parks completes proceeds live resumed suspends =>
      refine .suspended (fun a ha => ?_) holds bridge parks completes proceeds live resumed suspends
      rw [List.mem_singleton.mp ha]
      exact Activation.idle_code _ code
  | delivered outcomes ending evaluates pending lost still numbered resumed =>
      exact .delivered outcomes ending evaluates pending lost
        (fun i hi => (still i hi).again code) numbered resumed
  | lost outcomes lost pending evaluates still numbered resumed =>
      exact .lost outcomes lost pending evaluates (fun i hi => (still i hi).again code) numbered
        resumed

/-- The invariant holds whenever a run is followed. -/
theorem Follows.tracks {P : Program S σ} {r : Origin S} {s : State S σ} {st : Story S}
    (h : Follows P r s st) : Tracks P r s st := by
  induction h with
  | start h depth => exact .start depth
  | next h ih => exact ih.next h.reachable.bounded
  | again h hs code ih => exact ih.again hs code

/-! ## What a step is for a run -/

/-- A run that waits for the answer to `q` is parked in bridge `i`: the bridge has its frames, its
connection and its terminal, and waits for the callback of the suspension that came last. -/
structure Parked (r : Origin S) (s : State S σ) (st : Story S) (i : Nat)
    (stack : CallStack (Frame S)) (c : Connection) (earlier : List (Park S)) (q : Question S)
    (next : q.Answer → Course S) : Prop where
  idle : ∀ a ∈ s.activations, a.Idle i
  holds : s.world.bridges[i]? = some
    ⟨c, some r.terminal, stack, some (earlier.length + 1), earlier.length + 1⟩
  bridge : st.bridge = some i
  parks : st.parks = earlier ++ [⟨⟨i, earlier.length + 1⟩, stack, c⟩]
  completes : ∀ o, next (q.read (.outcome o)) = .completion c o
  proceeds : Proceeds r.course st.exchanges ((Course.ask q next).within stack.toList)
  live : st.Live (some q)
  resumed : st.resumptions = earlier.map Park.callback

namespace Parked

variable {r : Origin S} {s : State S σ} {st : Story S} {i : Nat} {stack : CallStack (Frame S)}
  {c : Connection} {earlier : List (Park S)} {q : Question S} {next : q.Answer → Course S}

/-- The run waits for the last of the callbacks that were handed out for it. -/
theorem callbacks (h : Parked r s st i stack c earlier q next) :
    st.callbacks = st.resumptions ++ [⟨i, earlier.length + 1⟩] := by
  simp [Story.callbacks, h.parks, h.resumed]

/-- The bridge of a parked run is armed for that callback. -/
theorem armed (h : Parked r s st i stack c earlier q next) :
    s.world.isArmed ⟨i, earlier.length + 1⟩ = true :=
  World.isArmed_eq_true_iff.mpr ⟨_, h.holds, rfl⟩

/-- The completion of that callback is the answer, with which the run goes on. -/
theorem resume_eq (h : Parked r s st i stack c earlier q next) (cb : Callback) (o : Outcome) :
    (st.resume cb o).exchanges = st.exchanges ++ [⟨q, q.read (.outcome o)⟩] ∧
      (st.resume cb o).pending = none ∧ (st.resume cb o).resumptions = st.resumptions ++ [cb] := by
  simp [Story.resume, Story.answer, h.live.pending]

/-- A step leaves a parked run alone, or it completes that callback. -/
theorem step (P : Program S σ) {w : World S σ} {top : Activation S σ}
    {rest : List (Activation S σ)}
    (h : Parked r (.running w top rest) st i stack c earlier q next) :
    st.next r.depth (.running w top rest) = st ∧ Quiet i w rest (State.work P w rest top) ∨
      ∃ o, st.next r.depth (.running w top rest) = st.resume ⟨i, earlier.length + 1⟩ o ∧
        Resumes i ⟨c, some r.terminal, stack, some (earlier.length + 1), earlier.length + 1⟩ o w
          rest (State.work P w rest top) :=
  (Tracks.step_suspended P r.depth h.idle h.holds rfl h.bridge).imp_right And.right

end Parked

/-- A run that waits for the answer to a question for which it suspends is parked. -/
theorem Tracks.parked_of_suspends {P : Program S σ} {r : Origin S} {s : State S σ} {st : Story S}
    (h : Tracks P r s st) {q : Question S} (hq : st.pending = some q) (hsuspends : q.Suspends)
    (hlost : st.lost = false) : ∃ i stack c earlier next,
      Parked r s st i stack c earlier q next := by
  cases h with
  | turn stands proceeds home live resumed => cases hq.symm.trans live.pending
  | calling place serves waits idle proceeds home live resumed =>
      obtain ⟨a, ha, -⟩ := Activation.Every.both _ serves serves
      obtain ⟨_, _, _, -, hserves⟩ := ha.wrap
      cases hq.symm.trans live.pending
      exact (hserves.calls hsuspends).elim
  | suspended idle holds bridge parks completes proceeds live resumed suspends =>
      cases hq.symm.trans live.pending
      exact ⟨_, _, _, _, _, idle, holds, bridge, parks, completes, proceeds, live, resumed⟩
  | delivered outcomes ending evaluates pending lost still numbered resumed =>
      cases hq.symm.trans pending
  | lost outcomes lost pending evaluates still numbered resumed => simp [hlost] at lost

/-- What the next step of the machine is for a run. -/
inductive Stepping (P : Program S σ) (r : Origin S) : State S σ → Story S → Prop
  /-- The step is none of the run's business: the run waits, or it has come to its end. -/
  | other {s : State S σ} {st : Story S} (same : st.next r.depth s = st)
      (passes : ∀ w top rest, s = .running w top rest → st.takesTurn r.depth top rest = false)
      (waits : (∃ q, st.pending = some q) ∨ st.outcomes ≠ [] ∨ st.lost = true) : Stepping P r s st
  /-- A loop of the run takes its turn. -/
  | turn {w : World S σ} {top : Activation S σ} {rest : List (Activation S σ)} {st : Story S}
      {run : Loop S} {m : Course S} (step : st.next r.depth (.running w top rest) = st.turn w top)
      (stands : Stands top run m) (home : Home r st w rest run) (live : st.Live none)
      (proceeds : Proceeds r.course st.exchanges (m.within run.stack.toList)) :
      Stepping P r (.running w top rest) st
  /-- Code of the host that works on the question of the run goes on. -/
  | serves {w : World S σ} {top : Activation S σ} {rest : List (Activation S σ)} {st : Story S}
      {run : Loop S} {q : Question S} {next : q.Answer → Course S}
      (step : st.next r.depth (.running w top rest) = st.turn w top)
      (serves : top.Serves P run q next) (home : Home r st w rest run) (live : st.Live (some q))
      (proceeds : Proceeds r.course st.exchanges ((Course.ask q next).within run.stack.toList)) :
      Stepping P r (.running w top rest) st
  /-- The callback for which the run waits is completed. -/
  | resumes {w : World S σ} {top : Activation S σ} {rest : List (Activation S σ)} {st : Story S}
      {i : Nat} {stack : CallStack (Frame S)} {c : Connection} {earlier : List (Park S)}
      {q : Question S} {next : q.Answer → Course S} {o : Outcome}
      (step : st.next r.depth (.running w top rest) = st.resume ⟨i, earlier.length + 1⟩ o)
      (parked : Parked r (.running w top rest) st i stack c earlier q next)
      (suspends : q.Suspends)
      (resumes : Resumes i
        ⟨c, some r.terminal, stack, some (earlier.length + 1), earlier.length + 1⟩ o w rest
        (State.work P w rest top)) : Stepping P r (.running w top rest) st

/-- Every step is one of these for a run. -/
theorem Tracks.stepping {P : Program S σ} {r : Origin S} {s : State S σ} {st : Story S}
    (h : Tracks P r s st) : Stepping P r s st := by
  cases h with
  | turn stands proceeds home live resumed =>
      have hturn := home.takesTurn live.outcomes live.lost stands.loop?_eq
      exact .turn (by simp only [Story.next, hturn, if_true]) stands home live proceeds
  | @calling _ above below act _ run q next place serves waits idle proceeds home live resumed =>
      cases s with
      | returned w => simp [State.activations] at place
      | unwound w payload => simp [State.activations] at place
      | running w top rest =>
          rw [State.world_running] at home
          have hother : st.takesTurn r.depth top rest = false →
              Stepping P r (.running w top rest) st := by
            intro hturn
            refine .other (Story.next_eq_self hturn fun cb _ _ => home.not_wins cb) ?_
              (.inl ⟨q, live.pending⟩)
            rintro _ _ _ ⟨⟩
            exact hturn
          cases above with
          | nil =>
              rw [State.activations_running, List.nil_append, List.cons.injEq] at place
              obtain ⟨rfl, rfl⟩ := place
              rcases serves.cases with hs | ⟨resume, hresume⟩
              · have hturn := home.takesTurn live.outcomes live.lost hs.loop?_eq
                exact .serves (by simp only [Story.next, hturn, if_true]) hs home live proceeds
              · exact hother (by simp [Story.takesTurn, Activation.loop?_of_behind? hresume])
          | cons a above =>
              rw [State.activations_running, List.cons_append, List.cons.injEq] at place
              obtain ⟨rfl, rfl⟩ := place
              exact hother (home.takesTurn_above fun i hi => idle i hi top (by simp))
  | @suspended _ _ i stack c earlier q next idle holds bridge parks completes proceeds live resumed
      suspends =>
      cases s with
      | returned w => exact .other rfl (by rintro _ _ _ ⟨⟩) (.inl ⟨q, live.pending⟩)
      | unwound w payload => exact .other rfl (by rintro _ _ _ ⟨⟩) (.inl ⟨q, live.pending⟩)
      | running w top rest =>
          have parked : Parked r (.running w top rest) st i stack c earlier q next :=
            ⟨idle, holds, bridge, parks, completes, proceeds, live, resumed⟩
          rcases parked.step P with ⟨hsame, -⟩ | ⟨o, hresume, hresumes⟩
          · refine .other hsame ?_ (.inl ⟨q, live.pending⟩)
            rintro _ _ _ ⟨⟩
            exact Story.takesTurn_of_bridge bridge (idle top (by simp))
          · exact .resumes hresume parked suspends hresumes
  | delivered outcomes ending evaluates pending lost still numbered resumed =>
      have hover : st.outcomes ≠ [] := by simp [outcomes]
      refine .other (Still.story_next still (.inl hover)) ?_ (.inr (.inl hover))
      rintro w top rest rfl
      exact Still.takesTurn still (.inl hover)
  | lost outcomes lost pending evaluates still numbered resumed =>
      refine .other (Still.story_next still (.inr lost)) ?_ (.inr (.inr lost))
      rintro w top rest rfl
      exact Still.takesTurn still (.inr lost)

/-- The run takes a turn only where a loop of it is on top with all that it needs: in its
turn, or with code that works on its question. -/
theorem Tracks.turn_cases {P : Program S σ} {r : Origin S} {w : World S σ} {top : Activation S σ}
    {rest : List (Activation S σ)} {st : Story S} (h : Tracks P r (.running w top rest) st) :
    st.takesTurn r.depth top rest = false ∨ ∃ run, top.loop? = some run ∧
      Home r st w rest run ∧ ((∃ m, Stands top run m ∧ st.Live none ∧
        Proceeds r.course st.exchanges (m.within run.stack.toList)) ∨
        ∃ (q : Question S) (next : q.Answer → Course S), top.Serves P run q next ∧
          st.Live (some q)) := by
  cases h.stepping with
  | other same passes => exact .inl (passes _ _ _ rfl)
  | turn step stands home live proceeds =>
      exact .inr ⟨_, stands.loop?_eq, home, .inl ⟨_, stands, live, proceeds⟩⟩
  | serves step serves home live =>
      exact .inr ⟨_, serves.loop?_eq, home, .inr ⟨_, _, serves, live⟩⟩
  | resumes step parked =>
      exact .inl (Story.takesTurn_of_bridge parked.bridge (parked.idle top (by simp)))

end Trampoline
