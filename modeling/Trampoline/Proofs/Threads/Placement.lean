import Trampoline.Proofs.Threads.Shifts

/-!
# Where the code of a run is placed

Wherever a run stands, its code is on the thread on which the run has been entered last.  Links to
other contexts are the way to have it entered somewhere else: a context runs the task of a link on a
thread of its choice, the task completes the suspension there, and what follows the link goes on
there.

Main definitions and results:

- Definition `Context.runsOn?`, theorem `State.submit_body`: contexts that run a task at once.
- Theorem `Tracks.submits`: the deferred computation of a run is submitted once, in one step.
- Theorem `Tracks.lands`: the task of a shifted value enters the run with that value.
- Definition `Placed`, theorem `FollowsOnThreads.placed`: all that is known of the places of a run.
-/

namespace Trampoline

variable {S : Closures} {σ : Type}

/-! ## Turns and threads -/

namespace State

/-- A loop that exits stays on its thread. -/
theorem thread_leave (P : Program S σ) (w : World S σ) (run : Loop S) (o : Outcome)
    (rest : List (Activation S σ)) : (leave P w run o rest).world.thread = w.thread := by
  unfold leave
  split
  · rfl
  · exact thread_finish P w _ o rest

/-- A loop stays on its thread, unless it meets a deferred computation. -/
theorem thread_eval (P : Program S σ) (w : World S σ) (run : Loop S) {node : Effect S}
    (hnode : ∀ context b, node ≠ .deferred context b) (rest : List (Activation S σ)) :
    (eval P w (.loop run) node rest).world.thread = w.thread := by
  simp only [eval]
  split
  · exact thread_finish P _ run _ rest
  · cases node with
    | fail e =>
        rw [reduce_fail_eq_leave]
        exact thread_leave P w run _ rest
    | async k =>
        simp only [reduce, suspend, world_resume]
        exact thread_arm w run
    | parked inner stack =>
        simp only [reduce, suspend, world_resume]
        exact thread_arm w run
    | deferred context b => exact absurd rfl (hnode context b)
    | _ => rfl

end State

namespace Tracks

variable {P : Program S σ} {r : Origin S} {st : Story S}

/-- A run that asks takes a turn. -/
theorem turn_of_asks {s : State S σ} {q : Question S} (hnone : st.pending = none)
    (hq : (st.next r.depth s).pending = some q) :
    ∃ w top rest, s = .running w top rest ∧ st.takesTurn r.depth top rest = true := by
  cases s with
  | returned w => simp [Story.next, hnone] at hq
  | unwound w payload => simp [Story.next, hnone] at hq
  | running w top rest =>
      cases hturn : st.takesTurn r.depth top rest with
      | true => exact ⟨w, top, rest, rfl, hturn⟩
      | false =>
          rw [Story.next_pending hturn hnone] at hq
          cases hq

/-- A run asks for a deferred computation in one way: it meets it on a connection that has not been
canceled, and submits the body to the context, in one step. -/
theorem submits {s : State S σ} (h : Tracks P r s st) {context : Context S.Executor} {b : Body S}
    {d : Connection} (hnone : st.pending = none)
    (hq : (st.next r.depth s).pending = some (.deferred context b d)) :
    ∃ w run rest, s = .running w (.eval (.loop run) (.deferred context b)) rest ∧
      run.connection = d ∧ w.connections.isCanceled d = false ∧
      (st.next r.depth s).callbacks.getLast? = some (w.arm run).2 ∧
      (st.next r.depth s).lost = false ∧
      s.next P = .submit P ((w.arm run).1.report P (.suspendedDeferred context.name
        (w.arm run).2.epoch run.stack.length)) context (.body (w.arm run).2 b) rest := by
  obtain ⟨w, top, rest, rfl, hturn⟩ := turn_of_asks hnone hq
  obtain ⟨run, m, stands, -, live, -⟩ := h.stands_of_turn hturn hnone
  simp only [Story.next, hturn, if_true] at hq
  have hleave : ∀ (st : Story S) (o : Outcome), st.pending = none →
      (st.leave run o).pending ≠ some (.deferred context b d) := by
    intro st o hnone
    unfold Story.leave
    split
    · exact fun hq => Frame.direct hq
    · simp [Story.deliver, hnone]
  have hsame := Story.answer_of_none hnone
  cases stands with
  | value _ v => exact absurd hq (hleave st _ hnone)
  | node _ e => simp [Story.turn, Story.heed, hsame, hnone] at hq
  | switch _ source restore new => simp [Story.turn, Story.heed, hsame, hnone] at hq
  | eval _ node =>
      simp only [Story.turn] at hq
      cases hc : w.connections.isCanceled run.connection with
      | true => simp [hc, Story.look, Story.deliver, hnone] at hq
      | false =>
          simp only [hc, Bool.false_eq_true, if_false] at hq
          cases node with
          | fail e => exact absurd hq (hleave _ _ hnone)
          | deferred context' b' =>
              cases hq
              have hstory : st.next r.depth
                  (.running w (.eval (.loop run) (.deferred context b)) rest) =
                    (st.look run.connection false).meet w run (.deferred context b) := by
                simp only [Story.next, hturn, if_true, Story.turn, hc, Bool.false_eq_true, if_false]
              rw [hstory]
              refine ⟨w, run, rest, rfl, rfl, hc, ?_, live.lost, ?_⟩
              · simp [Story.meet, Story.ask, Story.park, Story.callbacks]
              simp only [State.next, State.work, State.eval, hc, Bool.false_eq_true, if_false]
              rfl
          | switchConnection source modify restore =>
              simp only [Story.meet, Story.ask] at hq
              cases modify with
              | user k => simp [Modifier.question?] at hq
              | uncancelable => simp [Modifier.question?] at hq
              | restoring exit old r' => cases r' <;> simp [Modifier.question?] at hq
          | _ => simp [Story.meet, Story.look, Story.ask, Story.park, hnone] at hq

/-- Code that is called without a submission is called on the thread of the run. -/
theorem thread_of_asks {s : State S σ} (h : Tracks P r s st) {q : Question S}
    (hnone : st.pending = none) (hq : (st.next r.depth s).pending = some q)
    (hdeferred : ∀ context b d, q ≠ .deferred context b d) :
    (s.next P).world.thread = s.world.thread := by
  obtain ⟨w, top, rest, rfl, hturn⟩ := turn_of_asks hnone hq
  obtain ⟨run, m, stands, -, -, -⟩ := h.stands_of_turn hturn hnone
  cases stands with
  | value _ v =>
      rw [State.next, State.work, State.value_eq_leave]
      exact State.thread_leave P w run _ rest
  | node _ e => rfl
  | switch _ source restore new =>
      cases restore <;> exact State.thread_followSwitch w run new
  | eval _ node =>
      by_cases hnode : ∃ context b, node = .deferred context b
      · obtain ⟨context, b, rfl⟩ := hnode
        simp only [Story.next, hturn, if_true, Story.turn] at hq
        cases hc : w.connections.isCanceled run.connection with
        | true => simp [hc, Story.look, Story.deliver, hnone] at hq
        | false =>
            simp only [hc, Bool.false_eq_true, if_false, Story.meet, Story.ask,
              Option.some.injEq] at hq
            exact absurd hq.symm (hdeferred _ _ _)
      · exact State.thread_eval P w run (fun context b hn => hnode ⟨context, b, hn⟩) rest

/-- A run delivers on its thread. -/
theorem thread_of_delivers {s : State S σ} (h : Tracks P r s st)
    (hout : (st.next r.depth s).outcomes ≠ st.outcomes) :
    ∃ w top rest, s = .running w top rest ∧ st.takesTurn r.depth top rest = true ∧
      (s.next P).world.thread = w.thread := by
  cases s with
  | returned w => exact absurd rfl hout
  | unwound w payload => exact absurd rfl hout
  | running w top rest =>
      cases hturn : st.takesTurn r.depth top rest with
      | false => exact absurd (Story.next_outcomes hturn) hout
      | true =>
          refine ⟨w, top, rest, rfl, hturn, ?_⟩
          rcases h.turn_cases with hno | ⟨run, hrun, -⟩
          · simp [hturn] at hno
          · simp only [Story.next, hturn, if_true, st.turn_outcomes w top] at hout
            cases ho : top.exit? w with
            | none => simp [ho] at hout
            | some o =>
                obtain ⟨w', run', hwork, -, -, hthread⟩ := State.work_exit P rest hrun ho
                rw [State.next, hwork, State.thread_finish, hthread]

end Tracks

/-! ## Tasks -/

/-- The thread on which a context runs a task at once, if it does, where the task is submitted on
this thread. -/
def Context.runsOn? {χ : Type} (thread : String) : Context χ → Option String
  | immediate => some thread
  | newThread name spawns =>
    if (threadNameFault? name).isSome then none else some (if spawns then name else thread)
  | pool _ worker => some worker
  | hosted _ _ => none

/-- A context that runs a body at once has its code on top of the control stack, on that thread,
when the body has been submitted. -/
theorem State.submit_body (P : Program S σ) {w : World S σ} {context : Context S.Executor}
    {thread : String} (h : context.runsOn? w.thread = some thread) (cb : Callback) (b : Body S)
    (rest : List (Activation S σ)) :
    ∃ w' rest', submit P w context (.body cb b) rest =
      .running w' (.owing cb (P.bodyWith b cb)) rest' ∧ w'.thread = thread := by
  cases context with
  | immediate =>
      cases h
      exact ⟨w, rest, rfl, rfl⟩
  | newThread name spawns =>
      simp only [Context.runsOn?] at h
      cases hfault : Context.threadNameFault? name with
      | some message => simp [hfault] at h
      | none =>
          simp only [hfault, Option.isSome_none, Bool.false_eq_true, if_false] at h
          simp only [submit, hfault]
          cases spawns with
          | true =>
              cases h
              exact ⟨_, _, rfl, rfl⟩
          | false =>
              cases h
              exact ⟨_, _, rfl, rfl⟩
  | pool name worker =>
      cases h
      exact ⟨_, _, rfl, rfl⟩
  | hosted name executor => cases h

/-- The task of a shifted value, wherever it is run while the run waits for it, enters the run with
that value. -/
theorem Tracks.lands {P : Program S σ} {r : Origin S} {w : World S σ} {cb : Callback} {v : Value}
    {rest : List (Activation S σ)} {st : Story S}
    (h : Tracks P r (.running w (.owing cb (P.bodyWith (.succeed v) cb)) rest) st)
    {context : Context S.Executor} {d : Connection}
    (hq : st.pending = some (.deferred context (.succeed v) d)) (hlost : st.lost = false)
    (hcb : st.callbacks.getLast? = some cb) :
    ∃ st' w' run, st' = st.next r.depth
        (.running w (.owing cb (P.bodyWith (.succeed v) cb)) rest) ∧
      st'.exchanges = st.exchanges ++ [⟨.deferred context (.succeed v) d, .ok v⟩] ∧
      st'.resumptions = st.resumptions ++ [cb] ∧
      (State.running w (.owing cb (P.bodyWith (.succeed v) cb)) rest).next P =
        .running w' (.eval (.loop run) (.pure v)) (.owing cb (.done ()) :: rest) ∧
      w'.thread = w.thread := by
  obtain ⟨i, stack, c, earlier, next, parked⟩ := h.parked_of_suspends hq trivial hlost
  obtain rfl : (⟨i, earlier.length + 1⟩ : Callback) = cb := by
    rw [parked.callbacks, List.getLast?_concat, Option.some.injEq] at hcb
    exact hcb
  have holds := parked.holds
  have harmed := parked.armed
  rw [State.world_running] at holds harmed
  have hturn : st.takesTurn r.depth (.owing ⟨i, earlier.length + 1⟩
      (P.bodyWith (.succeed v) ⟨i, earlier.length + 1⟩)) rest = false := rfl
  have hstory : st.next r.depth (.running w (.owing ⟨i, earlier.length + 1⟩
      (P.bodyWith (.succeed v) ⟨i, earlier.length + 1⟩)) rest) =
        st.resume ⟨i, earlier.length + 1⟩ (.ok v) := by
    have hc : (Activation.owing ⟨i, earlier.length + 1⟩
        (P.bodyWith (.succeed v) ⟨i, earlier.length + 1⟩)).completion? w =
          some (⟨i, earlier.length + 1⟩, .ok v) := rfl
    simp only [Story.next, hturn, Bool.false_eq_true, if_false, hc, parked.bridge, harmed,
      and_self, if_true]
  have hnext : (State.running w (.owing ⟨i, earlier.length + 1⟩
      (P.bodyWith (.succeed v) ⟨i, earlier.length + 1⟩)) rest).next P =
        .running
          ((w.setBridge i ⟨c, some r.terminal, .empty, none, earlier.length + 1⟩).report P
            (.resumed (earlier.length + 1) stack.length))
          (.eval (.loop ⟨c, stack, .bridge i⟩) (.pure v))
          (.owing ⟨i, earlier.length + 1⟩ (.done ()) :: rest) := by
    change State.complete P w ⟨i, earlier.length + 1⟩ (.ok v)
      (.owing ⟨i, earlier.length + 1⟩ (.done ()) :: rest) = _
    simp only [State.complete, holds, if_true]
    rfl
  obtain ⟨hexchanges, -, hresumed⟩ := parked.resume_eq ⟨i, earlier.length + 1⟩ (.ok v)
  exact ⟨_, _, _, rfl, hstory ▸ hexchanges, hstory ▸ hresumed, hnext, rfl⟩

/-! ## All that is known of the places of a run -/

/-- The places and the links of a run that has been entered on some threads. -/
structure Placed (P : Program S σ) (r : Origin S) (s : State S σ) (st : Story S)
    (ts : List String) : Prop where
  /-- There is one entry for each segment so far. -/
  entries : ts.length = segment st.exchanges + 1
  /-- Each turn that the run has taken so far, for itself or in code that it called, was on the
  thread on which its segment has been entered. -/
  turns : ∀ {w : World S σ} {top : Activation S σ} {rest : List (Activation S σ)} {st₁ : Story S}
    {ts₁ : List String}, FollowsOnThreads P r (.running w top rest) st₁ ts₁ →
      LeadsOnThreads P r (.running w top rest) st₁ ts₁ s st ts →
      st₁.takesTurn r.depth top rest = true →
        ts[segment st₁.exchanges]? = some w.thread
  /-- The code of a question is started in the next step of a turn, and on the same thread, but for
  what is submitted to a context. -/
  starts : ∀ q, st.pending = none → (st.next r.depth s).pending = some q →
    q.Started P (st.next r.depth s) (s.next P) ∧ ts.getLast? = some s.world.thread ∧
      ((∀ context b d, q ≠ .deferred context b d) → (s.next P).world.thread = s.world.thread)
  /-- So is the terminal, when the run delivers. -/
  delivers : (st.next r.depth s).outcomes ≠ st.outcomes →
    ts.getLast? = some s.world.thread ∧ (s.next P).world.thread = s.world.thread
  /-- Code goes on where it has been started: whenever it is on top again, it is on that thread. -/
  stays : ∀ w top rest n w' top' rest', s = .running w top rest → top.Inner →
    (∀ m < n, rest.length < (State.run P m s).activations.length) →
      State.run P n s = .running w' top' rest' → rest'.length = rest.length → top'.Inner →
        w'.thread = w.thread
  /-- A deferred computation is submitted in one step, on a connection that has not been canceled.
  A context that runs the body at once has it on its thread, with the callback that the run waits
  for. -/
  submits : ∀ context b d, st.pending = none →
    (st.next r.depth s).pending = some (.deferred context b d) →
      s.world.connections.isCanceled d = false ∧
      (∃ w cb rest, w.thread = s.world.thread ∧ s.next P = .submit P w context (.body cb b) rest) ∧
      ∀ thread, context.runsOn? s.world.thread = some thread → ∃ w cb rest,
        s.next P = .running w (.owing cb (P.bodyWith b cb)) rest ∧ w.thread = thread ∧
          (st.next r.depth s).callbacks.getLast? = some cb ∧ (st.next r.depth s).lost = false
  /-- The task of a shifted value, wherever it is run while the run waits for it, enters the run
  there, with the value. -/
  lands : ∀ context v d w cb rest, s = .running w (.owing cb (P.bodyWith (.succeed v) cb)) rest →
    st.pending = some (.deferred context (.succeed v) d) → st.lost = false →
      st.callbacks.getLast? = some cb →
        (st.next r.depth s).exchanges =
          st.exchanges ++ [⟨.deferred context (.succeed v) d, .ok v⟩] ∧
        (∃ w' run, s.next P =
          .running w' (.eval (.loop run) (.pure v)) (.owing cb (.done ()) :: rest) ∧
            w'.thread = w.thread) ∧
        FollowsOnThreads P r (s.next P) (st.next r.depth s) (ts ++ [w.thread])
  /-- A link that the run has met: it does what the effect does by itself; a value is submitted
  once and comes to the frames after the link, a failure goes to them, and a cancellation that is
  observed ends the run. -/
  links : ∀ {w : World S σ} {run : Loop S} {context : Context S.Executor} {e : Effect S}
    {rest : List (Activation S σ)} {st₁ : Story S} {ts₁ : List String},
      FollowsOnThreads P r (.running w (.eval (.loop run) (.continueOn context e)) rest) st₁ ts₁ →
      st₁.takesTurn r.depth
        (.eval (.loop run) (.continueOn context e) : Activation S σ) rest = true →
      LeadsOnThreads P r (.running w (.eval (.loop run) (.continueOn context e)) rest) st₁ ts₁
        s st ts →
        Shifts P r context e run.connection run.stack.toList
          (.running w (.eval (.loop run) (.continueOn context e)) rest) st₁ ts₁ s st ts
  /-- The failure that an effect raises is with the next frame that recovers in the next state, on
  the same thread. -/
  fails : ∀ w run x rest, s = .running w (.eval (.loop run) (.fail x)) rest →
    st.takesTurn r.depth (.eval (.loop run) (.fail x) : Activation S σ) rest = true →
      w.connections.isCanceled run.connection = false →
        ts.getLast? = some w.thread ∧ s.next P = .leave P w run (.error x) rest
  /-- While the run waits for no answer it goes on, until it has its outcome. -/
  goes : st.pending = none → st.outcomes = [] → ∃ n ≤ 3, Advances P r n s st

/-- All code of a run but the bodies that it defers is on the thread on which the run has been
entered last, and links to other contexts shift values and nothing else. -/
theorem FollowsOnThreads.placed {P : Program S σ} {r : Origin S} {s : State S σ} {st : Story S}
    {ts : List String} (h : FollowsOnThreads P r s st ts) : Placed P r s st ts := by
  have htracks := h.follows.tracks
  have hlast : ∀ {w : World S σ} {top : Activation S σ} {rest : List (Activation S σ)},
      s = .running w top rest → st.takesTurn r.depth top rest = true →
        ts.getLast? = some s.world.thread := by
    rintro w top rest rfl hturn
    exact h.thread hturn
  refine ⟨h.segment_eq, fun ht hp hturn => hp.thread ht hturn, fun q hnone hq => ?_, fun hout => ?_,
    ?_, fun context b d hnone hq => ?_, ?_, fun ht hturn hp => hp.shifts ht.follows hturn, ?_,
    htracks.goes⟩
  · obtain ⟨w, top, rest, hs, hturn⟩ := Tracks.turn_of_asks hnone hq
    exact ⟨htracks.starts h.follows.reachable.bounded hnone hq, hlast hs hturn,
      htracks.thread_of_asks hnone hq⟩
  · obtain ⟨w, top, rest, hs, hturn, hthread⟩ := htracks.thread_of_delivers (P := P) hout
    refine ⟨hlast hs hturn, hthread.trans ?_⟩
    rw [hs]
    rfl
  · rintro w top rest n w' top' rest' rfl htop hstays hn hlength htop'
    exact State.thread_run h.follows.reachable.isOpen htop hstays hn hlength htop'
  · obtain ⟨w, run, rest, rfl, rfl, hc, hcb, hlost, hnext⟩ := htracks.submits hnone hq
    have hthread : ((w.arm run).1.report P (.suspendedDeferred context.name
        (w.arm run).2.epoch run.stack.length)).thread = w.thread := State.thread_arm w run
    refine ⟨hc, ⟨_, _, _, hthread, hnext⟩, fun thread hruns => ?_⟩
    rw [State.world_running, ← hthread] at hruns
    obtain ⟨w', rest', hsubmit, hw'⟩ := State.submit_body P hruns (w.arm run).2 b rest
    exact ⟨w', _, rest', hnext.trans hsubmit, hw', hcb, hlost⟩
  · rintro context v d w cb rest rfl hq hlost hcb
    obtain ⟨_, w', run, rfl, hex, hresumed, hnext, hthread⟩ := htracks.lands hq hlost hcb
    refine ⟨hex, ⟨w', run, hnext, hthread⟩, ?_⟩
    have hfollows := h.next
    rw [hresumed] at hfollows
    simpa using hfollows
  · rintro w run x rest rfl hturn hc
    refine ⟨h.thread hturn, ?_⟩
    rw [← State.reduce_fail_eq_leave]
    simp only [State.next, State.work, State.eval, hc, Bool.false_eq_true, if_false]

/-! ## A host that ferries -/

namespace Ferry

/-- The names of a host whose delayed code cancels a connection and fails. -/
def closures : Closures where
  Thunk := Empty
  Delay := Connection
  Registration := Empty
  Body := Empty
  Bind := Empty
  Map := Unit
  Handler := Unit
  Rescue := Empty
  Modify := Empty
  Restore := Empty
  Token := Empty
  Terminal := Unit
  Task := Empty
  Executor := Empty

/-- A failure. -/
def failure : Failure :=
  .internal "ferry"

/-- The code of that host. -/
def program : Program closures Unit where
  thunk := nofun
  delay c := .command (.cancel c) fun _ => .done (.error failure)
  registration := nofun
  body := nofun
  bind := nofun
  map _ v := .done v
  handler _ _ := .done (.pure (.bool true))
  rescue := nofun
  modify := nofun
  restore := nofun
  token := nofun
  terminal _ _ := .done ()
  task := nofun
  executor := nofun
  observe _ host := host

/-- The first cancelable connection. -/
def first : Connection :=
  .cancelable 0

/-- A run of an effect on the first cancelable connection, with the code that has started it
below. -/
def origin (e : Effect closures) : Origin closures where
  effect := e
  connection := first
  stack := .empty
  terminal := .user ()
  depth := 1

/-- The code that creates the connection and starts the run. -/
def code (e : Effect closures) : Code closures Unit Unit :=
  .query .newConnection fun c => .perform (.run e c (.user ()))

/-- So many steps of a run on that host, with its story and its entries. -/
def play (e : Effect closures) (n : Nat) :
    State closures Unit × Story closures × List String :=
  itinerary program 1 n
    (.running (((State.start (.initial () "main") (code e)).next program).next program).world
      (origin e).activation [.code (.done ())], .beginning, ["main"])

/-- These are steps of a run. -/
theorem followsOnThreads_play (e : Effect closures) (n : Nat) :
    FollowsOnThreads program (origin e) (play e n).1 (play e n).2.1 (play e n).2.2 :=
  FollowsOnThreads.itinerary (.start (.next (.next (.start () "main" (code e)))) rfl) n

/-- A failure behind a link to a new thread, which is recovered from in front of a link to a
pool. -/
def crossing : Effect closures :=
  .map (.continueOn (.pool "pool" "worker")
    (.handleErrorWith (.continueOn (.newThread "aside" true) (.fail failure)) ())) ()

/-- The failure is given to the handler on the first thread, and the value of the handler to the
last frame on the thread of the pool. -/
theorem placed_crossing :
    (play crossing 30).2.1.called =
      [.handler () failure, .deferred (.pool "pool" "worker") (.succeed (.bool true)) first,
        .map () (.bool true)] ∧
      (play crossing 30).2.1.outcomes = [.ok (.bool true)] ∧
      (play crossing 30).2.2 = ["main", "worker"] ∧
      Placed program (origin crossing) (play crossing 30).1 (play crossing 30).2.1
        (play crossing 30).2.2 :=
  ⟨rfl, rfl, rfl, (followsOnThreads_play crossing 30).placed⟩

/-- An effect that cancels its connection and fails behind a link, in front of a handler. -/
def overboard : Effect closures :=
  .handleErrorWith (.continueOn .immediate (.delay first)) ()

/-- The failure of an effect behind a link does not come to the handler after the link when the
connection is found canceled first: the run is over with the cancellation. -/
theorem overboard_unhandled :
    ∃ s st ts, FollowsOnThreads program (origin overboard) s st ts ∧
      st.exchanges = [openLook first, openLook first, openLook first, openLook first,
        ⟨.delay first, .error failure⟩, ⟨.canceled first, true⟩] ∧
      st.pending = none ∧ st.outcomes = [.error .cancelled] ∧ s.activations = [] :=
  ⟨_, _, _, followsOnThreads_play overboard 30, rfl, rfl, rfl, rfl⟩

end Ferry

end Trampoline
