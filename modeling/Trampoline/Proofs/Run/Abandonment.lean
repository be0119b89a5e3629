import Trampoline.Proofs.Run.Delivery
import Trampoline.Proofs.Run.Leads

/-!
# Panics that a run does not survive

A panic that the installed rule calls fatal leaves the loop of a run, and with it goes all
that the run had on the control stack.  Once no suspension of the run waits, nothing can
bring it back: its code is not asked again, its terminal stays where it is, and every
completion of its callbacks is stale.

A registration or a body is not the work of a loop.  While it runs, the frames of the run
are parked in an armed bridge, and a fatal panic of it leaves them there.  So the run is
not abandoned by such a panic: whoever has the callback takes it up again.

Main definitions and results:

- Definition `Raises`: code of a run panics fatally.
- Definition `Abandoned`: nothing can bring a run back.
- Definition `Aftermath`, theorem `Follows.aftermath`: what a fatal panic leaves of a run,
  from then on.
- Theorem `Mishap.comes_back`: a run whose registration has panicked fatally delivers.
-/

namespace Trampoline

variable {S : Closures} {σ : Type}

/-! ## What a fatal panic leaves -/

/-- Code of a run panics, and the installed rule says that the run does not survive it. -/
inductive Raises (r : Origin S) (st : Story S) : State S σ → Prop
  /-- The code works on a question of a loop of the run. -/
  | called {α : Type} {w : World S σ} {rest : List (Activation S σ)} (h : Holder S σ α)
      {payload : Payload}
      (turn : st.takesTurn r.depth (h.wrap (.panic payload)) rest = true)
      (fatal : w.classifier payload = false) :
      Raises r st (.running w (h.wrap (.panic payload)) rest)
  /-- The code is a registration or a body that the run has handed a callback to, and no
  loop of the run is at work. -/
  | started {w : World S σ} {rest : List (Activation S σ)} {cb : Callback} {payload : Payload}
      (own : st.bridge = some cb.bridge) (fatal : w.classifier payload = false)
      (idle : ¬Executing r st (.running w (.owing cb (.panic payload)) rest)) :
      Raises r st (.running w (.owing cb (.panic payload)) rest)

/-- A run has delivered nothing, and nothing can bring it back: no activation works for it,
all its suspensions have ended, its bridge keeps the terminal and no frames, and whatever
completes a callback of it returns at once and leaves all bridges alone. -/
structure Abandoned (P : Program S σ) (r : Origin S) (st : Story S) (s : State S σ) :
    Prop where
  outcome : st.outcomes = []
  ended : st.resumptions = st.callbacks
  idle : ∀ i, st.bridge = some i → ∀ a ∈ s.activations, a.Idle i
  bridge : ∀ i, st.bridge = some i → ∃ b, s.world.bridges[i]? = some b ∧
    b.terminal = some r.terminal ∧ b.armed = none ∧ b.stack.toList = []
  stale : ∀ cb o rest, st.bridge = some cb.bridge →
    ∃ w, State.complete P s.world cb o rest = .resume w rest ∧ w.bridges = s.world.bridges

/-- What a fatal panic of its code leaves of a run. -/
structure Aftermath (P : Program S σ) (r : Origin S) (s : State S σ) (st : Story S) :
    Prop where
  /-- The panic goes on in what was waiting below. -/
  unwinds : ∃ w top rest payload, s = .running w top rest ∧ s.next P = .unwind w payload rest
  /-- If no suspension of the run waits for a completion, then from that moment on nothing is
  noted of the run any more: it asks nothing, is given no answer, and delivers nothing. -/
  abandoned : (∀ cb, st.bridge = some cb.bridge → s.world.isArmed cb = false) →
    ∀ s' st', Leads P r (s.next P) (st.next r.depth s) s' st' →
      st' = st.next r.depth s ∧ st'.lost = true ∧ Abandoned P r st' s'
  /-- If one does, then a registration or a body has panicked, the run is still suspended,
  and the completion takes it up with all that it has parked. -/
  suspended : ∀ cb, st.bridge = some cb.bridge → s.world.isArmed cb = true →
    (∃ w cb' payload rest, s = .running w (.owing cb' (.panic payload)) rest) ∧
      st.next r.depth s = st ∧ ∃ p, p.callback = cb ∧ Suspended r st (s.next P) p ∧
        ∀ o rest, ∃ w, State.complete P (s.next P).world cb o rest = .running w
          (.eval (.loop ⟨p.connection, p.stack, .bridge cb.bridge⟩) (.ofOutcome o)) rest

/-! ## Lost runs -/

namespace Tracks

variable {P : Program S σ} {r : Origin S} {s : State S σ} {st : Story S}

/-- A lost run is abandoned. -/
theorem abandoned (h : Tracks P r s st) (hlost : st.lost = true) : Abandoned P r st s := by
  obtain ⟨houtcomes, -, hended, hstill⟩ := h.still_of_lost hlost
  refine ⟨houtcomes, hended, fun i hi => (hstill i hi).idle, fun i hi => ?_, ?_⟩
  · obtain ⟨c, n, holds⟩ := (hstill i hi).holds
    exact ⟨_, holds, rfl, rfl, rfl⟩
  · intro cb o rest hcb
    obtain ⟨c, n, holds⟩ := (hstill cb.bridge hcb).holds
    have hdisarmed : s.world.isArmed cb = false := by
      have hnot : ¬s.world.Wins cb.bridge cb := World.not_wins_of_disarmed holds rfl cb
      simpa [World.Wins] using hnot
    exact ⟨_, State.complete_of_not_armed P o hdisarmed, rfl⟩

/-- A run that waits for a completion has not been lost. -/
theorem not_lost_of_armed (h : Tracks P r s st) {cb : Callback} (hcb : st.bridge = some cb.bridge)
    (harmed : s.world.isArmed cb = true) : st.lost = false := by
  cases hlost : st.lost with
  | false => rfl
  | true =>
      obtain ⟨-, -, hended, -⟩ := h.still_of_lost hlost
      have hcallbacks := (h.armed_iff hcb).mp harmed
      rw [hended] at hcallbacks
      simp at hcallbacks

/-- A run takes a turn only while it waits for no completion. -/
theorem not_armed_of_turn {w : World S σ} {top : Activation S σ} {rest : List (Activation S σ)}
    (h : Tracks P r (.running w top rest) st) (hturn : st.takesTurn r.depth top rest = true)
    {cb : Callback} (hcb : st.bridge = some cb.bridge) : w.isArmed cb = false := by
  rcases h.turn_cases with hno | ⟨run, -, home, -⟩
  · rw [hturn] at hno
    cases hno
  · have hnot := home.not_wins cb
    simpa [World.Wins, Story.bridgeIn, hcb] using hnot

end Tracks

/-! ## Fatal panics -/

/-- A fatal panic of code that works on a question of a loop takes the run away. -/
theorem Story.lost_of_called (P : Program S σ) {st : Story S} {depth : Nat} {α : Type}
    {w : World S σ} {rest : List (Activation S σ)} {h : Holder S σ α} {payload : Payload}
    (hturn : st.takesTurn depth (h.wrap (.panic payload)) rest = true)
    (hfatal : w.classifier payload = false) :
    (st.next depth (.running w (h.wrap (.panic payload)) rest)).lost = true ∧
      State.work P w rest (h.wrap (.panic payload)) = .unwind w payload rest := by
  obtain ⟨run, hrun⟩ := Story.loop_of_takesTurn hturn
  rw [Holder.loop?_wrap] at hrun
  constructor
  · simp only [Story.next, hturn, if_true, Story.turn_wrap st w hrun, Story.heed, hfatal,
      Bool.false_eq_true, if_false]
  · rw [State.work_wrap]
    simp only [State.advance, h.escape_eq P w rest hrun, State.panicIn, State.contain, hfatal,
      Bool.false_eq_true, if_false]

/-- A fatal panic of a registration or a body goes on below, and is none of the run's
business. -/
theorem Story.next_started (P : Program S σ) (st : Story S) (depth : Nat) {w : World S σ}
    {payload : Payload} (hfatal : w.classifier payload = false) (cb : Callback)
    (rest : List (Activation S σ)) :
    State.next P (.running w (.owing cb (.panic payload)) rest) = .unwind w payload rest ∧
      st.next depth (.running w (.owing cb (.panic payload)) rest) = st := by
  constructor
  · simp [State.next, State.work, State.advance, State.contain, hfatal]
  · have hturn : st.takesTurn depth (.owing cb (.panic payload) : Activation S σ) rest = false :=
      rfl
    have hnone : (Activation.owing cb (.panic payload) : Activation S σ).completion? w = none := by
      simp [Activation.completion?, hfatal]
    simp [Story.next, hturn, hnone]

/-- A run that has delivered nothing, has no loop at work and waits for no completion has
been lost. -/
theorem Follows.lost_of_idle {P : Program S σ} {r : Origin S} {s : State S σ} {st : Story S}
    (h : Follows P r s st) (hout : st.outcomes = []) (hidle : ¬Executing r st s)
    (hdisarmed : ∀ cb, st.bridge = some cb.bridge → s.world.isArmed cb = false) :
    st.lost = true := by
  cases hlost : st.lost with
  | true => rfl
  | false =>
      rcases h.delivered_or_suspended hlost hidle with ⟨hdelivered, -⟩ | ⟨p, hp, -⟩
      · obtain ⟨o, ho⟩ := hdelivered.outcome
        simp [hout] at ho
      · obtain ⟨b, hb, -, harmed, -⟩ := hp.bridge
        have hwaits : s.world.isArmed p.callback = true := by
          rw [World.isArmed_eq_true_iff]
          exact ⟨b, hb, by rw [harmed, hp.callback.1]⟩
        rw [hdisarmed p.callback hp.callback.2] at hwaits
        cases hwaits

/-- A run that waits for a completion, with no loop at work, is suspended, and the completion
takes it up. -/
theorem Follows.suspended_of_armed {P : Program S σ} {r : Origin S} {s : State S σ}
    {st : Story S} (h : Follows P r s st) (hout : st.outcomes = []) (hidle : ¬Executing r st s)
    {cb : Callback} (hcb : st.bridge = some cb.bridge) (harmed : s.world.isArmed cb = true) :
    ∃ p, p.callback = cb ∧ Suspended r st s p ∧
      ∀ o rest, ∃ w, State.complete P s.world cb o rest = .running w
        (.eval (.loop ⟨p.connection, p.stack, .bridge cb.bridge⟩) (.ofOutcome o)) rest := by
  rcases h.delivered_or_suspended (h.tracks.not_lost_of_armed hcb harmed) hidle with
    ⟨hdelivered, -⟩ | ⟨p, hp, -, hcompletes⟩
  · obtain ⟨o, ho⟩ := hdelivered.outcome
    simp [hout] at ho
  · have hsame : p.callback = cb := by
      have hcallbacks := (h.tracks.armed_iff hcb).mp harmed
      have hlast : st.callbacks.getLast? = some p.callback := by
        simp [Story.callbacks, hp.latest]
      rw [hcallbacks] at hlast
      simpa using hlast.symm
    subst hsame
    exact ⟨p, rfl, hp, hcompletes⟩

/-- A fatal panic before delivery: if no suspension of the run waits, the run stays abandoned
whatever happens later; else it is as suspended as before. -/
theorem Follows.aftermath {P : Program S σ} {r : Origin S} {s : State S σ} {st : Story S}
    (h : Follows P r s st) (hout : st.outcomes = []) (hraises : Raises r st s) :
    Aftermath P r s st := by
  -- Once the run has been lost, both its story and its bridge stay as they are.
  have hforever : (st.next r.depth s).lost = true → ∀ s' st',
      Leads P r (s.next P) (st.next r.depth s) s' st' →
        st' = st.next r.depth s ∧ st'.lost = true ∧ Abandoned P r st' s' := by
    intro hlost s' st' hleads
    obtain ⟨-, -, -, hstill⟩ := h.next.tracks.still_of_lost hlost
    obtain ⟨rfl, -⟩ := hleads.unchanged hstill (.inr hlost)
    exact ⟨rfl, hlost, (hleads.follows h.next).tracks.abandoned hlost⟩
  cases hraises with
  | @called _ w rest holder payload turn fatal =>
      obtain ⟨hlost, hunwinds⟩ := Story.lost_of_called P turn fatal
      refine ⟨⟨w, _, rest, payload, rfl, hunwinds⟩, fun _ => hforever hlost,
        fun cb hcb harmed => ?_⟩
      rw [State.world_running, h.tracks.not_armed_of_turn turn hcb] at harmed
      cases harmed
  | @started w rest cb payload own fatal idle =>
      obtain ⟨hunwinds, hsame⟩ := st.next_started P r.depth fatal cb rest
      refine ⟨⟨w, _, rest, payload, rfl, hunwinds⟩, fun hdisarmed => ?_, fun cb' hcb harmed => ?_⟩
      · refine hforever ?_
        rw [hsame]
        exact h.lost_of_idle hout idle hdisarmed
      · obtain ⟨p, hp, hsuspended, hcompletes⟩ := h.suspended_of_armed hout idle hcb harmed
        have hworld : (State.next P (.running w (.owing cb (.panic payload)) rest)).world = w := by
          rw [hunwinds, State.world_unwind]
        refine ⟨⟨w, cb, payload, rest, rfl⟩, hsame, p, hp, ?_, ?_⟩
        · refine ⟨hsuspended.outcome, hsuspended.latest, hsuspended.callback, ?_⟩
          rw [hworld]
          exact hsuspended.bridge
        · rw [hworld]
          exact hcompletes

/-- Without a loop on the control stack, in view or hidden, no loop of a run is at work. -/
theorem not_executing_of_no_loop {r : Origin S} {s : State S σ} {st : Story S}
    (h : ∀ a ∈ s.activations, a.Every fun a => a.loop? = none) : ¬Executing r st s := by
  rintro ⟨above, act, below, hplace, hact⟩
  obtain ⟨a, ⟨run, hrun, -⟩, hnone⟩ := Activation.Every.both act hact (h act (by simp [hplace]))
  rw [hnone] at hrun
  cases hrun

/-! ## A host with mishaps -/

/-- What the registrations of a host with mishaps do with their callback. -/
inductive Mishap where
  /-- Complete it with nothing. -/
  | answer
  /-- Save it and panic fatally. -/
  | fault

namespace Mishap

/-- The names of a host with such registrations, and with code after a value that panics
fatally. -/
def closures : Closures where
  Thunk := Empty
  Delay := Empty
  Registration := Mishap
  Body := Empty
  Bind := Unit
  Map := Empty
  Handler := Empty
  Rescue := Empty
  Modify := Empty
  Restore := Empty
  Token := Empty
  Terminal := Unit
  Task := Empty
  Executor := Empty

/-- The code of that host, which keeps the callback that was saved last. -/
def program : Program closures (Option Callback) where
  thunk := nofun
  delay := nofun
  registration mishap _ cb :=
    match mishap with
    | answer => .perform (.complete cb (.ok .null))
    | fault => .query (.modifyHost fun _ => some cb) fun _ => .panic (.fatal "stop")
  body := nofun
  bind _ _ := .panic (.fatal "stop")
  map := nofun
  handler := nofun
  rescue := nofun
  modify := nofun
  restore := nofun
  token := nofun
  terminal _ _ := .done ()
  task := nofun
  executor := nofun
  observe _ host := host

/-- A run of an effect, with the code that has started it below. -/
def origin (e : Effect closures) : Origin closures where
  effect := e
  connection := .uncancelable
  stack := .empty
  terminal := .user ()
  depth := 1

/-- The state in which such a run starts. -/
def start (e : Effect closures) : State closures (Option Callback) :=
  .running (.initial none "main") (origin e).activation [.code (.done ())]

/-- So many steps of a run on that host, with their story. -/
def play (e : Effect closures) (n : Nat) :
    State closures (Option Callback) × Story closures :=
  chronicle program 1 n (start e, .beginning)

/-- These are steps of a run. -/
theorem follows_play (e : Effect closures) (n : Nat) :
    Follows program (origin e) (play e n).1 (play e n).2 :=
  Follows.chronicle (.start (.next (.start none "main"
    (.perform (.run e .uncancelable (.user ()))))) rfl) n

/-- Code of the host that completes the callback that was saved last. -/
def completeSaved : Code closures (Option Callback) Unit :=
  .query .host fun saved =>
    match saved with
    | some cb => .perform (.complete cb (.ok .null))
    | none => .done ()

/-- A run taken up inside its registration, by a completion there, panics fatally in the code
after the value: it stays abandoned. -/
theorem aftermath_answer :
    Raises (origin (.bind (.async answer) (.bind (.user ()))))
        (play (.bind (.async answer) (.bind (.user ()))) 5).2
        (play (.bind (.async answer) (.bind (.user ()))) 5).1 ∧
      Aftermath program (origin (.bind (.async answer) (.bind (.user ()))))
        (play (.bind (.async answer) (.bind (.user ()))) 5).1
        (play (.bind (.async answer) (.bind (.user ()))) 5).2 := by
  have hraises : Raises (origin (.bind (.async answer) (.bind (.user ()))))
      (play (.bind (.async answer) (.bind (.user ()))) 5).2
      (play (.bind (.async answer) (.bind (.user ()))) 5).1 :=
    .called (.node (.loop ⟨.uncancelable, .empty, .bridge 0⟩)) rfl rfl
  exact ⟨hraises, Follows.aftermath (follows_play _ 5) rfl hraises⟩

/-- A registration saves its callback and panics fatally; no code is left, and the terminal
of the run has not been called.  Then the host completes the callback, and the run delivers. -/
theorem comes_back : ∃ s st s' st',
    Follows program (origin (.async fault)) s st ∧ st.outcomes = [] ∧
      Raises (origin (.async fault)) st s ∧
      Leads program (origin (.async fault)) (s.next program) (st.next 1 s) s' st' ∧
      st'.outcomes = [.ok .null] := by
  have hraises : Raises (origin (.async fault)) (play (.async fault) 2).2
      (play (.async fault) 2).1 := by
    refine .started rfl rfl (not_executing_of_no_loop fun a ha => ?_)
    rcases List.mem_cons.mp ha with rfl | ha
    · rfl
    · rw [List.mem_singleton.mp ha]
      rfl
  have hunwound : Leads program (origin (.async fault)) ((play (.async fault) 2).1.next program)
      ((play (.async fault) 2).2.next 1 (play (.async fault) 2).1)
      (play (.async fault) 4).1 (play (.async fault) 4).2 := .next .now
  have hcompleted := (hunwound.again rfl completeSaved).chronicle 5
  exact ⟨_, _, _, _, follows_play _ 2, rfl, hraises, hcompleted, rfl⟩

end Mishap

end Trampoline
