import Trampoline.Proofs.Machine.Reachable
import Trampoline.Proofs.Run.Frames

/-!
# The story of a run

One run is followed through all that the machine does, and what becomes known of it is
written down step by step: what it has asked and was answered, where it was suspended, by
which callbacks it was taken up again, and what it has delivered.

Nothing here takes part in the machine.  A step is looked at before it is made: if the
activation on top works for the run, the step is a turn of the run, and if it completes
the callback that the run waits for, it takes the run up again.  All other steps are none
of the run's business.

Main definitions:

- `Origin`: what a run starts with.
- `Story`, `Story.next`: what is known of a run, and what a step adds to it.
- `chronicle`: so many steps of the machine with their story.
- `Follows`: a run followed from its start, with whatever code the host brings in.
-/

namespace Trampoline

variable {S : Closures} {σ : Type}

/-- What a run starts with. -/
structure Origin (S : Closures) where
  effect : Effect S
  connection : Connection
  /-- The frames that are pending already. -/
  stack : CallStack (Frame S)
  terminal : Terminal S
  /-- How many activations wait below the run. -/
  depth : Nat

namespace Origin

/-- The activation that starts a run. -/
def activation (r : Origin S) : Activation S σ :=
  .eval (.loop ⟨r.connection, r.stack, .terminal r.terminal⟩) r.effect

/-- The evaluation that a run stands for. -/
def course (r : Origin S) : Course S :=
  (Course.eval r.connection r.effect).within r.stack.toList

end Origin

/-- One suspension of a run: the callback that was handed out for it, the frames that were
pending, and the connection that was active. -/
structure Park (S : Closures) where
  callback : Callback
  stack : CallStack (Frame S)
  connection : Connection

/-- What is known of a run. -/
structure Story (S : Closures) where
  /-- The bridge of the run, once it has been suspended. -/
  bridge : Option Nat
  /-- What the run has asked, with the answers, in order. -/
  exchanges : List (Exchange S)
  /-- What it has asked and was not answered yet. -/
  pending : Option (Question S)
  /-- The suspensions, in order. -/
  parks : List (Park S)
  /-- The callbacks that have taken the run up again. -/
  resumptions : List Callback
  /-- What the run has given to its terminal: `Follows.terminal_started`. -/
  outcomes : List Outcome
  /-- A panic that the run does not survive has left it. -/
  lost : Bool

/-! ## What the run asks -/

/-- What a binder asks of the host. -/
def Binder.question? (f : Binder S) (v : Value) : Option (Question S) :=
  match f with
  | .user k => some (.bind k v)
  | .pure | .shift _ => none

/-- What a recovery asks of the host. -/
def Recovery.question? (h : Recovery S) (e : Failure) : Option (Question S) :=
  match h with
  | .user k => some (.handler k e)
  | .rescue k => some (.rescue k e)
  | .reify => none

/-- What a frame asks of the host when it takes an exit. -/
def Frame.question? : Frame S → Outcome → Option (Question S)
  | .bind f, .ok v | .fold f _, .ok v => f.question? v
  | .map k, .ok v => some (.map k v)
  | .handle h, .error e | .fold _ h, .error e => h.question? e
  | .bind _, .error _ | .map _, .error _ | .handle _, .ok _ | .restore _ _, _ => none

/-- What the choice of a connection asks of the host. -/
def Modifier.question? (m : Modifier S) (current : Connection) : Option (Question S) :=
  match m with
  | .user k => some (.modify k current)
  | .restoring exit old (.user k) => some (.restore k exit old current)
  | .uncancelable | .restoring _ _ .old => none

/-! ## What a step adds -/

namespace Story

/-- The story of a run that has just started. -/
def beginning : Story S where
  bridge := none
  exchanges := []
  pending := none
  parks := []
  resumptions := []
  outcomes := []
  lost := false

/-- The run has looked at its connection. -/
def look (st : Story S) (c : Connection) (canceled : Bool) : Story S :=
  { st with exchanges := st.exchanges ++ [⟨.canceled c, canceled⟩] }

/-- The run goes on with code of the host, if it asks for any. -/
def ask (st : Story S) (q : Option (Question S)) : Story S :=
  { st with pending := q }

/-- What the run has asked is answered. -/
def answer (st : Story S) (reply : Reply S) : Story S :=
  match st.pending with
  | some q => { st with exchanges := st.exchanges ++ [⟨q, q.read reply⟩], pending := none }
  | none => st

/-- The run has come to its end. -/
def deliver (st : Story S) (o : Outcome) : Story S :=
  { st with outcomes := st.outcomes ++ [o] }

/-- The run parks its frames. -/
def park (st : Story S) (w : World S σ) (run : Loop S) : Story S :=
  let cb := (w.arm run).2
  { st with
    bridge := some cb.bridge
    parks := st.parks ++ [⟨cb, run.stack, run.connection⟩] }

/-- A callback takes the run up again. -/
def resume (st : Story S) (cb : Callback) (o : Outcome) : Story S :=
  { st with resumptions := st.resumptions ++ [cb] }.answer (.outcome o)

/-- An exit goes to the next frame that takes it, or out of the run. -/
def leave (st : Story S) (run : Loop S) (o : Outcome) : Story S :=
  match run.stack.takeFor o with
  | (some frame, _) => st.ask (frame.question? o)
  | (none, _) => st.deliver o

/-- The run meets a node on a connection that has not been canceled. -/
def meet (st : Story S) (w : World S σ) (run : Loop S) : Effect S → Story S
  | .fail e => st.leave run (.error e)
  | .suspend k => st.ask (some (.thunk k))
  | .delay k => st.ask (some (.delay k))
  | .async k => (st.park w run).ask (some (.async k run.connection))
  | .parked node stack => (st.park w run).ask (some (.parked node stack run.connection))
  | .deferred context b => (st.park w run).ask (some (.deferred context b run.connection))
  | .switchConnection _ modify _ => st.ask (modify.question? run.connection)
  | .pure _ | .bind _ _ | .map _ _ | .continueOn _ _ => st

/-- The code that works for the run has come to a result, or to a panic, which the run
survives or not. -/
def heed {α : Type} (st : Story S) (w : World S σ) (code : Code S σ α)
    (reply : Except Failure α → Reply S) : Story S :=
  match code with
  | .done a => st.answer (reply (.ok a))
  | .panic payload =>
    if w.classifier payload then st.answer (reply (.error (.panicked payload.describe)))
    else { st with lost := true }
  | _ => st

/-- A turn of the run. -/
def turn (st : Story S) (w : World S σ) : Activation S σ → Story S
  | .eval (.loop run) node =>
    let canceled := w.connections.isCanceled run.connection
    let st := st.look run.connection canceled
    if canceled then st.deliver (.error .cancelled) else st.meet w run node
  | .value (.loop run) v => st.leave run (.ok v)
  | .node (.loop _) code => st.heed w code .node
  | .outcome (.loop _) code => st.heed w code fun r => .outcome (r.bind id)
  | .switch _ _ _ code => st.heed w code .connection
  | _ => st

/-- The activation on top works for the run: before the first suspension it is the one in
the place where the run started, later it is the one that belongs to the bridge. -/
def takesTurn (st : Story S) (depth : Nat) (top : Activation S σ)
    (rest : List (Activation S σ)) : Bool :=
  match top.loop? with
  | some run =>
    match run.outlet with
    | .terminal _ =>
      st.bridge.isNone && st.outcomes.isEmpty && !st.lost && rest.length == depth
    | .bridge i => st.bridge == some i
  | none => false

/-- What the next step of the machine adds to the story. -/
def next (st : Story S) (depth : Nat) : State S σ → Story S
  | .running w top rest =>
    if st.takesTurn depth top rest then st.turn w top
    else
      match top.completion? w with
      | some (cb, o) =>
        if st.bridge = some cb.bridge ∧ w.isArmed cb = true then st.resume cb o else st
      | none => st
  | .returned _ | .unwound _ _ => st

/-- Code that goes on gives no answer. -/
theorem heed_of_goes_on (st : Story S) (w : World S σ) {α : Type} {code : Code S σ α}
    (hdone : ∀ a, code ≠ .done a) (hpanic : ∀ payload, code ≠ .panic payload)
    (reply : Except Failure α → Reply S) : st.heed w code reply = st := by
  cases code with
  | done a => exact absurd rfl (hdone a)
  | panic payload => exact absurd rfl (hpanic payload)
  | _ => rfl

end Story

/-- What takes a turn of a run is the work of a loop. -/
theorem Story.loop_of_takesTurn {st : Story S} {depth : Nat} {top : Activation S σ}
    {rest : List (Activation S σ)} (h : st.takesTurn depth top rest = true) :
    ∃ run, top.loop? = some run := by
  cases hrun : top.loop? with
  | some run => exact ⟨run, rfl⟩
  | none => simp [takesTurn, hrun] at h

/-! ## What a turn leaves as it is -/

/-- Who has asked nothing is not answered. -/
theorem Story.answer_of_none {st : Story S} (h : st.pending = none) (reply : Reply S) :
    st.answer reply = st := by
  unfold answer
  rw [h]

/-- A run loop that meets the node suspends. -/
def Effect.Suspends : Effect S → Prop
  | .async _ | .parked _ _ | .deferred _ _ => True
  | _ => False

namespace Story

@[simp]
theorem answer_bridge (st : Story S) (reply : Reply S) : (st.answer reply).bridge = st.bridge := by
  unfold answer
  split <;> rfl

@[simp]
theorem answer_parks (st : Story S) (reply : Reply S) : (st.answer reply).parks = st.parks := by
  unfold answer
  split <;> rfl

@[simp]
theorem answer_resumptions (st : Story S) (reply : Reply S) :
    (st.answer reply).resumptions = st.resumptions := by
  unfold answer
  split <;> rfl

@[simp]
theorem answer_lost (st : Story S) (reply : Reply S) : (st.answer reply).lost = st.lost := by
  unfold answer
  split <;> rfl

/-- A turn looks, asks, is answered, delivers, parks or loses the run, and does nothing else to the
story. -/
theorem turn_preserves {φ : Story S → Prop} {st : Story S} {w : World S σ} {act : Activation S σ}
    (h : φ st) (look : ∀ st c canceled, φ st → φ (st.look c canceled))
    (ask : ∀ st q, φ st → φ (st.ask q)) (answer : ∀ st reply, φ st → φ (st.answer reply))
    (deliver : ∀ st o, φ st → φ (st.deliver o)) (lose : ∀ st, φ st → φ { st with lost := true })
    (park : ∀ st run node, act = .eval (.loop run) node →
      w.connections.isCanceled run.connection = false → node.Suspends → φ st → φ (st.park w run)) :
    φ (st.turn w act) := by
  have hleave : ∀ st (run : Loop S) o, φ st → φ (st.leave run o) := by
    intro st run o hst
    unfold Story.leave
    split
    · exact ask st _ hst
    · exact deliver st o hst
  have hheed : ∀ {α : Type} (code : Code S σ α) (reply : Except Failure α → Reply S),
      φ (st.heed w code reply) := by
    intro α code reply
    cases code with
    | done a => exact answer st _ h
    | panic payload =>
        simp only [Story.heed]
        split
        · exact answer st _ h
        · exact lose st h
    | _ => exact h
  cases act with
  | eval d node =>
      cases d with
      | partially stack resume => exact h
      | loop run =>
          simp only [Story.turn]
          cases hc : w.connections.isCanceled run.connection with
          | true => exact deliver _ _ (look st _ true h)
          | false =>
              have hlook := look st run.connection false h
              simp only [Bool.false_eq_true, if_false]
              cases node with
              | fail e => exact hleave _ run _ hlook
              | async k => exact ask _ _ (park _ run _ rfl hc trivial hlook)
              | parked inner stack => exact ask _ _ (park _ run _ rfl hc trivial hlook)
              | deferred context b => exact ask _ _ (park _ run _ rfl hc trivial hlook)
              | suspend k => exact ask _ _ hlook
              | delay k => exact ask _ _ hlook
              | switchConnection source modify restore => exact ask _ _ hlook
              | _ => exact hlook
  | value d v => cases d with
    | loop run => exact hleave st run _ h
    | partially stack resume => exact h
  | node d code => cases d with
    | loop run => exact hheed code _
    | partially stack resume => exact h
  | outcome d code => cases d with
    | loop run => exact hheed code fun r => .outcome (r.bind id)
    | partially stack resume => exact h
  | switch run source restore code => exact hheed code _
  | _ => exact h

/-- A step of a machine that has come to its end adds nothing. -/
theorem next_of_ended (st : Story S) (depth : Nat) {s : State S σ} (h : s.activations = []) :
    st.next depth s = st := by
  cases s with
  | running w top rest => cases h
  | returned w => rfl
  | unwound w payload => rfl

end Story

/-- So many steps of the machine, with what they add to the story. -/
def chronicle (P : Program S σ) (depth : Nat) : Nat → State S σ × Story S → State S σ × Story S
  | 0, p => p
  | n + 1, (s, st) => chronicle P depth n (s.next P, st.next depth s)

/-- A run followed from its start in any reachable state.  Whenever the machine has come
to its end, the host may bring more code into the world that is left. -/
inductive Follows (P : Program S σ) (r : Origin S) : State S σ → Story S → Prop
  | start {w : World S σ} {rest : List (Activation S σ)}
      (h : State.Reachable P (.running w r.activation rest)) (depth : rest.length = r.depth) :
      Follows P r (.running w r.activation rest) .beginning
  | next {s : State S σ} {st : Story S} (h : Follows P r s st) :
      Follows P r (s.next P) (st.next r.depth s)
  | again {s : State S σ} {st : Story S} (h : Follows P r s st) (hs : s.activations = [])
      (code : Code S σ Unit) : Follows P r (.start s.world code) st

/-- All states in which a run is followed are reachable. -/
theorem Follows.reachable {P : Program S σ} {r : Origin S} {s : State S σ} {st : Story S}
    (h : Follows P r s st) : State.Reachable P s := by
  induction h with
  | start h depth => exact h
  | next h ih => exact ih.next
  | again h hs code ih => exact ih.again hs code

/-- A run that is followed can be followed further. -/
theorem Follows.chronicle {P : Program S σ} {r : Origin S} {s : State S σ} {st : Story S}
    (h : Follows P r s st) (n : Nat) :
    Follows P r (chronicle P r.depth n (s, st)).1 (chronicle P r.depth n (s, st)).2 := by
  induction n generalizing s st with
  | zero => exact h
  | succ n ih => exact ih h.next

/-! ## A small host -/

/-- What the registrations of a small host do with their callback. -/
inductive Errand where
  /-- Keep it. -/
  | keep
  /-- Complete it with nothing. -/
  | answer
  /-- Complete it with its text. -/
  | describe

namespace Errand

/-- The names of a host that has nothing but errands and the terminal of a run. -/
def closures : Closures where
  Thunk := Empty
  Delay := Empty
  Registration := Errand
  Body := Empty
  Bind := Errand
  Map := Empty
  Handler := Empty
  Rescue := Empty
  Modify := Empty
  Restore := Empty
  Token := Empty
  Terminal := Unit
  Task := Empty
  Executor := Empty

/-- The code of that host.  An errand after a value is an errand of its own. -/
def program : Program closures Unit where
  thunk := nofun
  delay := nofun
  registration errand _ cb :=
    match errand with
    | keep => .done ()
    | answer => .perform (.complete cb (.ok .null))
    | describe => .perform (.complete cb (.ok (.text cb.describe)))
  body := nofun
  bind errand _ := .done (.async errand)
  map := nofun
  handler := nofun
  rescue := nofun
  modify := nofun
  restore := nofun
  token := nofun
  terminal _ _ := .done ()
  task := nofun
  executor := nofun
  observe _ host := host

/-- A run of an effect, with the code that has started it below. -/
def origin (e : Effect closures) : Origin closures where
  effect := e
  connection := .uncancelable
  stack := .empty
  terminal := .user ()
  depth := 1

/-- So many steps of a run on that host, with their story. -/
def play (e : Effect closures) (n : Nat) : State closures Unit × Story closures :=
  chronicle program 1 n
    (.running (.initial () "main") (origin e).activation [.code (.done ())], .beginning)

/-- These are steps of a run. -/
theorem follows_play (e : Effect closures) (n : Nat) :
    Follows program (origin e) (play e n).1 (play e n).2 :=
  Follows.chronicle (.start (.next (.start () "main"
    (.perform (.run e .uncancelable (.user ()))))) rfl) n

end Errand

end Trampoline
