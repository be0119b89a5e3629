import Trampoline.Proofs.Partial.Prelude
import Trampoline.Proofs.Partial.Synchronous
import Trampoline.Proofs.Run.Regular
import Trampoline.Proofs.Run.Answers

/-!
# A partial evaluation is tracked

A partial evaluation does what a run does, as long as no connection is needed: its turns are
those of a loop on any connection, without the looks, and the code that it has started works
on the questions that the evaluator asks.  It stops in front of the first node that needs a
live run.  So what it has asked, and then what it has left, is the beginning of an evaluation
on an open connection, whichever that may be.

Main definitions and results:

- Definition `Activation.live`: an activation as if a run did the work.
- Definition `Previews`: the invariant of a partial evaluation.
- Theorem `Previews.next`: a step of the machine preserves it.
- Theorem `Unfolds.previews`: it holds whenever a partial evaluation is followed.
- Definition `PartialProgress`, theorem `Unfolds.partialProgress`: the evaluation that it begins.
- Theorems `Unfolds.yields`, `Unfolds.hands_back`: where the answers come from, and where
  what is left goes.
-/

namespace Trampoline

variable {S : Closures} {σ : Type}

/-! ## The work of a run in place of a partial evaluation -/

/-- A loop on a connection with these frames.  Where it would deliver does not matter. -/
def Loop.passing (c : Connection) (stack : CallStack (Frame S)) : Loop S :=
  ⟨c, stack, .bridge 0⟩

/-- The driver as if a run on a connection did the work of a partial evaluation. -/
def Driver.live (c : Connection) : Driver S σ → Driver S σ
  | .loop run => .loop run
  | .partially stack _ => .loop (.passing c stack)

/-- What waits for code, as if a run on a connection did the work of a partial evaluation. -/
def Holder.live (c : Connection) {α : Type} : Holder S σ α → Holder S σ α
  | .node d => .node (d.live c)
  | .outcome d => .outcome (d.live c)
  | .switch run source restore => .switch run source restore
  | .owing cb => .owing cb
  | .code => .code

namespace Activation

/-- The activation as if a run on a connection did the work of a partial evaluation. -/
def live (c : Connection) : Activation S σ → Activation S σ
  | .eval d n => .eval (d.live c) n
  | .value d v => .value (d.live c) v
  | .node d piece => .node (d.live c) piece
  | .outcome d piece => .outcome (d.live c) piece
  | a => a

theorem live_wrap (c : Connection) {α : Type} (h : Holder S σ α) (code : Code S σ α) :
    (h.wrap code).live c = (h.live c).wrap code := by
  cases h <;> rfl

/-- Code that works for a partial evaluation on the answer to a question, as it would for a
run on a connection. -/
def Works (P : Program S σ) (c : Connection)
    (resume : Except Payload (Effect S) → Activation S σ) (run : Loop S) (q : Question S)
    (next : q.Answer → Course S) (a : Activation S σ) : Prop :=
  a.behind? = some resume ∧ (a.live c).Serves P run q next

theorem stable_works (P : Program S σ) (c : Connection)
    (resume : Except Payload (Effect S) → Activation S σ) (run : Loop S) (q : Question S)
    (next : q.Answer → Course S) : Stable (Works P c resume run q next) := by
  intro α h code code' hl hw
  refine ⟨(behind?_wrap h code' code).trans hw.1, ?_⟩
  have hserves := hw.2
  rw [live_wrap] at hserves ⊢
  exact stable_serves P run q next (h.live c) code code' hl hserves

end Activation

/-- The code that works for a partial evaluation is heeded as in a run. -/
theorem Story.unfold_eq_turn (st : Story S) (w : World S σ) {c : Connection} {P : Program S σ}
    {resume : Except Payload (Effect S) → Activation S σ} {run : Loop S} {q : Question S}
    {next : q.Answer → Course S} {a : Activation S σ} (h : a.Works P c resume run q next) :
    st.unfold w a = st.turn w (a.live c) := by
  obtain ⟨hbehind, hserves⟩ := h
  cases a with
  | node d code =>
      cases d with
      | loop run => cases hbehind
      | partially stack resume' => rfl
  | outcome d code =>
      cases d with
      | loop run => cases hbehind
      | partially stack resume' => rfl
  | eval d n => exact hserves.elim
  | value d v => exact hserves.elim
  | _ => cases hbehind

/-! ## The invariant -/

/-- What is left to evaluate on a connection, where a partial evaluation leaves the residue: its
outcome, or the first node that needs a live run, and the frames that wait for it. -/
inductive Residue.Leaves (c : Connection) : Residue S → Course S → Prop
  | outcome (o : Outcome) : Leaves c (.outcome o) (.exit c o)
  | node (stack : CallStack (Frame S)) {node : Effect S} (needs : node.NeedsRun) :
      Leaves c (.ofNode stack node) ((Course.eval c node).within stack.toList)

/-- How far a partial evaluation has come with an evaluation on connection `c` that needs no
live run. -/
inductive Previews (P : Program S σ) (p : Opening S σ) (c : Connection) :
    State S σ → Prelude S → Prop
  /-- It has the turn. -/
  | turn {w : World S σ} {act : Activation S σ} {below : List (Activation S σ)} {st : Story S}
      {run : Loop S} {m : Course S} (stands : Stands (act.live c) run m)
      (behind : act.behind? = some p.resume) (depth : below.length = p.depth)
      (comes : Synchronous (.eval c p.effect) st.exchanges (m.within run.stack.toList))
      (pending : st.pending = none) : Previews P p c (.running w act below) ⟨st, none⟩
  /-- Code of the host works on a question. -/
  | calling {s : State S σ} {below : List (Activation S σ)} {st : Story S} {run : Loop S}
      {q : Question S} {next : q.Answer → Course S}
      (keeps : Keeps (Activation.Works P c p.resume run q next) below s)
      (depth : below.length = p.depth)
      (comes : Synchronous (.eval c p.effect) st.exchanges
        ((Course.ask q next).within run.stack.toList))
      (pending : st.pending = some q) : Previews P p c s ⟨st, none⟩
  /-- It has left something to evaluate. -/
  | ended {s : State S σ} {st : Story S} {r : Residue S} {n : Course S} (leaves : r.Leaves c n)
      (comes : Synchronous (.eval c p.effect) st.exchanges n) (pending : st.pending = none) :
      Previews P p c s ⟨st, some (.ok r)⟩
  /-- A panic has ended it. -/
  | failed {s : State S σ} {st : Story S} (payload : Payload) :
      Previews P p c s ⟨st, some (.error payload)⟩

/-- How far a partial evaluation has come with an evaluation on connection `c`, which is open. -/
inductive PartialProgress (P : Program S σ) (p : Opening S σ) (c : Connection) :
    State S σ → Prelude S → Prop
  /-- It has the turn. -/
  | turn {w : World S σ} {act : Activation S σ} {below : List (Activation S σ)} {st : Story S}
      {run : Loop S} {m : Course S} (stands : Stands (act.live c) run m)
      (behind : act.behind? = some p.resume) (depth : below.length = p.depth)
      (comes : Unhindered (.eval c p.effect) (spoken st.exchanges) (m.within run.stack.toList))
      (pending : st.pending = none) : PartialProgress P p c (.running w act below) ⟨st, none⟩
  /-- Code of the host works on a question. -/
  | calling {s : State S σ} {below : List (Activation S σ)} {st : Story S} {run : Loop S}
      {q : Question S} {next : q.Answer → Course S}
      (keeps : Keeps (Activation.Works P c p.resume run q next) below s)
      (depth : below.length = p.depth)
      (comes : Unhindered (.eval c p.effect) (spoken st.exchanges)
        ((Course.ask q next).within run.stack.toList))
      (pending : st.pending = some q) : PartialProgress P p c s ⟨st, none⟩
  /-- It has left something to evaluate. -/
  | ended {s : State S σ} {st : Story S} (r : Residue S)
      (comes : Unhindered (.eval c p.effect) (spoken st.exchanges) (r.course c)) :
      PartialProgress P p c s ⟨st, some (.ok r)⟩
  /-- A panic has ended it. -/
  | failed {s : State S σ} {st : Story S} (payload : Payload) :
      PartialProgress P p c s ⟨st, some (.error payload)⟩

namespace PartialProgress

variable {P : Program S σ} {p : Opening S σ} {c : Connection} {w : World S σ} {st : Story S}
  {below : List (Activation S σ)} {stack : CallStack (Frame S)}

/-- The question on which code works is no look at a connection. -/
theorem not_look {xs : List (Exchange S)} {frames : List (Frame S)} {run : Loop S}
    {q : Question S} {next : q.Answer → Course S} {act : Activation S σ}
    (comes : Unhindered (.eval c p.effect) xs ((Course.ask q next).within frames))
    (hs : act.Serves P run q next) : ∀ d, q ≠ .canceled d := by
  obtain ⟨zs, hproceeds, -⟩ := comes
  have hregular : (Course.ask q next).Regular :=
    (Course.regular_within frames).mp (hproceeds.regular trivial)
  obtain ⟨c', hgoes⟩ := hregular
  obtain ⟨α, h, code, -, hserves⟩ := hs.wrap
  exact (hgoes.of_fails hserves.fails).2

/-! ## Whose turn it is -/

/-- An activation in which a partial evaluation does its work takes the turn. -/
theorem takesTurn {act : Activation S σ} (behind : act.behind? = some p.resume)
    (depth : below.length = p.depth) :
    (⟨st, none⟩ : Prelude S).takesTurn p.depth p.layers act below = true := by
  have hlayers : act.layers = p.layers := Activation.layers_of_behind? behind
  simp [Prelude.takesTurn, depth, hlayers]

/-- Another partial evaluation in front does not. -/
theorem takesTurn_hidden {top : Activation S σ} {rest : List (Activation S σ)} {run : Loop S}
    {q : Question S} {next : q.Answer → Course S} {n : Nat}
    (hides : top.Hides (Activation.Works P c p.resume run q next) (n + 1)) :
    (⟨st, none⟩ : Prelude S).takesTurn p.depth p.layers top rest = false := by
  have hlayers := hides.layers fun a ha => Activation.layers_of_behind? ha.1
  simp [Prelude.takesTurn, hlayers, Opening.layers, Opening.activation, Activation.layers]

end PartialProgress

/-! ## Every step -/

namespace Previews

variable {P : Program S σ} {p : Opening S σ} {c : Connection} {w : World S σ} {st : Story S}
  {below : List (Activation S σ)} {stack : CallStack (Frame S)}

/-- Code of the host that has just been started works on its question. -/
theorem asks {act : Activation S σ} {q : Question S} {next : q.Answer → Course S}
    (serves : (act.live c).Serves P (.passing c stack) q next)
    (behind : act.behind? = some p.resume) (depth : below.length = p.depth)
    (comes : Synchronous (.eval c p.effect) st.exchanges
      ((Course.ask q next).within stack.toList)) :
    Previews P p c (.running w act below) ⟨st.ask (some q), none⟩ :=
  have hworks : act.Works P c p.resume (.passing c stack) q next := ⟨behind, serves⟩
  .calling (State.keeps_running (n := 0) hworks) depth comes rfl

/-- A frame that has been given an exit goes on as the evaluator does. -/
theorem resolves {code : Code S σ (Effect S)} {q : Option (Question S)} {m : Course S}
    (h : Resolves P (.passing c stack) code q m) (depth : below.length = p.depth)
    (comes : Synchronous (.eval c p.effect) st.exchanges (m.within stack.toList)) :
    Previews P p c (.running w (.node (.partially stack p.resume) code) below)
      ⟨st.ask q, none⟩ := by
  cases h with
  | done e => exact .turn (.node (.passing c stack) e) rfl depth comes rfl
  | asks h => exact asks h rfl depth comes

/-- An exit goes where the evaluator takes it, or it is what is left. -/
theorem passes (depth : below.length = p.depth) {o : Outcome} (hnone : st.pending = none)
    (comes : Synchronous (.eval c p.effect) st.exchanges
      ((Course.exit c o).within stack.toList)) :
    Previews P p c (State.pass P w stack p.resume o below)
      ⟨st.pass stack o, (Residue.ofExit? stack o).map .ok⟩ := by
  unfold State.pass Story.pass Residue.ofExit?
  cases htake : stack.takeFor o with
  | mk frame stack' =>
      cases frame with
      | none =>
          exact .ended (.outcome o) (comes.onward (.of_proceeds (.uncaught (c := c) htake))) hnone
      | some frame =>
          exact resolves (Frame.resolves P (.passing c stack') (CallStack.takes_of_takeFor htake))
            depth (comes.onward (.of_proceeds (.caught (c := c) htake)))

/-- A partial evaluation in front of a node goes on, or leaves the node if it needs a run. -/
theorem reduce (depth : below.length = p.depth) (node : Effect S) (hnone : st.pending = none)
    (comes : Synchronous (.eval c p.effect) st.exchanges
      ((Course.eval c node).within stack.toList)) :
    Previews P p c (State.reduce P w (.partially stack p.resume) node below)
      ⟨st.unfold w (.eval (.partially stack p.resume) node),
        (Residue.ofEval? stack node).map .ok⟩ := by
  have hmove : ¬node.NeedsRun → Synchronous (.eval c p.effect) st.exchanges
      ((node.move c).within stack.toList) :=
    fun hnode => comes.onward (.meets hnode (.refl _))
  cases node with
  | pure v => exact .turn (.value (.passing c stack) v) rfl depth (hmove id) hnone
  | fail e =>
      rw [State.reduce_fail_eq_pass]
      exact passes depth hnone (hmove id)
  | suspend k =>
      have h : Resolves P (.passing c stack) (P.thunk k) (some (.thunk k))
          (.ask (.thunk k) (.node c)) :=
        .node P _ _ id (fun r => by cases r <;> rfl) fun r hr => hr
      exact resolves h depth (hmove id)
  | delay k =>
      have hserves : (Activation.outcome (.loop (.passing c stack)) (P.delay k)).Serves P
          (.passing c stack) (.delay k) (Course.result c) := by
        refine ⟨rfl, id, (P.delay k).returns_canReturn.mono fun o ho => ⟨?_, .ok o, ho, rfl⟩,
          fun e => rfl, fun payload => ⟨.error _, ⟨payload, rfl⟩, rfl⟩⟩
        cases o <;> rfl
      exact asks hserves rfl depth (hmove id)
  | bind source frame =>
      refine .turn (.eval (.passing c (stack.push frame)) source) rfl depth ?_ hnone
      simp only [Loop.passing, CallStack.toList_push]
      exact hmove id
  | map source f =>
      refine .turn (.eval (.passing c (stack.push (.map f))) source) rfl depth ?_ hnone
      simp only [Loop.passing, CallStack.toList_push]
      exact hmove id
  | continueOn context source =>
      exact .turn (.eval (.passing c stack) _) rfl depth (hmove id) hnone
  | async k => exact .ended (.node stack trivial) comes hnone
  | parked inner stack' => exact .ended (.node stack trivial) comes hnone
  | deferred context b => exact .ended (.node stack trivial) comes hnone
  | switchConnection source modify restore => exact .ended (.node stack trivial) comes hnone

/-- A turn of a partial evaluation. -/
theorem takes_turn {act : Activation S σ} {run : Loop S} {m : Course S}
    (stands : Stands (act.live c) run m) (behind : act.behind? = some p.resume)
    (depth : below.length = p.depth)
    (comes : Synchronous (.eval c p.effect) st.exchanges (m.within run.stack.toList))
    (hnone : st.pending = none) :
    Previews P p c (State.work P w below act) ⟨st.unfold w act, act.residue? w⟩ := by
  cases act with
  | eval d n =>
      cases d with
      | loop run' => cases behind
      | partially stack resume =>
          cases behind
          cases stands
          exact reduce depth n hnone comes
  | value d v =>
      cases d with
      | loop run' => cases behind
      | partially stack resume =>
          cases behind
          cases stands
          simp only [State.work, State.value_eq_pass]
          exact passes depth hnone comes
  | node d code =>
      cases d with
      | loop run' => cases behind
      | partially stack resume =>
          cases behind
          cases stands with
          | node _ e =>
              have hsame : st.unfold w (.node (.partially stack p.resume) (.done e)) = st := by
                simp [Story.unfold, Story.heed, Story.answer, hnone]
              rw [hsame]
              exact .turn (.eval _ e) rfl depth comes hnone
  | outcome d code => cases stands
  | _ => cases behind

/-- After the answer to a question, the partial evaluation goes on with it. -/
theorem answered {α : Type} {h : Holder S σ α} {code : Code S σ α} {run : Loop S}
    (behind : (h.wrap code).behind? = some p.resume) (hloop : (h.live c).loop? = some run) (a : α)
    (depth : below.length = p.depth)
    (comes : Synchronous (.eval c p.effect) st.exchanges
      (((h.live c).course run a).within run.stack.toList))
    (hnone : st.pending = none) : Previews P p c (h.finish w below a) ⟨st, none⟩ := by
  cases h with
  | node d =>
      cases d with
      | loop run' => cases behind
      | partially stack resume =>
          cases behind
          cases hloop
          exact .turn (.eval _ a) rfl depth comes hnone
  | outcome d =>
      cases d with
      | loop run' => cases behind
      | partially stack resume =>
          cases behind
          cases hloop
          cases a with
          | ok v => exact .turn (.value _ v) rfl depth comes hnone
          | error e => exact .turn (.eval _ (.fail e)) rfl depth comes hnone
  | _ => cases behind

/-- A panic of code that works for a partial evaluation is met as a failure, or ends it. -/
theorem panicked {α : Type} {h : Holder S σ α} {payload : Payload} {run : Loop S}
    (behind : (h.wrap (.panic payload)).behind? = some p.resume)
    (hloop : (h.live c).loop? = some run) (depth : below.length = p.depth)
    (comes : w.classifier payload = true → Synchronous (.eval c p.effect) st.exchanges
      ((Course.eval run.connection (.fail (.panicked payload.describe))).within run.stack.toList))
    (hnone : w.classifier payload = true → st.pending = none) :
    Previews P p c (h.escape P w below payload) ⟨st, (h.wrap (.panic payload)).residue? w⟩ := by
  have hcontained : ∀ stack, run = .passing c stack →
      Previews P p c (State.panicIn P w (.partially stack p.resume) payload below)
        ⟨st, if w.classifier payload then none else some (.error payload)⟩ := by
    rintro stack rfl
    simp only [State.panicIn]
    cases hc : w.classifier payload with
    | true => exact .turn (.eval (.passing c stack) _) rfl depth (comes hc) (hnone hc)
    | false => exact .failed payload
  cases h with
  | node d =>
      cases d with
      | loop run' => cases behind
      | partially stack resume =>
          cases behind
          cases hloop
          exact hcontained stack rfl
  | outcome d =>
      cases d with
      | loop run' => cases behind
      | partially stack resume =>
          cases behind
          cases hloop
          exact hcontained stack rfl
  | _ => cases behind

/-- A step of the code that works on a question: with its end it answers the question. -/
theorem works_turn {act : Activation S σ} {run : Loop S} {q : Question S}
    {next : q.Answer → Course S} (hw : act.Works P c p.resume run q next)
    (depth : below.length = p.depth)
    (comes : Synchronous (.eval c p.effect) st.exchanges
      ((Course.ask q next).within run.stack.toList))
    (pending : st.pending = some q) :
    Previews P p c (State.work P w below act) ⟨st.unfold w act, act.residue? w⟩ := by
  rw [Story.unfold_eq_turn st w hw]
  have hlook := PartialProgress.not_look comes.unhindered hw.2
  have hwork := hw
  obtain ⟨behind, hserves⟩ := hw
  obtain ⟨α, h, code, rfl⟩ : ∃ (α : Type) (h : Holder S σ α) (code : Code S σ α),
      act = h.wrap code := by
    cases act with
    | node d code => exact ⟨_, .node d, code, rfl⟩
    | outcome d code => exact ⟨_, .outcome d, code, rfl⟩
    | eval d n => exact hserves.elim
    | value d v => exact hserves.elim
    | _ => cases behind
  rw [Activation.live_wrap, Activation.serves_wrap] at hserves
  obtain ⟨hloop, -, hreturns, hfails, -⟩ := hserves
  rw [Activation.live_wrap, Story.turn_wrap st w hloop]
  have hanswered : ∀ reply, (st.answer reply).pending = none ∧
      Synchronous (.eval c p.effect) (st.answer reply).exchanges
        ((next (q.read reply)).within run.stack.toList) := by
    intro reply
    simp only [Story.answer, pending]
    exact ⟨trivial, comes.trans (.answered hlook (.refl _))⟩
  by_cases hdone : ∃ a, code = .done a
  · obtain ⟨a, rfl⟩ := hdone
    have hcourse : next (q.read ((h.live c).reply (.ok a))) = (h.live c).course run a := hreturns.1
    obtain ⟨hnone, hcomes⟩ := hanswered ((h.live c).reply (.ok a))
    rw [State.work_wrap, Activation.residue?_wrap w h (by simp)]
    rw [hcourse] at hcomes
    exact answered behind hloop a depth hcomes hnone
  · by_cases hpanic : ∃ payload, code = .panic payload
    · obtain ⟨payload, rfl⟩ := hpanic
      obtain ⟨hnone, hcomes⟩ := hanswered ((h.live c).reply (.error (.panicked payload.describe)))
      rw [hfails] at hcomes
      rw [State.work_wrap]
      refine panicked behind hloop depth (fun hc => ?_) fun hc => ?_
      · simpa only [Story.heed, hc, if_true] using hcomes
      · simpa only [Story.heed, hc, if_true] using hnone
    · have hcalm : ∀ payload, code ≠ .panic payload := fun payload hp => hpanic ⟨payload, hp⟩
      rw [st.heed_of_goes_on w (fun a ha => hdone ⟨a, ha⟩) hcalm,
        Activation.residue?_wrap w h hcalm]
      exact .calling (State.keeps_work_wrap (n := 0) P (Activation.stable_works P c _ run q next)
        hwork (fun a ha => hdone ⟨a, ha⟩) hcalm) depth comes pending

/-- A step while code of the host works on a question. -/
theorem next_calling {top : Activation S σ} {rest : List (Activation S σ)} {run : Loop S}
    {q : Question S} {next : q.Answer → Course S} (hbounded : (State.running w top rest).Bounded)
    (keeps : Keeps (Activation.Works P c p.resume run q next) below (.running w top rest))
    (depth : below.length = p.depth)
    (comes : Synchronous (.eval c p.effect) st.exchanges
      ((Course.ask q next).within run.stack.toList))
    (pending : st.pending = some q) :
    Previews P p c (State.work P w rest top)
      ((⟨st, none⟩ : Prelude S).next p.depth p.layers (.running w top rest)) := by
  have hstable : Activation.Stable (Activation.Works P c p.resume run q next) :=
    Activation.stable_works P c p.resume run q next
  rcases keeps.cases with ⟨rfl, hworks | ⟨n, hides⟩⟩ | ⟨above, a, n, rfl, hides, hwaits⟩
  · simp only [Prelude.next, PartialProgress.takesTurn hworks.1 depth, if_true]
    exact works_turn hworks depth comes pending
  · simp only [Prelude.next, PartialProgress.takesTurn_hidden hides, Bool.false_eq_true, if_false]
    exact .calling (State.keeps_work_partially P hstable hides) depth comes pending
  · simp only [Prelude.next, Prelude.takesTurn_above depth, Bool.false_eq_true, if_false]
    have hq : Quiet w.bridges.size w (above ++ a :: below)
        (State.work P w (above ++ a :: below) top) :=
      State.quiet_work P (hbounded w.bridges.size (Nat.le_refl _) top (by simp)) fun cb _ _ =>
        World.not_wins_of_size_le (Nat.le_refl _) cb
    exact .calling (hq.keeps hstable hides hwaits) depth comes pending

/-- A step of the machine preserves the invariant. -/
theorem next {s : State S σ} {u : Prelude S} (h : Previews P p c s u) (hbounded : s.Bounded) :
    Previews P p c (s.next P) (u.next p.depth p.layers s) := by
  cases h with
  | turn stands behind depth comes pending =>
      simp only [State.next, Prelude.next, PartialProgress.takesTurn behind depth, if_true]
      exact takes_turn stands behind depth comes pending
  | calling keeps depth comes pending =>
      cases s with
      | returned w => exact absurd rfl keeps.activations_ne_nil
      | unwound w payload => exact absurd rfl keeps.activations_ne_nil
      | running w top rest => exact next_calling hbounded keeps depth comes pending
  | ended leaves comes pending =>
      rw [Prelude.next_of_residue]
      exact .ended leaves comes pending
  | failed payload =>
      rw [Prelude.next_of_residue]
      exact .failed payload

end Previews

section

variable {P : Program S σ} {p : Opening S σ} {s : State S σ} {u : Prelude S}

/-- The invariant holds whenever a partial evaluation is followed. -/
theorem Unfolds.previews (h : Unfolds P p s u) (c : Connection) : Previews P p c s u := by
  induction h with
  | start h depth => exact .turn (.eval (.passing c .empty) p.effect) rfl depth (.refl _) rfl
  | next h ih => exact ih.next h.reachable.bounded
  | again h hs code ih =>
      cases ih with
      | turn stands behind depth comes pending => cases hs
      | calling keeps depth comes pending => exact absurd hs keeps.activations_ne_nil
      | ended leaves comes pending => exact .ended leaves comes pending
      | failed payload => exact .failed payload

/-- What is left is what is left to evaluate. -/
theorem Residue.Leaves.course_eq {c : Connection} {r : Residue S} {n : Course S}
    (h : r.Leaves c n) : r.course c = n := by
  cases h with
  | outcome o => rfl
  | node stack needs => exact Residue.course_ofNode c stack _

/-- A partial evaluation comes as far as an evaluation on a connection that is open, whichever
that may be. -/
theorem Unfolds.partialProgress (h : Unfolds P p s u) (c : Connection) :
    PartialProgress P p c s u := by
  cases h.previews c with
  | turn stands behind depth comes pending =>
      exact .turn stands behind depth comes.unhindered pending
  | calling keeps depth comes pending => exact .calling keeps depth comes.unhindered pending
  | ended leaves comes pending => exact .ended _ (leaves.course_eq ▸ comes.unhindered)
  | failed payload => exact .failed payload

/-! ## Answers, and what is left -/

/-- A partial evaluation in its turn has nothing to add to the exchanges. -/
theorem Story.unfold_exchanges_of_stands {st : Story S} {act : Activation S σ} {c : Connection}
    {run : Loop S} {m : Course S} (stands : Stands (act.live c) run m)
    {resume : Except Payload (Effect S) → Activation S σ} (behind : act.behind? = some resume)
    (hnone : st.pending = none) (w : World S σ) : (st.unfold w act).exchanges = st.exchanges := by
  have hpass : ∀ stack o, (st.pass stack o).exchanges = st.exchanges := by
    intro stack o
    unfold Story.pass
    split <;> rfl
  cases act with
  | eval d n =>
      cases d with
      | loop run' => cases behind
      | partially stack resume =>
          cases n with
          | fail e => exact hpass stack _
          | _ => rfl
  | value d v =>
      cases d with
      | loop run' => cases behind
      | partially stack resume => exact hpass stack _
  | node d code =>
      cases d with
      | loop run' => cases behind
      | partially stack resume =>
          cases stands
          simp [Story.unfold, Story.heed, Story.answer, hnone]
  | outcome d code => cases stands
  | _ => cases behind

/-- A step adds one exchange at most. -/
theorem PartialProgress.gains {c : Connection} (h : PartialProgress P p c s u) :
    Gains P u.story (u.next p.depth p.layers s).story := by
  cases h with
  | @turn w act below st run m stands behind depth comes pending =>
      simp only [Prelude.next, takesTurn behind depth, if_true]
      exact .inl (Story.unfold_exchanges_of_stands stands behind pending w)
  | @calling _ below st run q next keeps depth comes pending =>
      cases s with
      | returned w => exact .inl rfl
      | unwound w payload => exact .inl rfl
      | running w top rest =>
          rcases keeps.cases with ⟨rfl, hworks | ⟨n, hides⟩⟩ | ⟨above, a, n, rfl, -, -⟩
          · simp only [Prelude.next, takesTurn hworks.1 depth, if_true,
              st.unfold_eq_turn w hworks]
            exact hworks.2.gains pending w
          · simp only [Prelude.next, takesTurn_hidden hides, Bool.false_eq_true, if_false]
            exact .inl rfl
          · simp only [Prelude.next, Prelude.takesTurn_above depth, Bool.false_eq_true, if_false]
            exact .inl rfl
  | ended r comes =>
      rw [Prelude.next_of_residue]
      exact .inl rfl
  | failed payload =>
      rw [Prelude.next_of_residue]
      exact .inl rfl

/-- All answers that a partial evaluation is given come from the code of its questions. -/
theorem Unfolds.yields (h : Unfolds P p s u) :
    ∀ x ∈ u.story.exchanges, x.question.Yields P x.answer := by
  induction h with
  | start h depth => simp [Prelude.beginning, Story.beginning]
  | again h hs code ih => exact ih
  | next h ih => exact (h.partialProgress .uncancelable).gains.yields ih

/-- The code that has asked for a partial evaluation goes on with what is left. -/
theorem Unfolds.hands_back (h : Unfolds P p s u) (hnone : u.residue = none)
    {r : Except Payload (Residue S)} (hr : (u.next p.depth p.layers s).residue = some r) :
    ∃ w rest, rest.length = p.depth ∧
      s.next P = .running w (p.resume (r.map Residue.effect)) rest := by
  have hprogress := h.partialProgress .uncancelable
  cases hprogress with
  | @turn w act below st run m stands behind depth comes pending =>
      simp only [Prelude.next, PartialProgress.takesTurn behind depth, if_true] at hr
      exact ⟨w, below, depth, State.work_of_residue? P behind hr below⟩
  | @calling _ below st run q next keeps depth comes pending =>
      cases s with
      | returned w => cases hr
      | unwound w payload => cases hr
      | running w top rest =>
          by_cases hturn : (⟨st, none⟩ : Prelude S).takesTurn p.depth p.layers top rest = true
          · rcases keeps.cases with ⟨rfl, hworks | ⟨n, hides⟩⟩ | ⟨above, a, n, rfl, -, -⟩
            · simp only [Prelude.next, hturn, if_true] at hr
              exact ⟨w, rest, depth, State.work_of_residue? P hworks.1 hr rest⟩
            · rw [PartialProgress.takesTurn_hidden hides] at hturn
              cases hturn
            · rw [Prelude.takesTurn_above depth] at hturn
              cases hturn
          · simp only [Prelude.next, hturn, Bool.false_eq_true, if_false] at hr
            cases hr
  | ended r comes => cases hnone
  | failed payload => cases hnone

end

end Trampoline
