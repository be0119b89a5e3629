import Trampoline.Proofs.Machine.Containment
import Trampoline.Proofs.Run.Agreement
import Trampoline.Proofs.Run.Regular
import Trampoline.Proofs.Run.Unwinding

/-!
# Panics as failures

A panic that a run survives is a failure like any other.  A second machine says what that
means: where guarded code has panicked, it puts code there that comes back with the failure
of the panic, and takes the step of that.  A closure that yields a node yields the failure,
a delayed outcome is the failure, the choice of a connection becomes the failure as a node
under the connection that was active, and a registration or a body completes its own
callback.  Both machines do the same, whatever is asked of them.

The evaluator says it without a machine: wherever a closure is called, a failure for an
answer puts the failure, as a node, in front of the frames that wait for the closure, under
the connection under which it was called.

Main definitions and results:

- Definitions `State.nextInstead`, `Story.nextInstead`, `chronicleInstead`: the second machine.
- Theorem `chronicleInstead_eq`: it does what the machine does.
- Definition `AsFailures`, theorem `Follows.asFailures`: panics in the evaluator.
- Definition `Contained`, theorem `Call.survives_panics`: panics in a call from outside.
-/

namespace Trampoline

variable {S : Closures} {σ : Type}

/-! ## Failures instead of panics -/

namespace Activation

/-- The payload with which guarded code has panicked, if a run survives it. -/
def survived? (w : World S σ) : Activation S σ → Option Payload
  | .node _ (.panic payload) | .outcome _ (.panic payload) | .switch _ _ _ (.panic payload)
  | .owing _ (.panic payload) => if w.classifier payload then some payload else none
  | _ => none

/-- The activation with code that comes back with a failure. -/
def producing (e : Failure) : Activation S σ → Activation S σ
  | .node d _ => .node d (.done (.fail e))
  | .outcome d _ => .outcome d (.done (.error e))
  | .switch run _ _ _ => .node (.loop run) (.done (.fail e))
  | .owing cb _ => .owing cb (.command (.complete cb (.error e)) .done)
  | a => a

end Activation

/-- A step of the machine in which code that has panicked comes back with the failure of the
panic instead.  A completion is the last thing that a registration or a body does. -/
def State.nextInstead (P : Program S σ) : State S σ → State S σ
  | .running w top rest =>
    match top.survived? w with
    | some payload =>
      let w := w.report P (.panicContained payload.describe)
      let e : Failure := .panicked payload.describe
      match top with
      | .owing cb _ => .begin P w (.complete cb (.error e)) rest
      | a => .work P w rest (a.producing e)
    | none => .work P w rest top
  | s => s

/-- What such a step adds to the story of a run. -/
def Story.nextInstead (st : Story S) (depth : Nat) : State S σ → Story S
  | .running w top rest =>
    match top.survived? w with
    | some payload => st.next depth (.running w (top.producing (.panicked payload.describe)) rest)
    | none => st.next depth (.running w top rest)
  | s => st.next depth s

/-- So many such steps with their story. -/
def chronicleInstead (P : Program S σ) (depth : Nat) :
    Nat → State S σ × Story S → State S σ × Story S
  | 0, p => p
  | n + 1, (s, st) => chronicleInstead P depth n (s.nextInstead P, st.nextInstead depth s)

/-- A panic that a run survives is the failure that the code could have come back with. -/
theorem State.nextInstead_eq (P : Program S σ) (s : State S σ) : s.nextInstead P = s.next P := by
  cases s with
  | returned w => rfl
  | unwound w payload => rfl
  | running w top rest =>
      cases hs : top.survived? w with
      | none => simp only [nextInstead, hs, next]
      | some payload =>
          simp only [nextInstead, hs, next]
          cases top with
          | node d code =>
              cases code <;> simp only [Activation.survived?, reduceCtorEq] at hs
              simp only [Option.ite_none_right_eq_some, Option.some.injEq] at hs
              obtain ⟨hc, rfl⟩ := hs
              cases d <;> simp [Activation.producing, work, advance, panicIn, contain, hc]
          | outcome d code =>
              cases code <;> simp only [Activation.survived?, reduceCtorEq] at hs
              simp only [Option.ite_none_right_eq_some, Option.some.injEq] at hs
              obtain ⟨hc, rfl⟩ := hs
              cases d <;> simp [Activation.producing, work, advance, panicIn, contain, hc]
          | switch run source restore code =>
              cases code <;> simp only [Activation.survived?, reduceCtorEq] at hs
              simp only [Option.ite_none_right_eq_some, Option.some.injEq] at hs
              obtain ⟨hc, rfl⟩ := hs
              simp [Activation.producing, work, advance, panicIn, contain, hc]
          | owing cb code =>
              cases code <;> simp only [Activation.survived?, reduceCtorEq] at hs
              simp only [Option.ite_none_right_eq_some, Option.some.injEq] at hs
              obtain ⟨hc, rfl⟩ := hs
              simp [work, advance, contain, hc, begin]
          | _ => cases hs

/-! ## The stories -/

/-- Two stories of which only the answers may differ. -/
structure Story.Alike (st st' : Story S) : Prop where
  bridge : st.bridge = st'.bridge
  questions : st.exchanges.map Exchange.question = st'.exchanges.map Exchange.question
  pending : st.pending = st'.pending
  parks : st.parks = st'.parks
  resumptions : st.resumptions = st'.resumptions
  outcomes : st.outcomes = st'.outcomes
  lost : st.lost = st'.lost

namespace Story.Alike

variable {st st' st'' : Story S}

theorem refl (st : Story S) : st.Alike st :=
  ⟨rfl, rfl, rfl, rfl, rfl, rfl, rfl⟩

theorem trans (h : st.Alike st') (h' : st'.Alike st'') : st.Alike st'' :=
  ⟨h.bridge.trans h'.bridge, h.questions.trans h'.questions, h.pending.trans h'.pending,
    h.parks.trans h'.parks, h.resumptions.trans h'.resumptions, h.outcomes.trans h'.outcomes,
    h.lost.trans h'.lost⟩

/-- Stories stay alike whatever a question is answered with. -/
theorem answer (h : st.Alike st') (reply reply' : Reply S) :
    (st.answer reply).Alike (st'.answer reply') := by
  unfold Story.answer
  rw [h.pending]
  cases hq : st'.pending with
  | none => exact h
  | some q => exact { h with questions := by simp [h.questions], pending := rfl }

theorem look (h : st.Alike st') (c : Connection) (canceled : Bool) :
    (st.look c canceled).Alike (st'.look c canceled) :=
  { h with questions := by simp [Story.look, h.questions] }

theorem ask (h : st.Alike st') (q : Option (Question S)) : (st.ask q).Alike (st'.ask q) :=
  { h with pending := rfl }

theorem deliver (h : st.Alike st') (o : Outcome) : (st.deliver o).Alike (st'.deliver o) :=
  { h with outcomes := by simp [Story.deliver, h.outcomes] }

theorem park (h : st.Alike st') (w : World S σ) (run : Loop S) :
    (st.park w run).Alike (st'.park w run) :=
  { h with bridge := rfl, parks := by simp [Story.park, h.parks] }

theorem resume (h : st.Alike st') (cb : Callback) (o : Outcome) :
    (st.resume cb o).Alike (st'.resume cb o) := by
  have hresumed : Story.Alike { st with resumptions := st.resumptions ++ [cb] }
      { st' with resumptions := st'.resumptions ++ [cb] } :=
    { h with resumptions := by simp [h.resumptions] }
  exact hresumed.answer _ _

theorem leave (h : st.Alike st') (run : Loop S) (o : Outcome) :
    (st.leave run o).Alike (st'.leave run o) := by
  unfold Story.leave
  split
  · exact h.ask _
  · exact h.deliver o

theorem meet (h : st.Alike st') (w : World S σ) (run : Loop S) (node : Effect S) :
    (st.meet w run node).Alike (st'.meet w run node) := by
  cases node with
  | fail e => exact h.leave run _
  | async k => exact (h.park w run).ask _
  | parked node stack => exact (h.park w run).ask _
  | deferred context b => exact (h.park w run).ask _
  | suspend k => exact h.ask _
  | delay k => exact h.ask _
  | switchConnection source modify restore => exact h.ask _
  | _ => exact h

theorem heed (h : st.Alike st') (w : World S σ) {α : Type} (code : Code S σ α)
    (reply : Except Failure α → Reply S) :
    (st.heed w code reply).Alike (st'.heed w code reply) := by
  cases code with
  | done a => exact h.answer _ _
  | panic payload =>
      simp only [Story.heed]
      split
      · exact h.answer _ _
      · exact { h with lost := rfl }
  | _ => exact h

theorem turn (h : st.Alike st') (w : World S σ) (act : Activation S σ) :
    (st.turn w act).Alike (st'.turn w act) := by
  cases act with
  | eval d node =>
      cases d with
      | partially stack resume => exact h
      | loop run =>
          simp only [Story.turn]
          split
          · exact (h.look _ _).deliver _
          · exact (h.look _ _).meet w run node
  | value d v => cases d with
    | loop run => exact h.leave run _
    | partially stack resume => exact h
  | node d code => cases d with
    | loop run => exact h.heed w code _
    | partially stack resume => exact h
  | outcome d code => cases d with
    | loop run => exact h.heed w code fun r => .outcome (r.bind id)
    | partially stack resume => exact h
  | switch run source restore code => exact h.heed w code _
  | _ => exact h

/-- A step adds the same to stories that are alike. -/
theorem next (h : st.Alike st') (depth : Nat) (s : State S σ) :
    (st.next depth s).Alike (st'.next depth s) := by
  cases s with
  | returned w => exact h
  | unwound w payload => exact h
  | running w top rest =>
      have htakes : st.takesTurn depth top rest = st'.takesTurn depth top rest := by
        simp only [Story.takesTurn, h.bridge, h.outcomes, h.lost]
      simp only [Story.next, htakes, h.bridge]
      split
      · exact h.turn w top
      · split
        · split
          · exact h.resume _ _
          · exact h
        · exact h

end Story.Alike

/-- Two activations of one loop that complete the same add the same to a story, up to what
their turns do. -/
theorem Story.next_alike_of_turn (st : Story S) (depth : Nat) (w : World S σ)
    {top top' : Activation S σ} (rest : List (Activation S σ)) (hloop : top.loop? = top'.loop?)
    (hcompletion : top.completion? w = top'.completion? w)
    (hturn : (st.turn w top).Alike (st.turn w top')) :
    (st.next depth (.running w top rest)).Alike (st.next depth (.running w top' rest)) := by
  have htakes : st.takesTurn depth top rest = st.takesTurn depth top' rest := by
    simp only [Story.takesTurn, hloop]
  simp only [Story.next, htakes, hcompletion]
  split
  · exact hturn
  · exact .refl _

/-- The failure of a panic adds to a story what the panic adds, up to how the answer reads. -/
theorem Story.next_producing (st : Story S) (depth : Nat) {w : World S σ}
    {top : Activation S σ} {payload : Payload} (hs : top.survived? w = some payload)
    (rest : List (Activation S σ)) :
    (st.next depth (.running w (top.producing (.panicked payload.describe)) rest)).Alike
      (st.next depth (.running w top rest)) := by
  have hsame : ∀ reply reply' : Reply S, (st.answer reply).Alike (st.answer reply') :=
    (Story.Alike.refl st).answer
  cases top with
  | node d code =>
      cases code <;> simp only [Activation.survived?, reduceCtorEq] at hs
      simp only [Option.ite_none_right_eq_some, Option.some.injEq] at hs
      obtain ⟨hc, rfl⟩ := hs
      refine st.next_alike_of_turn depth w rest (by cases d <;> rfl) rfl ?_
      cases d with
      | loop run =>
          simp only [Activation.producing, Story.turn, Story.heed, hc, if_true]
          exact hsame _ _
      | partially stack resume => exact .refl st
  | outcome d code =>
      cases code <;> simp only [Activation.survived?, reduceCtorEq] at hs
      simp only [Option.ite_none_right_eq_some, Option.some.injEq] at hs
      obtain ⟨hc, rfl⟩ := hs
      refine st.next_alike_of_turn depth w rest (by cases d <;> rfl) rfl ?_
      cases d with
      | loop run =>
          simp only [Activation.producing, Story.turn, Story.heed, hc, if_true]
          exact hsame _ _
      | partially stack resume => exact .refl st
  | switch run source restore code =>
      cases code <;> simp only [Activation.survived?, reduceCtorEq] at hs
      simp only [Option.ite_none_right_eq_some, Option.some.injEq] at hs
      obtain ⟨hc, rfl⟩ := hs
      refine st.next_alike_of_turn depth w rest rfl rfl ?_
      simp only [Activation.producing, Story.turn, Story.heed, hc, if_true]
      exact hsame _ _
  | owing cb code =>
      cases code <;> simp only [Activation.survived?, reduceCtorEq] at hs
      simp only [Option.ite_none_right_eq_some, Option.some.injEq] at hs
      obtain ⟨hc, rfl⟩ := hs
      refine st.next_alike_of_turn depth w rest rfl ?_ (.refl st)
      simp [Activation.producing, Activation.completion?, Code.completion?, hc]
  | _ => cases hs

/-- A step with a failure instead of a panic adds the same to stories that are alike. -/
theorem Story.Alike.nextInstead {st st' : Story S} (h : st.Alike st') (depth : Nat)
    (s : State S σ) : (st.nextInstead depth s).Alike (st'.next depth s) := by
  cases s with
  | returned w => exact h
  | unwound w payload => exact h
  | running w top rest =>
      cases hs : top.survived? w with
      | none =>
          simp only [Story.nextInstead, hs]
          exact h.next depth (.running w top rest)
      | some payload =>
          simp only [Story.nextInstead, hs]
          exact (h.next depth _).trans (st'.next_producing depth hs rest)

/-- A machine in which code comes back with the failures of its panics does what the machine
does, and the stories of all runs are alike. -/
theorem chronicleInstead_eq (P : Program S σ) (depth n : Nat) (s : State S σ) {st st' : Story S}
    (h : st.Alike st') :
    (chronicleInstead P depth n (s, st)).1 = (chronicle P depth n (s, st')).1 ∧
      (chronicleInstead P depth n (s, st)).2.Alike (chronicle P depth n (s, st')).2 := by
  induction n generalizing s st st' with
  | zero => exact ⟨rfl, h⟩
  | succ n ih =>
      simp only [chronicleInstead, chronicle, s.nextInstead_eq P]
      exact ih (s.next P) (h.nextInstead depth s)

/-! ## Panics in the evaluator -/

/-- The answer to a question, with the node of the failure in the place of a panic where the
question asks for a node. -/
def Question.produced : (q : Question S) → q.Answer → q.Answer
  | thunk _, r | bind _ _, r | handler _ _, r =>
    match r with
    | .ok node => .ok node
    | .error e => .ok (.fail e)
  | canceled _, a | modify _ _, a | restore _ _ _ _, a | delay _, a | map _ _, a
  | rescue _ _, a | async _ _, a | parked _ _ _, a | deferred _ _ _, a => a

/-- An exchange in which the node of a failure takes the place of a panic. -/
def Exchange.produced (x : Exchange S) : Exchange S :=
  ⟨x.question, x.question.produced x.answer⟩

/-- The failure with which code has answered a question. -/
def Exchange.failure? : Exchange S → Option Failure
  | ⟨.canceled _, _⟩ => none
  | ⟨.thunk _, .error e⟩ | ⟨.bind _ _, .error e⟩ | ⟨.handler _ _, .error e⟩
  | ⟨.modify _ _, .error e⟩ | ⟨.restore _ _ _ _, .error e⟩ | ⟨.delay _, .error e⟩
  | ⟨.map _ _, .error e⟩ | ⟨.rescue _ _, .error e⟩ | ⟨.async _ _, .error e⟩
  | ⟨.parked _ _ _, .error e⟩ | ⟨.deferred _ _ _, .error e⟩ => some e
  | _ => none

/-- An evaluation goes on with the node of a failure as with a panic. -/
theorem Question.GoesOn.produced {c : Connection} {q : Question S} {next : q.Answer → Course S}
    (h : q.GoesOn c next) (a : q.Answer) : next (q.produced a) = next a := by
  cases q with
  | thunk k =>
      obtain rfl : next = Course.node c := h
      cases a <;> rfl
  | bind k v =>
      obtain rfl : next = Course.node c := h
      cases a <;> rfl
  | handler k e =>
      obtain rfl : next = Course.node c := h
      cases a <;> rfl
  | _ => rfl

/-- An evaluation goes on with a failure, whatever closure it comes from, as with a node under
the connection under which the closure was called. -/
theorem Question.GoesOn.fails {c : Connection} {q : Question S} {next : q.Answer → Course S}
    (h : q.GoesOn c next) {a : q.Answer} {e : Failure}
    (ha : Exchange.failure? ⟨q, a⟩ = some e) : next a = .eval c (.fail e) := by
  cases q with
  | canceled c' => cases ha
  | modify k current =>
      obtain ⟨source, restore, old, rfl⟩ := h
      cases a <;> cases ha
      rfl
  | restore k exit before current =>
      obtain ⟨source, restore, old, rfl⟩ := h
      cases a <;> cases ha
      rfl
  | thunk k =>
      obtain rfl : next = Course.node c := h
      cases a <;> cases ha
      rfl
  | bind k v =>
      obtain rfl : next = Course.node c := h
      cases a <;> cases ha
      rfl
  | handler k e' =>
      obtain rfl : next = Course.node c := h
      cases a <;> cases ha
      rfl
  | delay k =>
      obtain rfl : next = Course.result c := h
      cases a <;> cases ha
      rfl
  | _ =>
      obtain rfl : next = Course.completion c := h
      cases a <;> cases ha
      rfl

/-- What asks is a question or a node within frames. -/
theorem Course.within_of_asks {m : Course S} {q : Question S} {next : q.Answer → Course S}
    (h : m.head = .asks q next) :
    (∃ next' frames, m = (ask q next').within frames ∧ next = fun a => (next' a).within frames) ∨
      ∃ c, q = .canceled c := by
  induction m generalizing q with
  | exit c o => cases h
  | abort => cases h
  | ask q' next' _ =>
      cases h
      exact .inl ⟨_, [], rfl, rfl⟩
  | eval c e =>
      cases h
      exact .inr ⟨c, rfl⟩
  | seq m frame ih =>
      simp only [head] at h
      cases hm : m.head with
      | asks q' next' =>
          simp only [hm] at h
          cases h
          rcases ih hm with ⟨next, frames, rfl, rfl⟩ | hlook
          · refine .inl ⟨next, frames ++ [frame], ?_, ?_⟩
            · simp [within, List.foldl_append]
            · funext a
              simp [within, List.foldl_append]
          · exact .inr hlook
      | exited c o => simp [hm] at h
      | aborted => simp [hm] at h
      | goes m' => simp [hm] at h

/-- A regular evaluation goes on with the node of a failure as with a panic. -/
theorem Course.Regular.produced {m : Course S} (h : m.Regular) {q : Question S}
    {next : q.Answer → Course S} (hm : m.head = .asks q next) (a : q.Answer) :
    next (q.produced a) = next a := by
  rcases Course.within_of_asks hm with ⟨next', frames, rfl, rfl⟩ | ⟨c, rfl⟩
  · obtain ⟨c, hgoes⟩ := (Course.regular_within frames).mp h
    simp only [hgoes.produced a]
  · rfl

/-- With the nodes of failures in the place of panics, an evaluation comes to the same. -/
theorem Proceeds.produced {m n : Course S} {xs : List (Exchange S)} (h : Proceeds m xs n)
    (hm : m.Regular) : Proceeds m (xs.map Exchange.produced) n := by
  induction h with
  | refl m => exact .refl m
  | goes hhead _ ih => exact .goes hhead (ih (hm.goes hhead))
  | @answered m n q next a xs hhead _ ih =>
      have hrest := ih (hm.answered hhead a)
      rw [← hm.produced hhead a] at hrest
      exact .answered hhead hrest

/-- With the nodes of failures in the place of panics, an evaluation comes to the same
ending. -/
theorem Evaluates.produced {m : Course S} {xs : List (Exchange S)} {e : Ending S}
    (h : Evaluates m xs e) (hm : m.Regular) : Evaluates m (xs.map Exchange.produced) e := by
  obtain ⟨n, hn, he⟩ := h.proceeds
  exact evaluates_iff_proceeds.mpr ⟨n, hn.produced hm, he⟩

/-- An evaluation that has been given an answer has asked for it before. -/
theorem Proceeds.at_answer {m n : Course S} {xs ys : List (Exchange S)} {x : Exchange S}
    (h : Proceeds m (xs ++ x :: ys) n) :
    ∃ k next, Proceeds m xs k ∧ k.head = .asks x.question next ∧
      Proceeds m (xs ++ [x]) (next x.answer) := by
  generalize hz : xs ++ x :: ys = zs at h
  induction h generalizing xs with
  | refl m => simp at hz
  | goes hm _ ih =>
      obtain ⟨k, next, hk, hhead, hnext⟩ := ih hz
      exact ⟨k, next, .goes hm hk, hhead, .goes hm hnext⟩
  | @answered m n q next a zs hm h ih =>
      cases xs with
      | nil =>
          rw [List.nil_append, List.cons.injEq] at hz
          obtain ⟨rfl, -⟩ := hz
          exact ⟨m, next, .refl m, hm, .reply hm a⟩
      | cons y xs =>
          rw [List.cons_append, List.cons.injEq] at hz
          obtain ⟨rfl, hz⟩ := hz
          obtain ⟨k, next', hk, hhead, hnext⟩ := ih hz
          exact ⟨k, next', .answered hm hk, hhead, .answered hm hnext⟩

/-- What a run has asked and delivered is what the evaluator asks and ends with if every
closure that has panicked had produced the failure of its panic instead. -/
structure AsFailures (r : Origin S) (st : Story S) : Prop where
  asked : ∀ before x after, st.exchanges = before ++ x :: after →
    Evaluates r.course (before.map Exchange.produced) (.asking x.question)
  pending : ∀ q, st.pending = some q →
    Evaluates r.course (st.exchanges.map Exchange.produced) (.asking q)
  outcome : ∀ o ∈ st.outcomes, ∃ e, e.outcome? = some o ∧
    Evaluates r.course (st.exchanges.map Exchange.produced) e
  /-- Whatever closure fails, the failure comes as a node in front of the frames that have
  waited for the closure, under the connection under which it was called. -/
  yields : ∀ before x after e, st.exchanges = before ++ x :: after → x.failure? = some e →
    ∃ c next frames, x.question.GoesOn c next ∧
      Proceeds r.course before ((Course.ask x.question next).within frames) ∧
      Proceeds r.course (before ++ [x]) ((Course.eval c (.fail e)).within frames)

/-- A run goes on as if its closures had not panicked but produced the failures. -/
theorem Follows.asFailures {P : Program S σ} {r : Origin S} {s : State S σ} {st : Story S}
    (h : Follows P r s st) : AsFailures r st where
  asked := fun before x after hx => by
    obtain ⟨m, hm⟩ := h.tracks.proceeds
    rw [hx] at hm
    exact hm.asked.produced r.regular_course
  pending := fun q hq => (h.tracks.asking hq).produced r.regular_course
  outcome := fun o ho => by
    obtain ⟨e, ending, evaluates⟩ := h.tracks.ends ho
    exact ⟨e, ending, evaluates.produced r.regular_course⟩
  yields := fun before x after e hx hfails => by
    obtain ⟨m, hm⟩ := h.tracks.proceeds
    rw [hx] at hm
    obtain ⟨k, next, hk, hhead, hnext⟩ := hm.at_answer
    rcases Course.within_of_asks hhead with ⟨next', frames, rfl, rfl⟩ | ⟨c, hlook⟩
    · obtain ⟨c, hgoes⟩ := hk.goesOn
      refine ⟨c, next', frames, hgoes, hk, ?_⟩
      rw [← hgoes.fails hfails]
      exact hnext
    · obtain ⟨q, a⟩ := x
      subst hlook
      cases hfails

/-! ## Panics in a call -/

/-- What becomes of the panics in a call from outside. -/
structure Contained (P : Program S σ) (s : State S σ) : Prop where
  /-- None of them leaves the call. -/
  returns : s.NeverUnwinds P
  /-- Over whatever waits below, the call goes on as if each closure had produced the failure
  of its panic, and so does each run. -/
  instead : ∀ below depth st n,
    (chronicleInstead P depth n (s.onto below, st)).1 =
        (chronicle P depth n (s.onto below, st)).1 ∧
      (chronicleInstead P depth n (s.onto below, st)).2.Alike
        (chronicle P depth n (s.onto below, st)).2
  /-- The evaluator agrees. -/
  asFailures : ∀ below r st n, Follows P r (s.onto below) st →
    AsFailures r (chronicle P r.depth n (s.onto below, st)).2
  /-- The panic of a registration or a body whose suspension has ended is ignored. -/
  ignored : ∀ below n w cb payload rest,
    State.run P n (s.onto below) = .running w (.owing cb (.panic payload)) rest →
      w.classifier payload = true → w.isArmed cb = false →
        ∃ w', State.run P (n + 1) (s.onto below) = .resume w' rest ∧ w'.bridges = w.bridges

/-- Panics that a run survives stay in a call, and are failures there. -/
theorem Call.survives_panics {P : Program S σ} {w : World S σ} {call : Call S}
    (hcontained : ∀ n, PanicsContained P (State.run P n (call.enter P w))) :
    Contained P (call.enter P w) where
  returns := Call.neverUnwinds hcontained
  instead := fun below depth st n => chronicleInstead_eq P depth n _ (.refl st)
  asFailures := fun below r st n h => (h.chronicle n).asFailures
  ignored := fun below n v cb payload rest hrun hc harmed => by
    have hdisarmed : (v.report P (.panicContained payload.describe)).isArmed cb = false := harmed
    have hstep : State.run P (n + 1) ((call.enter P w).onto below) =
        .complete P (v.report P (.panicContained payload.describe)) cb
          (.error (.panicked payload.describe)) rest := by
      rw [State.run_succ', hrun]
      simp [State.next, State.work, State.advance, State.contain, hc]
    rw [State.complete_of_not_armed P _ hdisarmed] at hstep
    exact ⟨_, hstep, rfl⟩

/-! ## A host that trips -/

namespace Trip

/-- The names of a host with one closure, which is called with a value. -/
def closures : Closures where
  Thunk := Empty
  Delay := Empty
  Registration := Empty
  Body := Empty
  Bind := Unit
  Map := Empty
  Handler := Empty
  Rescue := Empty
  Modify := Empty
  Restore := Empty
  Token := Empty
  Terminal := Unit
  Task := Empty
  Executor := Empty

/-- The code of that host.  Its closure panics. -/
def program : Program closures Unit where
  thunk := nofun
  delay := nofun
  registration := nofun
  body := nofun
  bind _ _ := .panic (.message "trip")
  map := nofun
  handler := nofun
  rescue := nofun
  modify := nofun
  restore := nofun
  token := nofun
  terminal _ _ := .done ()
  task := nofun
  executor := nofun
  observe _ host := host

/-- A run of the closure after a value. -/
def call : Call closures :=
  .run (.bind (.pure .null) (.bind (.user ()))) .uncancelable (.user ())

/-- The call has returned after six steps. -/
theorem run_call (n : Nat) : State.run program (6 + n)
    (call.enter program (.initial () "main")) = .returned (.initial () "main") := by
  rw [State.run_add]
  cases n <;> rfl

/-- The call has what it asks at every moment: its closure panics once, which the run survives. -/
theorem panicsContained_call (n : Nat) :
    PanicsContained program (State.run program n (call.enter program (.initial () "main"))) := by
  have htest : ∀ k < 6, (State.run program k (call.enter program (.initial () "main"))).isContained
      program 2 = true := by
    decide
  rcases Nat.lt_or_ge n 6 with hlt | hge
  · exact (State.contained_of_isContained (htest n hlt)).panicsContained
  · obtain ⟨m, rfl⟩ := Nat.exists_eq_add_of_le hge
    rw [run_call]
    exact .of_ne nofun

/-- The panic of the closure stays in the call, and the terminal is given the failure. -/
theorem contained_call :
    Contained program (call.enter program (.initial () "main")) ∧
      (chronicle program 0 5 (call.enter program (.initial () "main"), .beginning)).2.outcomes =
        [.error (.panicked "trip")] :=
  ⟨Call.survives_panics panicsContained_call, rfl⟩

end Trip

end Trampoline
