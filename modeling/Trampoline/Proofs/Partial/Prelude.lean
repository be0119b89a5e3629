import Trampoline.Proofs.Partial.Layers
import Trampoline.Proofs.Run.Determinism

/-!
# The prelude of a run

A partial evaluation is followed through all that the machine does, like a run: what it asks
of the host and is answered, and what it leaves.  It never looks at a connection, for it has
none, and it never suspends; it ends where a live run is needed.

Main definitions and results:

- Definition `Residue`: what a partial evaluation leaves of an effect.
- Definitions `Prelude`, `Prelude.next`, `Unfolds`: a partial evaluation followed from its
  start.
- Definition `Prelude.chronicle`: so many steps of the machine with what is known of it.
- Theorem `State.work_of_residue?`: the code that has asked for it is given what is left.
-/

namespace Trampoline

variable {S : Closures} {σ : Type}

/-! ## What is left -/

/-- What a partial evaluation leaves of an effect. -/
inductive Residue (S : Closures) where
  /-- The outcome, if nothing has needed a live run. -/
  | outcome (o : Outcome)
  /-- An asynchronous boundary for which nothing waits. -/
  | boundary (node : Effect S)
  /-- A node that needs a live run, and the frames that wait for it. -/
  | pending (node : Effect S) (stack : CallStack (Frame S))

namespace Residue

/-- What is left, as an effect. -/
def effect : Residue S → Effect S
  | outcome o => .ofOutcome o
  | boundary node => node
  | pending node stack => .parked node stack

/-- What is left to evaluate on a connection. -/
def course (c : Connection) : Residue S → Course S
  | outcome o => .exit c o
  | boundary node => .eval c node
  | pending node stack => (Course.eval c node).within stack.toList

/-- What is left in front of a node that needs a live run. -/
def ofNode (stack : CallStack (Frame S)) (node : Effect S) : Residue S :=
  match node with
  | .switchConnection _ _ _ => .pending node stack
  | _ => if stack.isEmpty then .boundary node else .pending node stack

/-- What is left of an exit, if no frame takes it. -/
def ofExit? (stack : CallStack (Frame S)) (o : Outcome) : Option (Residue S) :=
  if (stack.takeFor o).1.isNone then some (.outcome o) else none

/-- What is left in front of a node, if the partial evaluation ends there. -/
def ofEval? (stack : CallStack (Frame S)) (node : Effect S) : Option (Residue S) :=
  match node with
  | .fail e => ofExit? stack (.error e)
  | .async _ | .parked _ _ | .deferred _ _ | .switchConnection _ _ _ => some (ofNode stack node)
  | _ => none

theorem effect_ofNode (stack : CallStack (Frame S)) (node : Effect S) :
    (ofNode stack node).effect = State.residual stack node := by
  cases node with
  | switchConnection source modify restore => rfl
  | _ =>
      simp only [ofNode, State.residual]
      split <;> rfl

theorem course_ofNode (c : Connection) (stack : CallStack (Frame S)) (node : Effect S) :
    (ofNode stack node).course c = (Course.eval c node).within stack.toList := by
  cases node with
  | switchConnection source modify restore => rfl
  | _ =>
      simp only [ofNode]
      split
      · next h =>
          rw [stack.isEmpty_iff.mp h]
          rfl
      · rfl

end Residue

/-- What a partial evaluation leaves if it ends with the next step: what is left of the
effect, or a panic that goes on in the code that has asked. -/
def Activation.residue? (w : World S σ) : Activation S σ → Option (Except Payload (Residue S))
  | .eval (.partially stack _) n => (Residue.ofEval? stack n).map .ok
  | .value (.partially stack _) v => (Residue.ofExit? stack (.ok v)).map .ok
  | .node (.partially _ _) (.panic payload) | .outcome (.partially _ _) (.panic payload) =>
    if w.classifier payload then none else some (.error payload)
  | _ => none

/-- Code that has not panicked ends no partial evaluation. -/
theorem Activation.residue?_wrap (w : World S σ) {α : Type} (h : Holder S σ α)
    {code : Code S σ α} (hpanic : ∀ payload, code ≠ .panic payload) :
    (h.wrap code).residue? w = none := by
  cases h with
  | node d => cases d <;> cases code <;> first | rfl | exact absurd rfl (hpanic _)
  | outcome d => cases d <;> cases code <;> first | rfl | exact absurd rfl (hpanic _)
  | _ => rfl

namespace State

variable (P : Program S σ) {w : World S σ} {stack : CallStack (Frame S)}
  {resume : Except Payload (Effect S) → Activation S σ}

/-- What a partial evaluation does with an exit. -/
def pass (w : World S σ) (stack : CallStack (Frame S))
    (resume : Except Payload (Effect S) → Activation S σ) (o : Outcome)
    (rest : List (Activation S σ)) : State S σ :=
  match stack.takeFor o with
  | (some frame, stack') => running w (.node (.partially stack' resume) (P.resolve frame o)) rest
  | (none, _) => running w (resume (.ok (.ofOutcome o))) rest

theorem value_eq_pass (v : Value) (rest : List (Activation S σ)) :
    value P w (.partially stack resume) v rest = pass P w stack resume (.ok v) rest := by
  simp only [value, pass, CallStack.takeFor, Driver.stack]
  cases stack.popNext with
  | mk frame stack' => cases frame <;> rfl

theorem reduce_fail_eq_pass (e : Failure) (rest : List (Activation S σ)) :
    reduce P w (.partially stack resume) (.fail e) rest =
      pass P w stack resume (.error e) rest := by
  simp only [reduce, pass, CallStack.takeFor, Driver.stack]
  cases stack.findErrorHandler with
  | mk frame stack' => cases frame <;> rfl

/-- An exit that no frame takes is what is left. -/
theorem pass_of_ofExit? {o : Outcome} {r : Residue S} (h : Residue.ofExit? stack o = some r)
    (rest : List (Activation S σ)) :
    pass P w stack resume o rest = running w (resume (.ok r.effect)) rest := by
  unfold Residue.ofExit? at h
  unfold pass
  cases ht : stack.takeFor o with
  | mk frame stack' =>
      cases frame with
      | some frame => simp [ht] at h
      | none =>
          simp only [ht, Option.isNone_none, if_true, Option.some.injEq] at h
          exact h ▸ rfl

/-- A partial evaluation that ends in front of a node gives what is left to the code that has
asked for it. -/
theorem reduce_of_ofEval? {node : Effect S} {r : Residue S}
    (h : Residue.ofEval? stack node = some r) (rest : List (Activation S σ)) :
    reduce P w (.partially stack resume) node rest = running w (resume (.ok r.effect)) rest := by
  have hnode : r = .ofNode stack node → State.residual stack node = r.effect := by
    rintro rfl
    exact (Residue.effect_ofNode stack node).symm
  cases node with
  | fail e =>
      rw [reduce_fail_eq_pass]
      exact pass_of_ofExit? P h rest
  | async k => simp only [reduce, hnode (Option.some.inj h).symm]
  | parked inner stack' => simp only [reduce, hnode (Option.some.inj h).symm]
  | deferred context b => simp only [reduce, hnode (Option.some.inj h).symm]
  | switchConnection source modify restore => simp only [reduce, hnode (Option.some.inj h).symm]
  | _ => cases h

/-- The code that has asked for a partial evaluation is given what is left. -/
theorem work_of_residue? {a : Activation S σ} {r : Except Payload (Residue S)}
    (hbehind : a.behind? = some resume) (hr : a.residue? w = some r)
    (rest : List (Activation S σ)) :
    work P w rest a = .running w (resume (r.map Residue.effect)) rest := by
  have hpanic : ∀ {stack : CallStack (Frame S)} {payload : Payload},
      (if w.classifier payload then none else some (.error payload)) = some r →
        panicIn P w (.partially stack resume) payload rest =
          running w (resume (r.map Residue.effect)) rest := by
    intro stack payload h
    cases hc : w.classifier payload with
    | true => simp [hc] at h
    | false =>
        simp only [hc, Bool.false_eq_true, if_false, Option.some.injEq] at h
        simp [panicIn, hc, ← h, Except.map]
  cases a with
  | eval d n =>
      cases d with
      | loop run => cases hbehind
      | partially stack resume' =>
          cases hbehind
          obtain ⟨r', hr', rfl⟩ := Option.map_eq_some_iff.mp hr
          exact reduce_of_ofEval? P hr' rest
  | value d v =>
      cases d with
      | loop run => cases hbehind
      | partially stack resume' =>
          cases hbehind
          obtain ⟨r', hr', rfl⟩ := Option.map_eq_some_iff.mp hr
          exact (value_eq_pass P v rest).trans (pass_of_ofExit? P hr' rest)
  | node d code =>
      cases d with
      | loop run => cases hbehind
      | partially stack resume' =>
          cases hbehind
          cases code with
          | panic payload => exact hpanic hr
          | _ => cases hr
  | outcome d code =>
      cases d with
      | loop run => cases hbehind
      | partially stack resume' =>
          cases hbehind
          cases code with
          | panic payload => exact hpanic hr
          | _ => cases hr
  | _ => cases hbehind

end State

/-! ## What a step adds -/

namespace Story

/-- An exit goes to the next frame that takes it, or out of a partial evaluation. -/
def pass (st : Story S) (stack : CallStack (Frame S)) (o : Outcome) : Story S :=
  match stack.takeFor o with
  | (some frame, _) => st.ask (frame.question? o)
  | (none, _) => st

/-- A turn of a partial evaluation. -/
def unfold (st : Story S) (w : World S σ) : Activation S σ → Story S
  | .eval (.partially stack _) node =>
    (match node with
    | .fail e => st.pass stack (.error e)
    | .suspend k => st.ask (some (.thunk k))
    | .delay k => st.ask (some (.delay k))
    | _ => st)
  | .value (.partially stack _) v => st.pass stack (.ok v)
  | .node (.partially _ _) code => st.heed w code .node
  | .outcome (.partially _ _) code => st.heed w code fun r => .outcome (r.bind id)
  | _ => st

end Story

/-- What is known of a partial evaluation: what it has asked, with the answers, and, once it
has come to its end, what it has left. -/
structure Prelude (S : Closures) where
  story : Story S
  residue : Option (Except Payload (Residue S))

namespace Prelude

/-- A partial evaluation that has just started. -/
def beginning : Prelude S where
  story := .beginning
  residue := none

/-- The activation on top is the work of the partial evaluation: it stands where that has
started, with as many partial evaluations in one place. -/
def takesTurn (u : Prelude S) (depth layers : Nat) (top : Activation S σ)
    (rest : List (Activation S σ)) : Bool :=
  u.residue.isNone && rest.length == depth && top.layers == layers

/-- What works further up takes no turn of the partial evaluation. -/
theorem takesTurn_above {u : Prelude S} {depth layers : Nat} {top a : Activation S σ}
    {above below : List (Activation S σ)} (h : below.length = depth) :
    u.takesTurn depth layers top (above ++ a :: below) = false := by
  have hlength : (above ++ a :: below).length ≠ depth := by
    rw [List.length_append, List.length_cons, h]
    omega
  simp only [takesTurn, beq_eq_false_iff_ne.mpr hlength, Bool.and_false, Bool.false_and]

/-- What the next step of the machine adds to what is known. -/
def next (u : Prelude S) (depth layers : Nat) : State S σ → Prelude S
  | .running w top rest =>
    if u.takesTurn depth layers top rest then ⟨u.story.unfold w top, top.residue? w⟩ else u
  | .returned _ | .unwound _ _ => u

/-- Nothing is added to what has come to its end. -/
theorem next_of_residue {st : Story S} {r : Except Payload (Residue S)} (depth layers : Nat)
    (s : State S σ) : (⟨st, some r⟩ : Prelude S).next depth layers s = ⟨st, some r⟩ := by
  cases s <;> simp [next, takesTurn]

end Prelude

/-- What a partial evaluation starts with. -/
structure Opening (S : Closures) (σ : Type) where
  effect : Effect S
  /-- What goes on with what is left. -/
  resume : Except Payload (Effect S) → Activation S σ
  /-- How many activations wait below. -/
  depth : Nat

namespace Opening

/-- The activation that starts a partial evaluation. -/
def activation (p : Opening S σ) : Activation S σ :=
  .eval (.partially .empty p.resume) p.effect

/-- How many partial evaluations stand in its place, itself among them. -/
def layers (p : Opening S σ) : Nat :=
  p.activation.layers

end Opening

/-- A partial evaluation followed from its start in any reachable state. -/
inductive Unfolds (P : Program S σ) (p : Opening S σ) : State S σ → Prelude S → Prop
  | start {w : World S σ} {rest : List (Activation S σ)}
      (h : State.Reachable P (.running w p.activation rest)) (depth : rest.length = p.depth) :
      Unfolds P p (.running w p.activation rest) .beginning
  | next {s : State S σ} {u : Prelude S} (h : Unfolds P p s u) :
      Unfolds P p (s.next P) (u.next p.depth p.layers s)
  | again {s : State S σ} {u : Prelude S} (h : Unfolds P p s u) (hs : s.activations = [])
      (code : Code S σ Unit) : Unfolds P p (.start s.world code) u

theorem Unfolds.reachable {P : Program S σ} {p : Opening S σ} {s : State S σ} {u : Prelude S}
    (h : Unfolds P p s u) : State.Reachable P s := by
  induction h with
  | start h depth => exact h
  | next h ih => exact ih.next
  | again h hs code ih => exact ih.again hs code

/-- So many steps of the machine, with what they add to what is known of a partial
evaluation. -/
def Prelude.chronicle (P : Program S σ) (depth layers : Nat) :
    Nat → State S σ × Prelude S → State S σ × Prelude S
  | 0, x => x
  | n + 1, (s, u) => chronicle P depth layers n (s.next P, u.next depth layers s)

/-- A partial evaluation that is followed can be followed further. -/
theorem Unfolds.chronicle {P : Program S σ} {p : Opening S σ} {s : State S σ} {u : Prelude S}
    (h : Unfolds P p s u) (n : Nat) :
    Unfolds P p (Prelude.chronicle P p.depth p.layers n (s, u)).1
      (Prelude.chronicle P p.depth p.layers n (s, u)).2 := by
  induction n generalizing s u with
  | zero => exact h
  | succ n ih => exact ih h.next

end Trampoline
