import Trampoline.Proofs.Run.Invariant

/-!
# How an evaluation goes on with an answer

A question is asked under a connection, and the answer is always taken in the same way: a
node that code has come back with is met under that connection, an outcome is met as a node,
and only the value of a delayed outcome and a chosen connection are not.  This file says so
once, for all questions that an evaluation can come to.

Main definitions and results:

- Definition `Question.GoesOn`: what follows the answer to a question.
- Definition `Course.Regular`: an evaluation that takes all answers in this way.
- Theorem `Proceeds.regular`: it stays one.
- Theorem `Question.GoesOn.of_fails`: a loop that takes panics as nodes is on the connection
  under which the question has been asked.
-/

namespace Trampoline

variable {S : Closures} {σ : Type}

/-- What follows the answer to a question that has been asked under a connection. -/
def Question.GoesOn (c : Connection) : (q : Question S) → (q.Answer → Course S) → Prop
  | .canceled c', next => ∃ e : Effect S, c' = c ∧ next = fun b => if b then .abort else e.move c
  | .thunk _, next | .bind _ _, next | .handler _ _, next => next = Course.node c
  | .delay _, next => next = Course.result c
  | .map _ _, next | .rescue _ _, next | .async _ _, next | .parked _ _ _, next
  | .deferred _ _ _, next => next = Course.completion c
  | .modify _ _, next | .restore _ _ _ _, next =>
    ∃ source restore old, next = Course.connection c (.region source restore old)

namespace Course

/-- Each question of an evaluation is followed by what the answer calls for. -/
def Regular : Course S → Prop
  | exit _ _ | abort | eval _ _ => True
  | ask q next => ∃ c, q.GoesOn c next
  | seq source _ => source.Regular

/-- Frames below an evaluation do not matter to its next question. -/
@[simp]
theorem regular_within {m : Course S} (frames : List (Frame S)) :
    (m.within frames).Regular ↔ m.Regular := by
  induction frames generalizing m with
  | nil => rfl
  | cons frame frames ih => exact ih

/-- What code has come back with asks nothing at once. -/
theorem regular_node (c : Connection) (r : Except Failure (Effect S)) :
    (node c r).Regular := by
  cases r <;> trivial

/-- A result asks nothing at once. -/
theorem regular_result (c : Connection) (o : Outcome) : (result c o : Course S).Regular := by
  cases o <;> trivial

/-- A region asks nothing at once. -/
theorem regular_region (source : Effect S) (restore : Option (Restorer S))
    (old new : Connection) : (region source restore old new).Regular := by
  cases restore <;> trivial

end Course

/-- A binder goes on regularly. -/
theorem Binder.regular_move (f : Binder S) (c : Connection) (v : Value) : (f.move c v).Regular := by
  cases f with
  | user k => exact ⟨c, rfl⟩
  | pure => trivial
  | shift context => trivial

/-- A handler goes on regularly. -/
theorem Recovery.regular_move (h : Recovery S) (c : Connection) (e : Failure) :
    (h.move c e).Regular := by
  cases h with
  | user k => exact ⟨c, rfl⟩
  | rescue k => exact ⟨c, rfl⟩
  | reify => trivial

/-- The choice of a connection for a region is regular. -/
theorem Modifier.regular_choose (m : Modifier S) (c old : Connection) (source : Effect S)
    (restore : Option (Restorer S)) : (m.choose c (.region source restore old)).Regular := by
  cases m with
  | user k => exact ⟨c, source, restore, old, rfl⟩
  | uncancelable => exact Course.regular_region source restore old .uncancelable
  | restoring exit before r =>
      cases r with
      | user k => exact ⟨c, source, restore, old, rfl⟩
      | old => exact Course.regular_region source restore old before

/-- A node goes on regularly. -/
theorem Effect.regular_move (e : Effect S) (c : Connection) : (e.move c).Regular := by
  cases e with
  | suspend k => exact ⟨c, rfl⟩
  | delay k => exact ⟨c, rfl⟩
  | async k => exact ⟨c, rfl⟩
  | parked node stack => exact ⟨c, rfl⟩
  | deferred context b => exact ⟨c, rfl⟩
  | switchConnection source modify restore => exact modify.regular_choose c c source restore
  | _ => trivial

/-- A frame goes on regularly. -/
theorem Frame.regular_move (frame : Frame S) (c : Connection) (o : Outcome) :
    (frame.move c o).Regular := by
  cases frame with
  | bind f =>
      cases o with
      | ok v => exact f.regular_move c v
      | error e => trivial
  | map k =>
      cases o with
      | ok v => exact ⟨c, rfl⟩
      | error e => trivial
  | handle h =>
      cases o with
      | ok v => trivial
      | error e => exact h.regular_move c e
  | fold f h =>
      cases o with
      | ok v => exact f.regular_move c v
      | error e => exact h.regular_move c e
  | restore old r => trivial

/-- What follows an answer is regular. -/
theorem Question.GoesOn.regular {c : Connection} {q : Question S} {next : q.Answer → Course S}
    (h : q.GoesOn c next) (a : q.Answer) : (next a).Regular := by
  cases q with
  | canceled c' =>
      obtain ⟨e, -, rfl⟩ := h
      cases a with
      | true => trivial
      | false => exact e.regular_move c
  | thunk k => exact h ▸ Course.regular_node c a
  | delay k => exact h ▸ Course.regular_result c a
  | bind k v => exact h ▸ Course.regular_node c a
  | handler k e => exact h ▸ Course.regular_node c a
  | modify k current =>
      obtain ⟨source, restore, old, rfl⟩ := h
      cases a with
      | ok new => exact Course.regular_region source restore old new
      | error e => trivial
  | restore k exit before current =>
      obtain ⟨source, restore, old, rfl⟩ := h
      cases a with
      | ok new => exact Course.regular_region source restore old new
      | error e => trivial
  | _ => exact h ▸ trivial

namespace Course

/-- An evaluation that goes on without a question stays regular. -/
theorem Regular.goes {m n : Course S} (h : m.Regular) (hm : m.head = .goes n) : n.Regular := by
  induction m generalizing n with
  | seq m frame ih =>
      simp only [head] at hm
      cases hh : m.head with
      | exited c o =>
          simp only [hh, Head.goes.injEq] at hm
          exact hm ▸ frame.regular_move c o
      | goes m' =>
          simp only [hh, Head.goes.injEq] at hm
          have hm' : m'.Regular := ih h hh
          exact hm ▸ hm'
      | aborted => simp [hh] at hm
      | asks q next => simp [hh] at hm
  | _ => cases hm

/-- An evaluation that has been given an answer stays regular. -/
theorem Regular.answered {m : Course S} (h : m.Regular) {q : Question S}
    {next : q.Answer → Course S} (hm : m.head = .asks q next) (a : q.Answer) :
    (next a).Regular := by
  induction m generalizing q with
  | ask q' next' _ =>
      cases hm
      obtain ⟨c, hgoes⟩ := h
      exact hgoes.regular a
  | eval c e =>
      cases hm
      cases a with
      | true => trivial
      | false => exact e.regular_move c
  | seq m frame ih =>
      simp only [head] at hm
      cases hh : m.head with
      | asks q' next' =>
          simp only [hh] at hm
          cases hm
          exact ih h hh a
      | exited c o => simp [hh] at hm
      | aborted => simp [hh] at hm
      | goes m' => simp [hh] at hm
  | _ => cases hm

end Course

/-- A regular evaluation stays regular. -/
theorem Proceeds.regular {m n : Course S} {xs : List (Exchange S)} (h : Proceeds m xs n)
    (hm : m.Regular) : n.Regular := by
  induction h with
  | refl m => exact hm
  | goes hhead _ ih => exact ih (hm.goes hhead)
  | answered hhead _ ih => exact ih (hm.answered hhead _)

/-- The evaluation that a run stands for is regular. -/
theorem Origin.regular_course (r : Origin S) : r.course.Regular :=
  (Course.regular_within r.stack.toList).mpr trivial

/-- Where a run asks, it does so under some connection. -/
theorem Proceeds.goesOn {r : Origin S} {xs : List (Exchange S)} {q : Question S}
    {next : q.Answer → Course S} {frames : List (Frame S)}
    (h : Proceeds r.course xs ((Course.ask q next).within frames)) : ∃ c, q.GoesOn c next :=
  (Course.regular_within frames).mp (h.regular r.regular_course)

/-! ## The connection of the loop -/

namespace Course

/-- The connection of a node that code has come back with, or of a failure in its place. -/
theorem node_eq_eval {c c' : Connection} {r : Except Failure (Effect S)} {e : Effect S}
    (h : node c r = eval c' e) : c = c' := by
  cases r <;> cases h <;> rfl

/-- The connection of a result that has to be evaluated as a failure. -/
theorem result_eq_eval {c c' : Connection} {o : Outcome} {e : Effect S}
    (h : result c o = eval c' e) : c = c' := by
  cases o <;> cases h
  rfl

/-- A region that is chosen to begin with the failure of every panic has not been entered. -/
theorem connection_eq_fail {c c' old : Connection} {source : Effect S}
    {restore : Option (Restorer S)} {f : Failure → Except Failure Connection}
    (h : ∀ e, connection c (region source restore old) (f e) = eval c' (.fail e)) : c = c' := by
  -- Two failures cannot both be the source of the region.
  have hsource : ∀ e, c = c' ∨ source = .fail e := by
    intro e
    have he := h e
    cases hf : f e with
    | error e' =>
        rw [hf] at he
        cases he
        exact .inl rfl
    | ok new =>
        rw [hf] at he
        cases restore with
        | some r => cases he
        | none =>
            cases he
            exact .inr rfl
  rcases hsource .cancelled with hc | hsource₁
  · exact hc
  · rcases hsource (.panicked "") with hc | hsource₂
    · exact hc
    · cases hsource₁.symm.trans hsource₂

end Course

/-- Where an evaluation goes on with the failure of every panic as a node under a connection,
the question has been asked under that connection, and it was no look at one. -/
theorem Question.GoesOn.of_fails {c c' : Connection} {q : Question S}
    {next : q.Answer → Course S} (h : q.GoesOn c next) {f : Failure → q.Answer}
    (hf : ∀ e, next (f e) = .eval c' (.fail e)) : c = c' ∧ ∀ d, q ≠ .canceled d := by
  cases q with
  | canceled d =>
      obtain ⟨e, -, rfl⟩ := h
      have hmove : ∀ e', e.move c = .eval c' (.fail e') := by
        intro e'
        have he' := hf e'
        simp only at he'
        split at he'
        · cases he'
        · exact he'
      cases (hmove .cancelled).symm.trans (hmove (.panicked ""))
  | thunk k =>
      obtain rfl : next = Course.node c := h
      exact ⟨Course.node_eq_eval (hf .cancelled), by simp⟩
  | bind k v =>
      obtain rfl : next = Course.node c := h
      exact ⟨Course.node_eq_eval (hf .cancelled), by simp⟩
  | handler k e =>
      obtain rfl : next = Course.node c := h
      exact ⟨Course.node_eq_eval (hf .cancelled), by simp⟩
  | delay k =>
      obtain rfl : next = Course.result c := h
      exact ⟨Course.result_eq_eval (hf .cancelled), by simp⟩
  | modify k current =>
      obtain ⟨source, restore, old, rfl⟩ := h
      exact ⟨Course.connection_eq_fail hf, by simp⟩
  | restore k exit before current =>
      obtain ⟨source, restore, old, rfl⟩ := h
      exact ⟨Course.connection_eq_fail hf, by simp⟩
  | _ =>
      obtain rfl : next = Course.completion c := h
      exact ⟨(Course.eval.inj (hf .cancelled)).1, by simp⟩

/-- Where an evaluation goes on with every outcome as with a node, it does so under the
connection under which the question has been asked. -/
theorem Question.GoesOn.of_completes {c c' : Connection} {q : Question S}
    {next : q.Answer → Course S} (h : q.GoesOn c next)
    (hcompletes : ∀ o, next (q.read (.outcome o)) = .completion c' o) : c = c' := by
  have hfails : ∀ e, next (q.read (.outcome (.error e))) = .eval c' (.fail e) := fun e =>
    hcompletes (.error e)
  exact (h.of_fails hfails).1

end Trampoline
