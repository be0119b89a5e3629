import Trampoline.Proofs.Run.Dialogue

/-!
# The reference evaluator

An evaluator of effects without a stack: it recurs on the source of a node, and then goes
on with the frame that waits for the outcome.  What it asks of its surroundings is
answered from a list, so that it says which question comes next after which answers, and
how the evaluation ends.

Main definitions and results:

- Definition `Course`: what is left of an evaluation.
- Definitions `Effect.move`, `Frame.move`: what a node does on a connection that has not
  been canceled, and what a frame does with an exit.
- Definition `Evaluates`: the evaluator.
- Definitions `Course.head`, `Proceeds`: the evaluator taken apart into steps.
- Theorem `Proceeds.diverge`: evaluations that have come from one.
- Theorem `evaluates_iff_proceeds`: both agree.
- Theorem `Evaluates.unique`: the end of an evaluation follows from the answers.
-/

namespace Trampoline

variable {S : Closures}

/-- What is left of an evaluation. -/
inductive Course (S : Closures) where
  /-- The exit from a node, and the connection that is active there. -/
  | exit (c : Connection) (o : Outcome)
  /-- The end of the whole evaluation by a cancellation. -/
  | abort
  /-- A question, and what is done with the answer. -/
  | ask (q : Question S) (next : q.Answer → Course S)
  /-- A node under an active connection, which is looked at first. -/
  | eval (c : Connection) (e : Effect S)
  /-- A source, and the frame that waits for its exit. -/
  | seq (source : Course S) (frame : Frame S)

namespace Course

/-- Go on with the node that code has come back with, or with the failure of a panic. -/
def node (c : Connection) : Except Failure (Effect S) → Course S
  | .ok e => eval c e
  | .error e => eval c (.fail e)

/-- Go on with an outcome as with a node. -/
def completion (c : Connection) (o : Outcome) : Course S :=
  eval c (.ofOutcome o)

/-- Exit with a value; a failure is a node. -/
def result (c : Connection) : Outcome → Course S
  | .ok v => exit c (.ok v)
  | .error e => eval c (.fail e)

/-- Go on under the connection that code has come back with; the failure of a panic is a
node under the old one. -/
def connection (c : Connection) (next : Connection → Course S) :
    Except Failure Connection → Course S
  | .ok new => next new
  | .error e => eval c (.fail e)

/-- The frames wait for an evaluation, the first for its exit, the next for the exit of
that, and so on. -/
def within (m : Course S) (frames : List (Frame S)) : Course S :=
  frames.foldl seq m

@[simp]
theorem within_nil (m : Course S) : m.within [] = m :=
  rfl

@[simp]
theorem within_cons (m : Course S) (frame : Frame S) (frames : List (Frame S)) :
    m.within (frame :: frames) = (seq m frame).within frames :=
  rfl

end Course

/-- A binder goes on with a value. -/
def Binder.move (f : Binder S) (c : Connection) (v : Value) : Course S :=
  match f with
  | .user k => .ask (.bind k v) (.node c)
  | .pure => .eval c (.pure v)
  | .shift context => .eval c (.deferred context (.succeed v))

/-- A recovery goes on with a failure. -/
def Recovery.move (h : Recovery S) (c : Connection) (e : Failure) : Course S :=
  match h with
  | .user k => .ask (.handler k e) (.node c)
  | .rescue k => .ask (.rescue k e) (.completion c)
  | .reify => .eval c (.pure (.error e.toInfo))

/-- Choose the connection at the end of a region. -/
def Restorer.choose (r : Restorer S) (exit : Outcome) (old c : Connection)
    (next : Connection → Course S) : Course S :=
  match r with
  | .user k => .ask (.restore k exit old c) (.connection c next)
  | .old => next old

/-- Choose the connection for a region. -/
def Modifier.choose (m : Modifier S) (c : Connection) (next : Connection → Course S) :
    Course S :=
  match m with
  | .user k => .ask (.modify k c) (.connection c next)
  | .uncancelable => next .uncancelable
  | .restoring exit old r => r.choose exit old c next

/-- The source of a region under the connection that has been chosen for it.  With a
restorer, the frame that ends the region waits for the exit. -/
def Course.region (source : Effect S) (restore : Option (Restorer S)) (old new : Connection) :
    Course S :=
  match restore with
  | some r => .eval new (.bind source (.restore old r))
  | none => .eval new source

/-- What a node does on a connection that has not been canceled. -/
def Effect.move (c : Connection) : Effect S → Course S
  | .pure v => .exit c (.ok v)
  | .fail e => .exit c (.error e)
  | .suspend k => .ask (.thunk k) (.node c)
  | .delay k => .ask (.delay k) (.result c)
  | .async k => .ask (.async k c) (.completion c)
  | .parked node stack => .ask (.parked node stack c) (.completion c)
  | .deferred context b => .ask (.deferred context b c) (.completion c)
  | .bind source frame => .seq (.eval c source) frame
  | .map source f => .seq (.eval c source) (.map f)
  | .continueOn context source => .eval c (.bind source (.bind (.shift context)))
  | .switchConnection source modify restore => modify.choose c (.region source restore c)

/-- What a frame does with an exit: a frame that takes no such exit lets it pass, and the
end of a region exits in the same way under the connection that is chosen for it. -/
def Frame.move (c : Connection) : Frame S → Outcome → Course S
  | .bind f, .ok v => f.move c v
  | .map k, .ok v => .ask (.map k v) (.completion c)
  | .handle h, .error e => h.move c e
  | .fold f _, .ok v => f.move c v
  | .fold _ h, .error e => h.move c e
  | .restore old r, o =>
    .eval c (.switchConnection (.ofOutcome o) (.restoring o old r) none)
  | .bind _, .error e | .map _, .error e => .exit c (.error e)
  | .handle _, .ok v => .exit c (.ok v)

/-- How far an evaluation gets with the answers that it has. -/
inductive Ending (S : Closures) where
  | exited (c : Connection) (o : Outcome)
  | aborted
  /-- It needs the answer to one more question. -/
  | asking (q : Question S)

/-- The outcome that a run with this ending delivers. -/
def Ending.outcome? : Ending S → Option Outcome
  | exited _ o => some o
  | aborted => some (.error .cancelled)
  | asking _ => none

/-- The evaluator: with these answers, to these questions in this order, an evaluation
comes to this ending. -/
inductive Evaluates : Course S → List (Exchange S) → Ending S → Prop
  | exit (c : Connection) (o : Outcome) : Evaluates (.exit c o) [] (.exited c o)
  | abort : Evaluates .abort [] .aborted
  | asking (q : Question S) (next : q.Answer → Course S) :
      Evaluates (.ask q next) [] (.asking q)
  | answered {q : Question S} {next : q.Answer → Course S} {a : q.Answer}
      {xs : List (Exchange S)} {r : Ending S} (h : Evaluates (next a) xs r) :
      Evaluates (.ask q next) (⟨q, a⟩ :: xs) r
  | look {c : Connection} {e : Effect S} {xs : List (Exchange S)} {r : Ending S}
      (h : Evaluates (.ask (.canceled c) fun b => if b then .abort else e.move c) xs r) :
      Evaluates (.eval c e) xs r
  | frame {m : Course S} {frame : Frame S} {xs ys : List (Exchange S)} {c : Connection}
      {o : Outcome} {r : Ending S} (source : Evaluates m xs (.exited c o))
      (h : Evaluates (frame.move c o) ys r) : Evaluates (.seq m frame) (xs ++ ys) r
  | aborted {m : Course S} {frame : Frame S} {xs : List (Exchange S)}
      (source : Evaluates m xs .aborted) : Evaluates (.seq m frame) xs .aborted
  | waits {m : Course S} {frame : Frame S} {xs : List (Exchange S)} {q : Question S}
      (source : Evaluates m xs (.asking q)) : Evaluates (.seq m frame) xs (.asking q)

/-! ## The evaluator in steps -/

/-- What an evaluation does next. -/
inductive Head (S : Closures) where
  | exited (c : Connection) (o : Outcome)
  | aborted
  | asks (q : Question S) (next : q.Answer → Course S)
  /-- It goes on without a question. -/
  | goes (m : Course S)

/-- The ending of an evaluation that cannot go on by itself. -/
def Head.ending? : Head S → Option (Ending S)
  | exited c o => some (.exited c o)
  | aborted => some .aborted
  | asks q _ => some (.asking q)
  | goes _ => none

/-- The outcome that an evaluation has come to. -/
def Head.outcome? (head : Head S) : Option Outcome :=
  head.ending?.bind Ending.outcome?

@[simp]
theorem Head.outcome?_exited (c : Connection) (o : Outcome) :
    (exited c o : Head S).outcome? = some o :=
  rfl

@[simp]
theorem Head.outcome?_aborted : (aborted : Head S).outcome? = some (.error .cancelled) :=
  rfl

@[simp]
theorem Head.outcome?_asks (q : Question S) (next : q.Answer → Course S) :
    (asks q next).outcome? = none :=
  rfl

@[simp]
theorem Head.outcome?_goes (m : Course S) : (goes m).outcome? = none :=
  rfl

/-- What an evaluation does next.  In a sequence the source has the first turn. -/
def Course.head : Course S → Head S
  | exit c o => .exited c o
  | abort => .aborted
  | ask q next => .asks q next
  | eval c e => .asks (.canceled c) fun b => if b then abort else e.move c
  | seq m frame =>
    match m.head with
    | .exited c o => .goes (frame.move c o)
    | .aborted => .aborted
    | .asks q next => .asks q fun a => seq (next a) frame
    | .goes m' => .goes (seq m' frame)

section

variable {m : Course S}

theorem Course.head_seq_goes {m' : Course S} (h : m.head = .goes m') (frame : Frame S) :
    (seq m frame).head = .goes (seq m' frame) := by
  simp only [head, h]

theorem Course.head_seq_exited {c : Connection} {o : Outcome} (h : m.head = .exited c o)
    (frame : Frame S) : (seq m frame).head = .goes (frame.move c o) := by
  simp only [head, h]

theorem Course.head_seq_aborted (h : m.head = .aborted) (frame : Frame S) :
    (seq m frame).head = .aborted := by
  simp only [head, h]

theorem Course.head_seq_asks {q : Question S} {next : q.Answer → Course S}
    (h : m.head = .asks q next) (frame : Frame S) :
    (seq m frame).head = .asks q fun a => seq (next a) frame := by
  simp only [head, h]

end

/-- With these answers, one evaluation becomes another. -/
inductive Proceeds : Course S → List (Exchange S) → Course S → Prop
  | refl (m : Course S) : Proceeds m [] m
  | goes {m m' n : Course S} {xs : List (Exchange S)} (hm : m.head = .goes m')
      (h : Proceeds m' xs n) : Proceeds m xs n
  | answered {m n : Course S} {q : Question S} {next : q.Answer → Course S} {a : q.Answer}
      {xs : List (Exchange S)} (hm : m.head = .asks q next) (h : Proceeds (next a) xs n) :
      Proceeds m (⟨q, a⟩ :: xs) n

namespace Proceeds

variable {m n k : Course S} {xs ys : List (Exchange S)}

theorem trans (h : Proceeds m xs n) (h' : Proceeds n ys k) : Proceeds m (xs ++ ys) k := by
  induction h with
  | refl m => exact h'
  | goes hm _ ih => exact .goes hm (ih h')
  | answered hm _ ih => exact .answered hm (ih h')

/-- One step without a question. -/
theorem go (hm : m.head = .goes n) : Proceeds m [] n :=
  .goes hm (.refl n)

/-- One step with a question and its answer. -/
theorem reply {q : Question S} {next : q.Answer → Course S} (hm : m.head = .asks q next)
    (a : q.Answer) : Proceeds m [⟨q, a⟩] (next a) :=
  .answered hm (.refl _)

/-- A node is met with a look at the connection. -/
theorem look (c : Connection) (e : Effect S) (canceled : Bool) :
    Proceeds (.eval c e) [⟨.canceled c, canceled⟩] (if canceled then .abort else e.move c) := by
  have hhead : (Course.eval c e).head =
      .asks (.canceled c) fun b => if b then .abort else e.move c := rfl
  exact .answered hhead (.refl _)

/-- An evaluation that asks has asked, or it has gone on with an answer. -/
theorem taken (h : Proceeds m xs n) {q : Question S} {next : q.Answer → Course S}
    (hm : m.head = .asks q next) :
    xs = [] ∧ n = m ∨ ∃ a ys, xs = ⟨q, a⟩ :: ys ∧ Proceeds (next a) ys n := by
  cases h with
  | refl m => exact .inl ⟨rfl, rfl⟩
  | goes hm' h =>
      rw [hm] at hm'
      cases hm'
  | answered hm' h =>
      rw [hm] at hm'
      cases hm'
      exact .inr ⟨_, _, rfl, h⟩

/-- An evaluation that goes on without a question has not done so yet, or it has. -/
theorem gone (h : Proceeds m xs n) (hm : m.head = .goes k) :
    xs = [] ∧ n = m ∨ Proceeds k xs n := by
  cases h with
  | refl m => exact .inl ⟨rfl, rfl⟩
  | goes hm' h =>
      rw [hm] at hm'
      cases hm'
      exact .inr h
  | answered hm' h =>
      rw [hm] at hm'
      cases hm'

/-- Two evaluations that have come from one with the same answers: with more answers the
second has come further, and with no more it may be behind. -/
theorem diverge (h : Proceeds m xs n) (hk : Proceeds m (xs ++ ys) k) :
    Proceeds n ys k ∨ ys = [] ∧ Proceeds k [] n := by
  induction h with
  | refl m => exact .inl hk
  | goes hm h ih =>
      rcases hk.gone hm with ⟨hnil, rfl⟩ | hk
      · obtain ⟨rfl, rfl⟩ := List.append_eq_nil_iff.mp hnil
        exact .inr ⟨rfl, .goes hm h⟩
      · exact ih hk
  | answered hm _ ih =>
      rcases hk.taken hm with ⟨hnil, -⟩ | ⟨a, zs, hcons, hk⟩
      · cases hnil
      · cases hcons
        exact ih hk

/-- An evaluation that has its outcome does not go on. -/
theorem of_outcome (h : Proceeds m xs n) {o : Outcome} (hm : m.head.outcome? = some o) :
    xs = [] ∧ n = m := by
  cases h with
  | refl m => exact ⟨rfl, rfl⟩
  | goes hm' h => simp [hm'] at hm
  | answered hm' h => simp [hm'] at hm

/-- The source of a sequence proceeds as it does by itself. -/
theorem seq (h : Proceeds m xs n) (frame : Frame S) :
    Proceeds (.seq m frame) xs (.seq n frame) := by
  induction h with
  | refl m => exact .refl _
  | goes hm _ ih => exact .goes (Course.head_seq_goes hm frame) ih
  | answered hm _ ih => exact .answered (Course.head_seq_asks hm frame) ih

/-- An evaluation proceeds in front of frames as it does by itself. -/
theorem within (h : Proceeds m xs n) (frames : List (Frame S)) :
    Proceeds (m.within frames) xs (n.within frames) := by
  induction frames generalizing m n with
  | nil => exact h
  | cons frame frames ih => exact ih (h.seq frame)

end Proceeds

/-! ## Both evaluators agree -/

/-- An evaluation that cannot go on by itself has come to its ending. -/
theorem evaluates_of_ending {m : Course S} {r : Ending S} (h : m.head.ending? = some r) :
    Evaluates m [] r := by
  induction m generalizing r with
  | exit c o =>
      cases h
      exact .exit c o
  | abort =>
      cases h
      exact .abort
  | ask q next _ =>
      cases h
      exact .asking q next
  | eval c e =>
      cases h
      exact .look (.asking _ _)
  | seq m frame ih =>
      simp only [Course.head] at h
      cases hm : m.head with
      | exited c o => simp [hm, Head.ending?] at h
      | goes m' => simp [hm, Head.ending?] at h
      | aborted =>
          simp only [hm, Head.ending?, Option.some.injEq] at h
          subst h
          exact .aborted (ih (by rw [hm]; rfl))
      | asks q next =>
          simp only [hm, Head.ending?, Option.some.injEq] at h
          subst h
          exact .waits (ih (by rw [hm]; rfl))

/-- A step without a question may come before an evaluation. -/
theorem Evaluates.of_goes {m m' : Course S} {xs : List (Exchange S)} {r : Ending S}
    (hm : m.head = .goes m') (h : Evaluates m' xs r) : Evaluates m xs r := by
  induction m generalizing m' xs r with
  | exit c o => cases hm
  | abort => cases hm
  | ask q next _ => cases hm
  | eval c e => cases hm
  | seq m frame ih =>
      simp only [Course.head] at hm
      cases hh : m.head with
      | aborted => simp [hh] at hm
      | asks q next => simp [hh] at hm
      | exited c o =>
          simp only [hh, Head.goes.injEq] at hm
          subst hm
          exact .frame (evaluates_of_ending (by rw [hh]; rfl)) h
      | goes n =>
          simp only [hh, Head.goes.injEq] at hm
          subst hm
          cases h with
          | frame source h => exact .frame (ih hh source) h
          | aborted source => exact .aborted (ih hh source)
          | waits source => exact .waits (ih hh source)

/-- A question and its answer may come before an evaluation. -/
theorem Evaluates.of_asks {m : Course S} {q : Question S} {next : q.Answer → Course S}
    {a : q.Answer} {xs : List (Exchange S)} {r : Ending S} (hm : m.head = .asks q next)
    (h : Evaluates (next a) xs r) : Evaluates m (⟨q, a⟩ :: xs) r := by
  induction m generalizing q xs r with
  | exit c o => cases hm
  | abort => cases hm
  | ask q next _ =>
      cases hm
      exact .answered h
  | eval c e =>
      cases hm
      exact .look (.answered h)
  | seq m frame ih =>
      simp only [Course.head] at hm
      cases hh : m.head with
      | aborted => simp [hh] at hm
      | exited c o => simp [hh] at hm
      | goes n => simp [hh] at hm
      | asks q' next' =>
          simp only [hh] at hm
          cases hm
          cases h with
          | frame source h => exact .frame (ih hh source) h
          | aborted source => exact .aborted (ih hh source)
          | waits source => exact .waits (ih hh source)

/-- What an evaluation becomes with some answers comes to its ending with more answers
where the evaluation does with both. -/
theorem Proceeds.evaluates {m n : Course S} {xs ys : List (Exchange S)} {r : Ending S}
    (h : Proceeds m xs n) (hn : Evaluates n ys r) : Evaluates m (xs ++ ys) r := by
  induction h with
  | refl m => exact hn
  | goes hm _ ih => exact .of_goes hm (ih hn)
  | answered hm _ ih => exact .of_asks hm (ih hn)

/-- An evaluation that comes to an ending proceeds to one that cannot go on by itself. -/
theorem Evaluates.proceeds {m : Course S} {xs : List (Exchange S)} {r : Ending S}
    (h : Evaluates m xs r) : ∃ n, Proceeds m xs n ∧ n.head.ending? = some r := by
  induction h with
  | exit c o => exact ⟨_, .refl _, rfl⟩
  | abort => exact ⟨_, .refl _, rfl⟩
  | asking q next => exact ⟨_, .refl _, rfl⟩
  | answered h ih =>
      obtain ⟨n, hn, hr⟩ := ih
      exact ⟨n, .answered rfl hn, hr⟩
  | look h ih =>
      -- The node asks as soon as it is met, so it has no step of its own.
      obtain ⟨n, hn, hr⟩ := ih
      cases hn with
      | refl => exact ⟨_, .refl _, hr⟩
      | goes hm hn => cases hm
      | answered hm hn =>
          cases hm
          exact ⟨n, .answered rfl hn, hr⟩
  | @frame m frame xs ys c o r source h ihs ih =>
      obtain ⟨n, hn, hexit⟩ := ihs
      obtain ⟨k, hk, hr⟩ := ih
      have hhead : n.head = .exited c o := by
        cases hh : n.head <;> simp_all [Head.ending?]
      have hgo : Proceeds (.seq n frame) [] (frame.move c o) :=
        .go (Course.head_seq_exited hhead frame)
      exact ⟨k, (hn.seq frame).trans (hgo.trans hk), hr⟩
  | @aborted m frame xs source ih =>
      obtain ⟨n, hn, hr⟩ := ih
      have hhead : n.head = .aborted := by
        cases hh : n.head <;> simp_all [Head.ending?]
      exact ⟨.seq n frame, hn.seq frame, by rw [Course.head_seq_aborted hhead]; rfl⟩
  | @waits m frame xs q source ih =>
      obtain ⟨n, hn, hr⟩ := ih
      refine ⟨.seq n frame, hn.seq frame, ?_⟩
      cases hh : n.head <;> simp_all [Course.head, Head.ending?]

/-- The evaluator by recursion and the evaluator in steps agree. -/
theorem evaluates_iff_proceeds {m : Course S} {xs : List (Exchange S)} {r : Ending S} :
    Evaluates m xs r ↔ ∃ n, Proceeds m xs n ∧ n.head.ending? = some r := by
  constructor
  · exact Evaluates.proceeds
  · rintro ⟨n, hn, hr⟩
    simpa using hn.evaluates (evaluates_of_ending hr)

/-! ## The end follows from the answers -/

/-- With more answers, an evaluation goes on from what it has become with the first. -/
theorem Proceeds.split {m n k : Course S} {xs ys : List (Exchange S)} {r : Ending S}
    (h : Proceeds m xs n) (hk : Proceeds m (xs ++ ys) k) (hr : k.head.ending? = some r) :
    ∃ k', Proceeds n ys k' ∧ k'.head.ending? = some r := by
  rcases h.diverge hk with hrest | ⟨rfl, hback⟩
  · exact ⟨k, hrest, hr⟩
  · cases hback with
    | refl m => exact ⟨n, .refl n, hr⟩
    | goes hm _ => simp [hm, Head.ending?] at hr

/-- What an evaluation becomes with some answers comes to the endings with more answers
that the evaluation comes to with both, and to no others. -/
theorem Proceeds.evaluates_iff {m n : Course S} {xs ys : List (Exchange S)} {r : Ending S}
    (h : Proceeds m xs n) : Evaluates m (xs ++ ys) r ↔ Evaluates n ys r := by
  constructor
  · intro hm
    obtain ⟨k, hk, hr⟩ := hm.proceeds
    exact evaluates_iff_proceeds.mpr (h.split hk hr)
  · exact h.evaluates

/-- An evaluation that cannot go on by itself comes to no ending but its own. -/
theorem evaluates_nil_iff {m : Course S} {r r' : Ending S} (hr : m.head.ending? = some r) :
    Evaluates m [] r' ↔ r' = r := by
  constructor
  · intro h
    obtain ⟨n, hn, hr'⟩ := h.proceeds
    cases hn with
    | refl m =>
        rw [hr] at hr'
        exact (Option.some.inj hr').symm
    | goes hm hn => simp [hm, Head.ending?] at hr
  · rintro rfl
    exact evaluates_of_ending hr

/-- With the same answers, an evaluation comes to one ending only. -/
theorem Evaluates.unique {m : Course S} {xs : List (Exchange S)} {r r' : Ending S}
    (h : Evaluates m xs r) (h' : Evaluates m xs r') : r = r' := by
  obtain ⟨n, hn, hr⟩ := h.proceeds
  rw [← List.append_nil xs, hn.evaluates_iff, evaluates_nil_iff hr] at h'
  exact h'.symm

/-- Each answer that an evaluation takes is the answer to the question that it asks with
the answers before. -/
theorem Proceeds.asked {m n : Course S} {xs ys : List (Exchange S)} {x : Exchange S}
    (h : Proceeds m (xs ++ x :: ys) n) : Evaluates m xs (.asking x.question) := by
  generalize hz : xs ++ x :: ys = zs at h
  induction h generalizing xs with
  | refl m => simp at hz
  | goes hm _ ih => exact .of_goes hm (ih hz)
  | answered hm _ ih =>
      cases xs with
      | nil =>
          rw [List.nil_append, List.cons.injEq] at hz
          rw [hz.1]
          exact evaluates_of_ending (by rw [hm]; rfl)
      | cons x' xs =>
          rw [List.cons_append, List.cons.injEq] at hz
          rw [hz.1]
          exact .of_asks hm (ih hz.2)

end Trampoline
