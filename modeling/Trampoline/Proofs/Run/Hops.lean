import Mathlib.Data.List.Forall2
import Trampoline.Proofs.Run.Reference

/-!
# Hops

A hop is an asynchronous boundary whose registration does nothing but complete its callback
with an outcome.  Put in the place of that outcome it costs the evaluator a look at the
connection and a question, whose answer is known, and then the evaluation goes on as it
would have.  Two evaluations that differ in hops stay in step, as long as their
surroundings answer alike.

Main definitions and results:

- Definition `Effect.Hops`: an effect with hops in the place of outcomes.
- Definitions `Course.Hops`, `Hopping`: two evaluations in step, and one of them in the
  middle of a hop.
- Definition `Hopped`: the exchanges of both, up to hops.
- Theorem `Course.Hops.head`: evaluations in step do the same next, up to a hop.
- Definition `AnswersAlike`, theorem `Proceeds.compares`: with answers that are alike they
  stay in step.
-/

namespace Trampoline

variable {S : Closures} (hop : S.Registration → Option Outcome)

/-! ## Effects, questions and answers up to hops -/

/-- An effect and the same with hops in the place of some of its outcomes.  `hop k` is what
registration `k` completes its callback with, if it does nothing else. -/
inductive Effect.Hops : Effect S → Effect S → Prop
  | hop {o : Outcome} {k : S.Registration} (h : hop k = some o) : Hops (.ofOutcome o) (.async k)
  | pure (v : Value) : Hops (.pure v) (.pure v)
  | fail (e : Failure) : Hops (.fail e) (.fail e)
  | suspend (k : S.Thunk) : Hops (.suspend k) (.suspend k)
  | delay (k : S.Delay) : Hops (.delay k) (.delay k)
  | async (k : S.Registration) : Hops (.async k) (.async k)
  | deferred (context : Context S.Executor) (b : Body S) :
      Hops (.deferred context b) (.deferred context b)
  | parked {n n' : Effect S} (h : Hops n n') (stack : CallStack (Frame S)) :
      Hops (.parked n stack) (.parked n' stack)
  | bind {e e' : Effect S} (h : Hops e e') (frame : Frame S) : Hops (.bind e frame) (.bind e' frame)
  | map {e e' : Effect S} (h : Hops e e') (f : S.Map) : Hops (.map e f) (.map e' f)
  | continueOn (context : Context S.Executor) {e e' : Effect S} (h : Hops e e') :
      Hops (.continueOn context e) (.continueOn context e')
  | switchConnection {e e' : Effect S} (h : Hops e e') (modify : Modifier S)
      (restore : Option (Restorer S)) :
      Hops (.switchConnection e modify restore) (.switchConnection e' modify restore)

/-- Nodes that code has come back with, up to hops. -/
inductive NodeHops : Except Failure (Effect S) → Except Failure (Effect S) → Prop
  | ok {e e' : Effect S} (h : e.Hops hop e') : NodeHops (.ok e) (.ok e')
  | error (e : Failure) : NodeHops (.error e) (.error e)

/-- Answers to a question, up to hops. -/
def Question.AnswersHop : (q : Question S) → q.Answer → q.Answer → Prop
  | .thunk _, a, a' | .bind _ _, a, a' | .handler _ _, a, a' => NodeHops hop a a'
  | .canceled _, a, a' => a = a'
  | .modify _ _, a, a' | .restore _ _ _ _, a, a' => a = a'
  | .delay _, a, a' | .map _ _, a, a' | .rescue _ _, a, a' | .async _ _, a, a'
  | .parked _ _ _, a, a' | .deferred _ _ _, a, a' => a = a'

/-- Questions up to hops: only the node that a partial evaluation has left may differ. -/
inductive Question.Hops : Question S → Question S → Prop
  | same (q : Question S) : Hops q q
  | parked {n n' : Effect S} (h : n.Hops hop n') (stack : CallStack (Frame S)) (c : Connection) :
      Hops (.parked n stack c) (.parked n' stack c)

/-- Exchanges up to hops. -/
inductive Exchange.Hops : Exchange S → Exchange S → Prop
  | same (q : Question S) {a a' : q.Answer} (h : q.AnswersHop hop a a') : Hops ⟨q, a⟩ ⟨q, a'⟩
  | parked {n n' : Effect S} (h : n.Hops hop n') (stack : CallStack (Frame S)) (c : Connection)
      (o : Outcome) : Hops ⟨.parked n stack c, o⟩ ⟨.parked n' stack c, o⟩

/-- The exchanges of an evaluation, and those of one with hops: a hop adds a look at the
connection and the question for its outcome. -/
inductive Hopped : List (Exchange S) → List (Exchange S) → Prop
  | nil : Hopped [] []
  | snoc {xs xs' : List (Exchange S)} (h : Hopped xs xs') {x x' : Exchange S}
      (hx : x.Hops hop x') : Hopped (xs ++ [x]) (xs' ++ [x'])
  | hop {xs xs' : List (Exchange S)} (h : Hopped xs xs') {k : S.Registration} {o : Outcome}
      (hk : hop k = some o) (c : Connection) :
      Hopped xs (xs' ++ [⟨.canceled c, false⟩, ⟨.async k c, o⟩])

/-- The last exchange is the question for the outcome of a hop. -/
def EndsInHop (xs : List (Exchange S)) : Prop :=
  ∃ ys k c o, xs = ys ++ [⟨.async k c, o⟩] ∧ (hop k).isSome

/-- After exchanges that are the same up to hops, questions that are the same up to hops
have answers that are the same up to hops.  Nothing is said about the look that follows a
hop. -/
def AnswersAlike (ex ex' : List (Exchange S)) : Prop :=
  ∀ xs x ys xs' x' ys', ex = xs ++ x :: ys → ex' = xs' ++ x' :: ys' → Hopped hop xs xs' →
    ¬EndsInHop hop xs' → x.question.Hops hop x'.question → x.Hops hop x'

/-- The same, wherever the question stands. -/
def AlwaysAlike (ex ex' : List (Exchange S)) : Prop :=
  ∀ xs x ys xs' x' ys', ex = xs ++ x :: ys → ex' = xs' ++ x' :: ys' → Hopped hop xs xs' →
    x.question.Hops hop x'.question → x.Hops hop x'

/-- A hop completes with its outcome, and the connection is found not to be canceled after
it. -/
structure HopsPass (ex : List (Exchange S)) : Prop where
  outcome : ∀ k c a o, (⟨.async k c, a⟩ : Exchange S) ∈ ex → hop k = some o → a = o
  look : ∀ xs k c o x ys, ex = xs ++ ⟨.async k c, o⟩ :: x :: ys → (hop k).isSome →
    x = ⟨.canceled c, false⟩

/-! ## Evaluations in step -/

/-- Two evaluations that differ in hops only. -/
inductive Course.Hops : Course S → Course S → Prop
  | exit (c : Connection) (o : Outcome) : Hops (.exit c o) (.exit c o)
  | abort : Hops .abort .abort
  | eval (c : Connection) {e e' : Effect S} (h : e.Hops hop e') : Hops (.eval c e) (.eval c e')
  | seq {m m' : Course S} (h : Hops m m') (frame : Frame S) : Hops (.seq m frame) (.seq m' frame)
  | ask {q q' : Question S} {next : q.Answer → Course S} {next' : q'.Answer → Course S}
      (hq : q.Hops hop q')
      (h : ∀ a a', Exchange.Hops hop ⟨q, a⟩ ⟨q', a'⟩ → Hops (next a) (next' a')) :
      Hops (.ask q next) (.ask q' next')

/-- One evaluation waits for the outcome of a hop while the other has it. -/
inductive Hopping (k : S.Registration) (c : Connection) (o : Outcome) :
    Course S → Course S → Prop
  | here : Hopping k c o (.eval c (.ofOutcome o)) (.ask (.async k c) (.completion c))
  | seq {m m' : Course S} (h : Hopping k c o m m') (frame : Frame S) :
      Hopping k c o (.seq m frame) (.seq m' frame)

/-- What two evaluations in step do next: the same, but for a hop that may begin where the
connection is found not to be canceled. -/
inductive HeadHops (m : Course S) : Head S → Head S → Prop
  | exited (c : Connection) (o : Outcome) : HeadHops m (.exited c o) (.exited c o)
  | aborted : HeadHops m .aborted .aborted
  | goes {n n' : Course S} (h : n.Hops hop n') : HeadHops m (.goes n) (.goes n')
  | asks {q q' : Question S} {next : q.Answer → Course S} {next' : q'.Answer → Course S}
      (hq : q.Hops hop q')
      (h : ∀ a a', Exchange.Hops hop ⟨q, a⟩ ⟨q', a'⟩ → (next a).Hops hop (next' a') ∨
        ∃ k c o, hop k = some o ∧ (⟨q', a'⟩ : Exchange S) = ⟨.canceled c, false⟩ ∧
          Hopping k c o m (next' a')) :
      HeadHops m (.asks q next) (.asks q' next')

variable {hop}

namespace Effect.Hops

/-- An effect has itself with no hops. -/
theorem refl (e : Effect S) : e.Hops hop e := by
  induction e with
  | pure v => exact .pure v
  | fail e => exact .fail e
  | suspend k => exact .suspend k
  | delay k => exact .delay k
  | async k => exact .async k
  | deferred context b => exact .deferred context b
  | parked n stack ih => exact .parked ih stack
  | bind e frame ih => exact .bind ih frame
  | map e f ih => exact .map ih f
  | continueOn context e ih => exact .continueOn context ih
  | switchConnection e modify restore ih => exact .switchConnection ih modify restore

end Effect.Hops

/-- The outcomes of what two partial evaluations have left are the same. -/
theorem Exchange.Hops.parked_eq {n n' : Effect S} {stack : CallStack (Frame S)} {c : Connection}
    {o o' : Outcome}
    (h : Exchange.Hops hop ⟨.parked n stack c, o⟩ ⟨.parked n' stack c, o'⟩) : o = o' := by
  generalize hy : (⟨.parked n stack c, o⟩ : Exchange S) = y at h
  generalize hy' : (⟨.parked n' stack c, o'⟩ : Exchange S) = y' at h
  cases h with
  | same q hq =>
      cases hy
      cases hy'
      exact hq
  | parked hn stack c o =>
      cases hy
      cases hy'
      rfl

namespace Course.Hops

variable {c : Connection}

/-- What code comes back with differs in hops as the nodes do. -/
theorem node {a a' : Except Failure (Effect S)} (h : NodeHops hop a a') :
    (Course.node c a).Hops hop (.node c a') := by
  cases h with
  | ok h => exact .eval c h
  | error e => exact .eval c (.refl _)

/-- A completion is the same on both sides. -/
theorem completion (c : Connection) (o : Outcome) :
    (Course.completion c o : Course S).Hops hop (.completion c o) :=
  .eval c (.refl _)

/-- A result is the same on both sides. -/
theorem result (c : Connection) (o : Outcome) :
    (Course.result c o : Course S).Hops hop (.result c o) := by
  cases o with
  | ok v => exact .exit c (.ok v)
  | error e => exact .eval c (.refl _)

/-- Two evaluations that ask the same and go on in step are in step. -/
theorem ask_same {q : Question S} {next next' : q.Answer → Course S}
    (h : ∀ a a', q.AnswersHop hop a a' → (next a).Hops hop (next' a')) :
    (Course.ask q next).Hops hop (.ask q next') := by
  refine .ask (.same q) fun a a' hx => ?_
  generalize hy : (⟨q, a⟩ : Exchange S) = y at hx
  generalize hy' : (⟨q, a'⟩ : Exchange S) = y' at hx
  cases hx with
  | same q' hq =>
      cases hy
      cases hy'
      exact h _ _ hq
  | parked hn stack c o =>
      cases hy
      cases hy'
      exact h _ _ rfl

/-- A binder is the same on both sides. -/
theorem binder (f : Binder S) (c : Connection) (v : Value) :
    (f.move c v).Hops hop (f.move c v) := by
  cases f with
  | user k => exact ask_same fun a a' h => node h
  | pure => exact .eval c (.refl _)
  | shift context => exact .eval c (.refl _)

/-- A handler is the same on both sides. -/
theorem recovery (f : Recovery S) (c : Connection) (e : Failure) :
    (f.move c e).Hops hop (f.move c e) := by
  cases f with
  | user k => exact ask_same fun a a' h => node h
  | rescue k =>
      refine ask_same fun a a' h => ?_
      cases h
      exact completion c a
  | reify => exact .eval c (.refl _)

/-- A frame does the same with an exit in both evaluations. -/
theorem frame (f : Frame S) (c : Connection) (o : Outcome) :
    (f.move c o).Hops hop (f.move c o) := by
  cases o with
  | ok v =>
      cases f with
      | bind f => exact binder f c v
      | map k =>
          refine ask_same fun a a' h => ?_
          cases h
          exact completion c a
      | handle h => exact .exit c (.ok v)
      | fold f g => exact binder f c v
      | restore old r => exact .eval c (.refl _)
  | error e =>
      cases f with
      | bind f => exact .exit c (.error e)
      | map k => exact .exit c (.error e)
      | handle h => exact recovery h c e
      | fold f g => exact recovery g c e
      | restore old r => exact .eval c (.refl _)

/-- A region differs in hops as its source does. -/
theorem region {e e' : Effect S} (h : e.Hops hop e') (restore : Option (Restorer S))
    (old new : Connection) :
    (Course.region e restore old new).Hops hop (.region e' restore old new) := by
  cases restore with
  | none => exact .eval new h
  | some r => exact .eval new (.bind h _)

/-- The choice of a connection is the same in both evaluations. -/
theorem choose (m : Modifier S) (c : Connection) {next next' : Connection → Course S}
    (h : ∀ new, (next new).Hops hop (next' new)) :
    (m.choose c next).Hops hop (m.choose c next') := by
  have hconnection : ∀ r, (Course.connection c next r).Hops hop (.connection c next' r) := by
    intro r
    cases r with
    | ok new => exact h new
    | error e => exact .eval c (.refl _)
  cases m with
  | user k =>
      refine ask_same fun a a' ha => ?_
      cases ha
      exact hconnection a
  | uncancelable => exact h _
  | restoring exit old r =>
      cases r with
      | user k =>
          refine ask_same fun a a' ha => ?_
          cases ha
          exact hconnection a
      | old => exact h old

/-- A node does the same in both evaluations, unless it is a hop in one of them. -/
theorem move {e e' : Effect S} (h : e.Hops hop e') (c : Connection) :
    (e.move c).Hops hop (e'.move c) ∨
      ∃ k o, hop k = some o ∧ e = .ofOutcome o ∧ e' = .async k := by
  cases h with
  | @hop o k hk => exact .inr ⟨k, o, hk, rfl, rfl⟩
  | pure v => exact .inl (.exit c (.ok v))
  | fail e => exact .inl (.exit c (.error e))
  | suspend k => exact .inl (ask_same fun a a' h => node h)
  | delay k =>
      refine .inl (ask_same fun a a' h => ?_)
      cases h
      exact result c a
  | async k =>
      refine .inl (ask_same fun a a' h => ?_)
      cases h
      exact completion c a
  | deferred context b =>
      refine .inl (ask_same fun a a' h => ?_)
      cases h
      exact completion c a
  | parked hn stack =>
      refine .inl (.ask (.parked hn stack c) fun a a' hx => ?_)
      cases hx.parked_eq
      exact completion c a
  | bind h f => exact .inl (.seq (.eval c h) f)
  | map h f => exact .inl (.seq (.eval c h) _)
  | continueOn context h => exact .inl (.eval c (.bind h _))
  | switchConnection h modify restore =>
      exact .inl (choose modify c fun new => region h restore c new)

end Course.Hops

/-- One evaluation in the middle of a hop asks for its outcome, and is in step with the other
one after that. -/
theorem Hopping.head (hop : S.Registration → Option Outcome) {k : S.Registration}
    {c : Connection} {o : Outcome} {m m' : Course S} (h : Hopping k c o m m') :
    ∃ next : Outcome → Course S,
      m'.head = .asks (.async k c) next ∧ m.Hops hop (next o) := by
  induction h with
  | here => exact ⟨_, rfl, .completion c o⟩
  | seq h frame ih =>
      obtain ⟨next, hhead, hnext⟩ := ih
      exact ⟨fun a => .seq (next a) frame, Course.head_seq_asks hhead frame, .seq hnext frame⟩

/-- Two evaluations in step do the same next, but for a hop that may begin. -/
theorem Course.Hops.head {m m' : Course S} (h : m.Hops hop m') :
    HeadHops hop m m.head m'.head := by
  induction h with
  | exit c o => exact .exited c o
  | abort => exact .aborted
  | ask hq h _ => exact .asks hq fun a a' hx => .inl (h a a' hx)
  | @eval c e e' he =>
      refine .asks (.same _) fun a a' hx => ?_
      have ha : a = a' := by
        generalize hy : (⟨.canceled c, a⟩ : Exchange S) = y at hx
        generalize hy' : (⟨.canceled c, a'⟩ : Exchange S) = y' at hx
        cases hx with
        | same q hq =>
            cases hy
            cases hy'
            exact hq
        | parked hn stack c o => cases hy
      subst ha
      cases a with
      | true => exact .inl .abort
      | false =>
          rcases Course.Hops.move he c with hmove | ⟨k, o, hk, rfl, rfl⟩
          · exact .inl hmove
          · exact .inr ⟨k, c, o, hk, rfl, .here⟩
  | @seq m m' hm frame ih =>
      simp only [Course.head]
      generalize m.head = head at ih
      generalize m'.head = head' at ih
      cases ih with
      | exited c o => exact .goes (.frame frame c o)
      | aborted => exact .aborted
      | goes h => exact .goes (.seq h frame)
      | asks hq h =>
          refine .asks hq fun a a' hx => ?_
          rcases h a a' hx with hnext | ⟨k, c, o, hk, hx', hnext⟩
          · exact .inl (.seq hnext frame)
          · exact .inr ⟨k, c, o, hk, hx', .seq hnext frame⟩

/-! ## Looks after hops -/

/-- The outcome of an asynchronous boundary is the answer to the question for it, in both. -/
theorem Exchange.Hops.async_eq {x : Exchange S} {k : S.Registration} {c : Connection} {o : Outcome}
    (h : x.Hops hop ⟨.async k c, o⟩) : x = ⟨.async k c, o⟩ := by
  generalize hy : (⟨.async k c, o⟩ : Exchange S) = y at h
  cases h with
  | same q hq =>
      cases hy
      cases hq
      rfl
  | parked hn stack c o => cases hy

/-- One more exchange after exchanges in which hops pass. -/
theorem HopsPass.snoc {ex : List (Exchange S)} {x : Exchange S} (h : HopsPass hop ex)
    (outcome : ∀ k c a o, x = ⟨.async k c, a⟩ → hop k = some o → a = o)
    (look : ∀ xs k c o, ex = xs ++ [⟨.async k c, o⟩] → (hop k).isSome → x = ⟨.canceled c, false⟩) :
    HopsPass hop (ex ++ [x]) where
  outcome := by
    intro k c a o hmem hk
    rcases List.mem_append.mp hmem with hmem | hmem
    · exact h.outcome k c a o hmem hk
    · exact outcome k c a o (List.mem_singleton.mp hmem).symm hk
  look := by
    intro xs k c o y ys hex hk
    have hsplit : ex ++ [x] = (xs ++ [⟨.async k c, o⟩]) ++ y :: ys := by simpa using hex
    rcases split_concat hsplit with ⟨hxs, rfl⟩ | ⟨ys', hys⟩
    · exact look xs k c o hxs hk
    · exact h.look xs k c o y ys' (by simpa using hys) hk

/-- A look at a connection is the same in both. -/
theorem Exchange.Hops.canceled (c : Connection) (b : Bool) :
    Exchange.Hops hop ⟨.canceled c, b⟩ (⟨.canceled c, b⟩ : Exchange S) := by
  refine .same _ ?_
  rfl

/-- Answers that are alike wherever they stand are alike. -/
theorem AnswersAlike.of_forall {ex ex' : List (Exchange S)}
    (h : ∀ x ∈ ex, ∀ x' ∈ ex', x.question.Hops hop x'.question → x.Hops hop x') :
    AnswersAlike hop ex ex' := by
  rintro xs x ys xs' x' ys' rfl rfl - - hq
  exact h x (by simp) x' (by simp) hq

/-- Where hops pass, the looks that follow them are alike as well: the look that one
evaluation has after a hop is the one that the other has had before it. -/
theorem AnswersAlike.always {ex ex' : List (Exchange S)} (h : AnswersAlike hop ex ex')
    (pass : HopsPass hop ex) (pass' : HopsPass hop ex') : AlwaysAlike hop ex ex' := by
  intro xs x ys xs' x' ys' hex hex' hopped hq
  generalize hlen : xs'.length = len
  induction len using Nat.strongRecOn generalizing xs x ys xs' x' ys' with
  | ind len ih =>
      by_cases hends : EndsInHop hop xs'
      · obtain ⟨zs', k, c, o, hxs', hk⟩ := hends
        have hx' : x' = ⟨.canceled c, false⟩ :=
          pass'.look zs' k c o x' ys' (by simp [hex', hxs']) hk
        subst hx'
        cases hopped with
        | nil => simp at hxs'
        | @snoc xs xs' hopped y y' hy =>
            obtain ⟨-, hy'⟩ := List.append_inj' hxs' rfl
            rw [List.cons.injEq] at hy'
            have hy := hy'.1 ▸ hy
            have hx : x = ⟨.canceled c, false⟩ :=
              pass.look xs k c o x ys (by simp [hex, hy.async_eq]) hk
            rw [hx]
            exact .canceled c false
        | @hop xs xs' hopped k' o' hk' c' =>
            have hxs'' : (xs' ++ [⟨.canceled c', false⟩]) ++ [⟨.async k' c', o'⟩] =
                zs' ++ [(⟨.async k c, o⟩ : Exchange S)] := by simpa using hxs'
            obtain ⟨-, hlast⟩ := List.append_inj' hxs'' rfl
            cases hlast
            refine ih xs'.length (by simp at hlen; omega) xs x ys xs' ⟨.canceled c, false⟩
              (⟨.async k c, o⟩ :: ⟨.canceled c, false⟩ :: ys') hex ?_ hopped hq rfl
            simp [hex']
      · exact h xs x ys xs' x' ys' hex hex' hopped hends hq

/-! ## Evaluations stay in step -/

/-- How two evaluations that differ in hops stand, with the exchanges so far: the first has
come as far as the other at some point, the other has come as far as the first at some
point, or the other is in the middle of a hop. -/
inductive Compares (hop : S.Registration → Option Outcome) (ex ex' : List (Exchange S))
    (n n' : Course S) : Prop
  | left {zs ys : List (Exchange S)} {m : Course S} (split : ex' = zs ++ ys)
      (hopped : Hopped hop ex zs) (step : n.Hops hop m) (rest : Proceeds m ys n')
  | right {zs ys : List (Exchange S)} {m : Course S} (split : ex = zs ++ ys)
      (hopped : Hopped hop zs ex') (step : m.Hops hop n') (rest : Proceeds m ys n)
  | hopping {zs zs' ys : List (Exchange S)} {m : Course S} {k : S.Registration} {c : Connection}
      {o : Outcome} (split : ex = zs ++ ys) (split' : ex' = zs' ++ [⟨.canceled c, false⟩])
      (hopped : Hopped hop zs zs') (hk : hop k = some o) (step : Hopping k c o m n')
      (rest : Proceeds m ys n)

/-- With answers that are alike, and the right ones to hops, evaluations that differ in hops
stay in step. -/
theorem Proceeds.compares {m' n' : Course S} {xs' : List (Exchange S)}
    (right : Proceeds m' xs' n')
    (outcomes : ∀ k c a o, (⟨.async k c, a⟩ : Exchange S) ∈ xs' → hop k = some o → a = o) :
    (∀ {m n : Course S} {xs p p' : List (Exchange S)}, m.Hops hop m' → Proceeds m xs n →
      Hopped hop p p' → AlwaysAlike hop (p ++ xs) (p' ++ xs') →
      Compares hop (p ++ xs) (p' ++ xs') n n') ∧
    ∀ {m n : Course S} {xs p p' : List (Exchange S)} {k : S.Registration} {c : Connection}
      {o : Outcome}, hop k = some o → Hopping k c o m m' → Proceeds m xs n →
      Hopped hop p p' → AlwaysAlike hop (p ++ xs) (p' ++ ⟨.canceled c, false⟩ :: xs') →
      Compares hop (p ++ xs) (p' ++ ⟨.canceled c, false⟩ :: xs') n n' := by
  -- The induction is on the evaluation that may hop: while it hops, the other stands still.
  induction right with
  | refl m' =>
      refine ⟨fun step left hopped _ => ?_, fun hk step left hopped _ => ?_⟩
      · exact .right rfl (by simpa using hopped) step left
      · exact .hopping rfl rfl hopped hk step left
  | @goes m' m₁ n' xs' hm' right ih =>
      obtain ⟨ih, -⟩ := ih outcomes
      refine ⟨fun {m n xs p p'} step left hopped alike => ?_, fun hk step left hopped _ => ?_⟩
      · have hhead := step.head
        rw [hm'] at hhead
        generalize hm : m.head = head at hhead
        cases hhead with
        | goes h =>
            cases left with
            | refl => exact .left rfl (by simpa using hopped) step (.goes hm' right)
            | goes hm₁ left =>
                rw [hm] at hm₁
                cases hm₁
                exact ih h left hopped alike
            | answered hm₁ left =>
                rw [hm] at hm₁
                cases hm₁
      · obtain ⟨next, hhead, -⟩ := Hopping.head hop step
        rw [hm'] at hhead
        cases hhead
  | @answered m' n' q' next' a' xs' hm' right ih =>
      obtain ⟨ih, ihmid⟩ := ih fun k c a o hmem hk =>
        outcomes k c a o (List.mem_cons_of_mem _ hmem) hk
      refine ⟨fun {m n xs p p'} step left hopped alike => ?_,
        fun {m n xs p p' k c o} hk step left hopped alike => ?_⟩
      · have hhead := step.head
        rw [hm'] at hhead
        generalize hm : m.head = head at hhead
        cases hhead with
        | @asks q q' next next' hq h =>
            cases left with
            | refl => exact .left rfl (by simpa using hopped) step (.answered hm' right)
            | goes hm₁ left =>
                rw [hm] at hm₁
                cases hm₁
            | @answered _ _ _ _ a xs hm₁ left =>
                rw [hm] at hm₁
                cases hm₁
                have hx : Exchange.Hops hop ⟨q, a⟩ ⟨q', a'⟩ :=
                  alike p ⟨q, a⟩ xs p' ⟨q', a'⟩ xs' rfl rfl hopped hq
                rcases h a a' hx with hnext | ⟨k, c, o, hk, hcanceled, hnext⟩
                · simpa using ih hnext left (hopped.snoc hx) (by simpa using alike)
                · -- The other evaluation goes on alone until the hop is over.
                  rw [hcanceled] at alike ⊢
                  exact ihmid hk hnext (.answered hm left) hopped alike
      · obtain ⟨next, hhead, hnext⟩ := Hopping.head hop step
        rw [hm'] at hhead
        cases hhead
        have ha : a' = o := outcomes k c a' o (by simp) hk
        subst ha
        simpa using ih hnext left (hopped.hop hk c) (by simpa using alike)

/-! ## What both evaluations ask of the host -/

section Calls

variable (hop)

/-- A question runs code of the host, other than that of a hop. -/
def Question.isCall : Question S → Bool
  | .canceled _ => false
  | .async k _ => (hop k).isNone
  | _ => true

/-- The questions of exchanges that run code of the host. -/
def callsOf (xs : List (Exchange S)) : List (Question S) :=
  (xs.map Exchange.question).filter (Question.isCall hop)

variable {hop}

/-- Questions that are the same up to hops run code of the host both or not. -/
theorem Question.Hops.isCall_eq {q q' : Question S} (h : q.Hops hop q') :
    q.isCall hop = q'.isCall hop := by
  cases h <;> rfl

/-- The questions of exchanges that are the same up to hops are so. -/
theorem Exchange.Hops.question {x x' : Exchange S} (h : x.Hops hop x') :
    x.question.Hops hop x'.question := by
  cases h with
  | same q h => exact .same q
  | parked h stack c o => exact .parked h stack c

/-- Nothing has been called where nothing has been asked. -/
@[simp]
theorem callsOf_nil : callsOf hop ([] : List (Exchange S)) = [] :=
  rfl

/-- The calls of exchanges in a row. -/
@[simp]
theorem callsOf_append (xs ys : List (Exchange S)) :
    callsOf hop (xs ++ ys) = callsOf hop xs ++ callsOf hop ys := by
  simp [callsOf]

/-- Hops add no calls. -/
theorem Hopped.calls {xs xs' : List (Exchange S)} (h : Hopped hop xs xs') :
    List.Forall₂ (Question.Hops hop) (callsOf hop xs) (callsOf hop xs') := by
  induction h with
  | nil => exact .nil
  | @snoc xs xs' h x x' hx ih =>
      rw [callsOf_append, callsOf_append]
      refine List.rel_append ih ?_
      have hcall := hx.question.isCall_eq
      cases hq : x.question.isCall hop with
      | true =>
          rw [hq] at hcall
          simpa [callsOf, hq, ← hcall] using hx.question
      | false =>
          rw [hq] at hcall
          simp [callsOf, hq, ← hcall]
  | hop h hk c ih =>
      rw [callsOf_append]
      simpa [callsOf, Question.isCall, hk] using ih

end Calls

/-! ## Endings in step -/

namespace Course.Hops

variable {m m' : Course S}

/-- Evaluations in step ask the same. -/
theorem asks (h : m.Hops hop m') {q : Question S} {next : q.Answer → Course S}
    (hm : m.head = .asks q next) : ∃ (q' : Question S) (next' : q'.Answer → Course S),
      m'.head = .asks q' next' ∧ q.Hops hop q' := by
  have hhead := h.head
  rw [hm] at hhead
  generalize hm' : m'.head = head at hhead
  cases hhead with
  | asks hq h => exact ⟨_, _, rfl, hq⟩

/-- Evaluations in step are asked for the same. -/
theorem asked (h : m.Hops hop m') {q' : Question S} {next' : q'.Answer → Course S}
    (hm' : m'.head = .asks q' next') : ∃ (q : Question S) (next : q.Answer → Course S),
      m.head = .asks q next ∧ q.Hops hop q' := by
  have hhead := h.head
  rw [hm'] at hhead
  generalize hm : m.head = head at hhead
  cases hhead with
  | asks hq h => exact ⟨_, _, rfl, hq⟩

/-- Evaluations in step have the same outcome. -/
theorem outcome?_eq (h : m.Hops hop m') : m.head.outcome? = m'.head.outcome? := by
  have hhead := h.head
  generalize m.head = head at hhead
  generalize m'.head = head' at hhead
  cases hhead <;> rfl

end Course.Hops

end Trampoline
