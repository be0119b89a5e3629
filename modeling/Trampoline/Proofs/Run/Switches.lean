import Trampoline.Proofs.Run.Active
import Trampoline.Proofs.Run.Determinism

/-!
# From one switch of the connection to the next

An evaluation is under one connection at a time, and what it asks names that connection: it is
the one that is looked at, that a suspension keeps, and that code which chooses another one is
given.  It changes only where code chooses a connection, or a node switches to one without code.

Main definitions and results:

- Definitions `Question.Under`, `Course.Under`: the active connection in questions and
  evaluations.
- Definitions `Course.Switches`, `ProceedsUnswitched`: what happens up to the next switch.
- Theorem `ProceedsUnswitched.under`: the active connection stays active up to the next switch.
- Theorem `Tracks.active_of_unswitched`: it is the one that the machine keeps for a run that waits.
-/

namespace Trampoline

variable {S : Closures} {σ : Type}

/-! ## The active connection -/

/-- As far as a question names the active connection, it is this one. -/
def Question.Under (c : Connection) : Question S → Prop
  | canceled d | modify _ d | restore _ _ _ d | async _ d | parked _ _ d | deferred _ _ d => d = c
  | thunk _ | delay _ | bind _ _ | map _ _ | handler _ _ | rescue _ _ => True

/-- An evaluation is under a connection.  After its abortion it is under any. -/
def Course.Under (c : Connection) : Course S → Prop
  | exit d _ | eval d _ => d = c
  | abort => True
  | ask q next => q.Under c ∧ q.GoesOn c next ∧ ∀ d, q ≠ .canceled d
  | seq source _ => source.Under c

/-- With this answer, an evaluation switches its connection: code has chosen one, or a node
that needs no code for that is met. -/
inductive Course.Switches (m : Course S) : Exchange S → Prop
  | modify (k : S.Modify) (c new : Connection) : Switches m ⟨.modify k c, .ok new⟩
  | restore (k : S.Restore) (exit : Outcome) (old c new : Connection) :
      Switches m ⟨.restore k exit old c, .ok new⟩
  | atOnce {c : Connection} {source : Effect S} {modify : Modifier S}
      {restore : Option (Restorer S)}
      (front : m.front.1 = .eval c (.switchConnection source modify restore))
      (silent : modify.question? c = none) : Switches m ⟨.canceled c, false⟩

/-- With these answers, one evaluation becomes another without a switch. -/
inductive ProceedsUnswitched : Course S → List (Exchange S) → Course S → Prop
  | refl (m : Course S) : ProceedsUnswitched m [] m
  | goes {m m' n : Course S} {xs : List (Exchange S)} (hm : m.head = .goes m')
      (h : ProceedsUnswitched m' xs n) : ProceedsUnswitched m xs n
  | answered {m n : Course S} {q : Question S} {next : q.Answer → Course S} {a : q.Answer}
      {xs : List (Exchange S)} (hm : m.head = .asks q next) (stays : ¬m.Switches ⟨q, a⟩)
      (h : ProceedsUnswitched (next a) xs n) : ProceedsUnswitched m (⟨q, a⟩ :: xs) n

/-! ## What keeps it -/

namespace Course

@[simp]
theorem under_within {c : Connection} {m : Course S} (frames : List (Frame S)) :
    (m.within frames).Under c ↔ m.Under c := by
  induction frames generalizing m with
  | nil => rfl
  | cons frame frames ih => exact ih

theorem under_node (c : Connection) (r : Except Failure (Effect S)) : (node c r).Under c := by
  cases r <;> rfl

theorem under_result (c : Connection) (o : Outcome) : (result c o : Course S).Under c := by
  cases o <;> rfl

/-- In front of a sequence is what is in front of its source. -/
theorem Switches.seq {m : Course S} {x : Exchange S} (h : m.Switches x) (frame : Frame S) :
    (Course.seq m frame).Switches x := by
  cases h with
  | modify k c new => exact .modify k c new
  | restore k exit old c new => exact .restore k exit old c new
  | atOnce front silent => exact .atOnce front silent

end Course

/-- A binder goes on under the connection under which it is given the value. -/
theorem Binder.under_move (f : Binder S) (c : Connection) (v : Value) : (f.move c v).Under c := by
  cases f with
  | user k => exact ⟨trivial, rfl, by simp⟩
  | pure => rfl
  | shift context => rfl

theorem Recovery.under_move (h : Recovery S) (c : Connection) (e : Failure) :
    (h.move c e).Under c := by
  cases h with
  | user k => exact ⟨trivial, rfl, by simp⟩
  | rescue k => exact ⟨trivial, rfl, by simp⟩
  | reify => rfl

theorem Frame.under_move (frame : Frame S) (c : Connection) (o : Outcome) :
    (frame.move c o).Under c := by
  cases frame with
  | bind f =>
      cases o with
      | ok v => exact f.under_move c v
      | error e => rfl
  | map k =>
      cases o with
      | ok v => exact ⟨trivial, rfl, by simp⟩
      | error e => rfl
  | handle h =>
      cases o with
      | ok v => rfl
      | error e => exact h.under_move c e
  | fold f h =>
      cases o with
      | ok v => exact f.under_move c v
      | error e => exact h.under_move c e
  | restore old r => rfl

/-- While code chooses a connection, the old one is active. -/
theorem Modifier.under_choose {m : Modifier S} {c : Connection} (h : m.question? c ≠ none)
    (old : Connection) (source : Effect S) (restore : Option (Restorer S)) :
    (m.choose c (.region source restore old)).Under c := by
  cases m with
  | user k => exact ⟨rfl, ⟨source, restore, old, rfl⟩, by simp⟩
  | uncancelable => exact absurd rfl h
  | restoring exit before r =>
      cases r with
      | user k => exact ⟨rfl, ⟨source, restore, old, rfl⟩, by simp⟩
      | old => exact absurd rfl h

/-- A node that does not switch at once goes on under the connection under which it is met. -/
theorem Effect.under_move {e : Effect S} {c : Connection}
    (h : ∀ source m r, e = .switchConnection source m r → m.question? c ≠ none) :
    (e.move c).Under c := by
  cases e with
  | suspend k => exact ⟨trivial, rfl, by simp⟩
  | delay k => exact ⟨trivial, rfl, by simp⟩
  | async k => exact ⟨rfl, rfl, by simp⟩
  | parked node stack => exact ⟨rfl, rfl, by simp⟩
  | deferred context b => exact ⟨rfl, rfl, by simp⟩
  | switchConnection source m r => exact Modifier.under_choose (h source m r rfl) c source r
  | _ => rfl

/-- After an answer that chooses no connection, the active one is active still. -/
theorem Question.GoesOn.under {c : Connection} {q : Question S} {next : q.Answer → Course S}
    (h : q.GoesOn c next) (hlook : ∀ d, q ≠ .canceled d) {a : q.Answer} {m : Course S}
    (stays : ¬m.Switches ⟨q, a⟩) : (next a).Under c := by
  cases q with
  | canceled d => exact absurd rfl (hlook d)
  | modify k d =>
      obtain ⟨source, restore, old, rfl⟩ := h
      cases a with
      | ok new => exact absurd (.modify k d new) stays
      | error e => rfl
  | restore k exit before d =>
      obtain ⟨source, restore, old, rfl⟩ := h
      cases a with
      | ok new => exact absurd (.restore k exit before d new) stays
      | error e => rfl
  | thunk k => exact h ▸ Course.under_node c a
  | bind k v => exact h ▸ Course.under_node c a
  | handler k e => exact h ▸ Course.under_node c a
  | delay k => exact h ▸ Course.under_result c a
  | _ =>
      obtain rfl : next = Course.completion c := h
      rfl

namespace Course

variable {c : Connection}

/-- An evaluation exits under its connection. -/
theorem Under.exited {m : Course S} (h : m.Under c) {d : Connection} {o : Outcome}
    (hm : m.head = .exited d o) : d = c := by
  cases m with
  | exit d' o' =>
      cases hm
      exact h
  | seq m frame =>
      simp only [head] at hm
      cases hh : m.head <;> simp [hh] at hm
  | _ => cases hm

/-- An evaluation that goes on without a question stays under its connection. -/
theorem Under.goes {m n : Course S} (h : m.Under c) (hm : m.head = .goes n) : n.Under c := by
  induction m generalizing n with
  | seq m frame ih =>
      have hsource : m.Under c := h
      simp only [head] at hm
      cases hh : m.head with
      | exited d o =>
          simp only [hh, Head.goes.injEq] at hm
          obtain rfl := hsource.exited hh
          exact hm ▸ frame.under_move d o
      | goes m' =>
          simp only [hh, Head.goes.injEq] at hm
          have hm' : m'.Under c := ih hsource hh
          exact hm ▸ hm'
      | aborted => simp [hh] at hm
      | asks q next => simp [hh] at hm
  | _ => cases hm

/-- An evaluation asks under its connection, and stays under it with an answer that is no
switch. -/
theorem Under.answered {m : Course S} (h : m.Under c) {q : Question S}
    {next : q.Answer → Course S} (hm : m.head = .asks q next) :
    q.Under c ∧ ∀ a, ¬m.Switches ⟨q, a⟩ → (next a).Under c := by
  induction m generalizing q with
  | ask q' next' _ =>
      cases hm
      obtain ⟨hq, hgoes, hlook⟩ := h
      exact ⟨hq, fun a stays => hgoes.under hlook stays⟩
  | eval d e =>
      cases hm
      obtain rfl : d = c := h
      refine ⟨rfl, fun a stays => ?_⟩
      cases a with
      | true => trivial
      | false =>
          refine Effect.under_move fun source m r he hsilent => stays ?_
          subst he
          exact .atOnce rfl hsilent
  | seq m frame ih =>
      have hsource : m.Under c := h
      simp only [head] at hm
      cases hh : m.head with
      | asks q' next' =>
          simp only [hh] at hm
          cases hm
          obtain ⟨hq, hnext⟩ := ih hsource hh
          exact ⟨hq, fun a stays => hnext a fun hs => stays (hs.seq frame)⟩
      | exited d o => simp [hh] at hm
      | aborted => simp [hh] at hm
      | goes m' => simp [hh] at hm
  | _ => cases hm

end Course

/-- Up to the next switch an evaluation stays under its connection, and so does all that it
asks. -/
theorem ProceedsUnswitched.under {c : Connection} {m n : Course S} {xs : List (Exchange S)}
    (h : ProceedsUnswitched m xs n) (hm : m.Under c) :
    n.Under c ∧ ∀ x ∈ xs, x.question.Under c := by
  induction h with
  | refl m => exact ⟨hm, by simp⟩
  | goes hhead _ ih => exact ih (hm.goes hhead)
  | answered hhead stays _ ih =>
      obtain ⟨hq, hnext⟩ := hm.answered hhead
      obtain ⟨hn, hxs⟩ := ih (hnext _ stays)
      exact ⟨hn, List.forall_mem_cons.mpr ⟨hq, hxs⟩⟩

/-- With the same answers, an evaluation proceeds as it does without a switch. -/
theorem ProceedsUnswitched.proceeds {m n : Course S} {xs : List (Exchange S)}
    (h : ProceedsUnswitched m xs n) :
    Proceeds m xs n := by
  induction h with
  | refl m => exact .refl m
  | goes hhead _ ih => exact .goes hhead ih
  | answered hhead _ _ ih => exact .answered hhead ih

/-- Without a question, an evaluation stays under its connection. -/
theorem Proceeds.under {c : Connection} {m n : Course S} (h : Proceeds m [] n)
    (hm : m.Under c) : n.Under c := by
  generalize hxs : ([] : List (Exchange S)) = xs at h
  induction h with
  | refl m => exact hm
  | goes hhead _ ih => exact ih (hm.goes hhead) hxs
  | answered hhead _ ih => cases hxs

/-! ## The connection of the machine -/

/-- A question is asked under one connection. -/
theorem Question.GoesOn.unique {c d : Connection} {q : Question S} {next : q.Answer → Course S}
    (h : q.GoesOn c next) (h' : q.GoesOn d next) : c = d := by
  cases q with
  | canceled c' =>
      obtain ⟨e, rfl, -⟩ := h
      obtain ⟨e', rfl, -⟩ := h'
      rfl
  | modify k current =>
      obtain ⟨source, restore, old, rfl⟩ := h
      obtain ⟨source', restore', old', hsame⟩ := h'
      exact (Course.eval.inj (congrFun hsame (.error .cancelled))).1
  | restore k exit before current =>
      obtain ⟨source, restore, old, rfl⟩ := h
      obtain ⟨source', restore', old', hsame⟩ := h'
      exact (Course.eval.inj (congrFun hsame (.error .cancelled))).1
  | _ => exact (Course.eval.inj (congrFun (Eq.trans h.symm h') (.error .cancelled))).1

namespace Tracks

variable {P : Program S σ} {r : Origin S} {s : State S σ} {st : Story S}

/-- A run that waits for an answer is active on the connection under which it has asked. -/
theorem active_of_pending (h : Tracks P r s st) {q : Question S} (hq : st.pending = some q)
    (hlost : st.lost = false) : ∃ c stack next, Active r st s c stack ∧ q.GoesOn c next ∧
      Proceeds r.course st.exchanges ((Course.ask q next).within stack.toList) := by
  cases h with
  | turn stands proceeds home live resumed => simp [live.pending] at hq
  | @calling _ above below act _ run q' next place serves waits idle proceeds home live resumed =>
      rw [live.pending, Option.some.injEq] at hq
      subst hq
      obtain ⟨a, hserves, -⟩ := Activation.Every.both act serves serves
      obtain ⟨_, holder, code, -, hs⟩ := hserves.wrap
      obtain ⟨c, hgoes⟩ := proceeds.goesOn
      obtain ⟨rfl, -⟩ := hgoes.of_fails hs.fails
      exact ⟨_, run.stack, next, home.active place (serves.mono fun a ha => ha.loop?_eq), hgoes,
        proceeds⟩
  | @suspended _ _ i stack c earlier q' next idle holds bridge parks completes proceeds live
      resumed suspends =>
      rw [live.pending, Option.some.injEq] at hq
      subst hq
      obtain ⟨c', hgoes⟩ := proceeds.goesOn
      rw [hgoes.of_completes completes] at hgoes
      exact ⟨c, stack, next, .inr ⟨i, _, _, bridge, holds, rfl, rfl, rfl⟩, hgoes, proceeds⟩
  | delivered outcomes ending evaluates pending lost still numbered resumed =>
      simp [pending] at hq
  | lost outcomes lost pending evaluates still numbered resumed => simp [hlost] at lost

/-- Up to the next switch, a run that waits for an answer is active on one connection. -/
theorem active_of_unswitched (h : Tracks P r s st) {q : Question S} (hq : st.pending = some q)
    (hlost : st.lost = false) {xs ys : List (Exchange S)} {m n : Course S} {d : Connection}
    (hm : Proceeds r.course xs m) (under : m.Under d) (hunswitched : ProceedsUnswitched m ys n)
    (hex : st.exchanges = xs ++ ys) : q.Under d ∧ ∃ stack, Active r st s d stack := by
  obtain ⟨c, stack, next, hactive, hgoes, hasks⟩ := h.active_of_pending hq hlost
  obtain ⟨hn, -⟩ := hunswitched.under under
  have hhead := Course.head_within_asks (m := .ask q next) rfl stack.toList
  have hto : Proceeds n [] ((Course.ask q next).within stack.toList) := by
    have hmore := hm.trans hunswitched.proceeds
    rw [← hex] at hmore
    rcases hmore.diverge ((List.append_nil st.exchanges).symm ▸ hasks) with hrest | ⟨-, hrest⟩
    · exact hrest
    · rcases hrest.taken hhead with ⟨-, rfl⟩ | ⟨a, zs, hcons, -⟩
      · exact .refl _
      · cases hcons
  obtain ⟨hqd, hgoes', -⟩ := (Course.under_within stack.toList).mp (hto.under hn)
  obtain rfl := hgoes.unique hgoes'
  exact ⟨hqd, stack, hactive⟩

end Tracks

end Trampoline
