import Mathlib.Data.List.Induction
import Trampoline.Proofs.Laws.Steps
import Trampoline.Proofs.Run.Determinism

/-!
# SameUpTo have the same story

A run on the left of a law and the run on the right of it call for the same code, up to the
closures of the law, and deliver the same.  Each thing that a step may add to the story of the one
it may add to the story of the other.

Main definitions and results:

- Definitions `Law.Like`, `Law.Calls`: what the two runs call for.
- Definition `Wording`, theorems `Wording.Stories.called`, `Wording.Stories.answer`: stories of the
  same in other words.
- Definition `Story.SameUpTo`: the stories of the two runs.
- Definition `Story.seat`: where the loops of a run may be.
- Theorem `Story.waiting_of_turn`: what waits below a loop of the run is none of its loops.
-/

namespace Trampoline

variable {S : Closures} {σ : Type} {P : Program S σ}

/-! ## What the runs call for -/

/-- Questions that mean the same by a law. -/
inductive Law.Like : Law P → Question S → Question S → Prop
  | same (law : Law P) (q : Question S) : Law.Like law q q
  | assoc (f g fg : S.Bind) (h : ∀ v, P.bind fg v = (P.bind f v).bind fun e => .done (e.flatMap g))
      (v : Value) : Law.Like (.assoc f g fg h) (.bind f v) (.bind fg v)
  | leftUnit (x : Value) (f : S.Bind) (t : S.Thunk) (h : P.thunk t = P.bind f x) :
      Law.Like (.leftUnit x f t h) (.bind f x) (.thunk t)
  | mapped (f : S.Map) (b : S.Bind)
      (h : ∀ v, P.bind b v = (P.map f v).bind fun w => .done (.pure w)) (v : Value) :
      Law.Like (.mapped f b h) (.map f v) (.bind b v)

/-- Calls that mean the same by a law, in the same order.  A closure that only makes a node of
a value is called on the left alone. -/
inductive Law.Calls : Law P → List (Question S) → List (Question S) → Prop
  | nil (law : Law P) : Law.Calls law [] []
  | snoc {law : Law P} {qs qs' : List (Question S)} {q q' : Question S} (h : law.Calls qs qs')
      (hq : law.Like q q') : Law.Calls law (qs ++ [q]) (qs' ++ [q'])
  | passed {k : S.Bind} {hk : ∀ v, P.bind k v = .done (.pure v)} {qs qs' : List (Question S)}
      (h : Law.Calls (.rightUnit k hk) qs qs') (v : Value) :
      Law.Calls (.rightUnit k hk) (qs ++ [.bind k v]) qs'

namespace Law

variable {law : Law P}

/-- Questions that mean the same are calls both or neither. -/
theorem Like.isCall_eq {q q' : Question S} (h : law.Like q q') :
    q.isCall (fun _ => none) = q'.isCall (fun _ => none) := by
  cases h <;> rfl

end Law

/-! ## Stories that say the same -/

/-- Which questions of two runs mean the same, and which calls. -/
structure Wording (S : Closures) where
  like : Question S → Question S → Prop
  calls : List (Question S) → List (Question S) → Prop

namespace Wording

/-- Questions that mean the same are calls both or neither, and calls that mean the same may be made
in addition to others. -/
structure Lawful (W : Wording S) : Prop where
  same : ∀ q, W.like q q
  isCall_eq : ∀ {q q'}, W.like q q' → q.isCall (fun _ => none) = q'.isCall (fun _ => none)
  nil : W.calls [] []
  snoc : ∀ {qs qs' q q'}, W.calls qs qs' → W.like q q' → W.calls (qs ++ [q]) (qs' ++ [q'])

/-- Two stories of the same, in other words. -/
structure Stories (W : Wording S) (st st' : Story S) : Prop where
  bridge : st.bridge = st'.bridge
  exchanges : W.calls (calledIn st.exchanges) (calledIn st'.exchanges)
  pending : Option.Rel W.like st.pending st'.pending
  outcomes : st.outcomes = st'.outcomes
  lost : st.lost = st'.lost

variable {W : Wording S}

namespace Lawful

variable (hW : W.Lawful)

include hW

/-- Calls mean the same as themselves. -/
theorem calls_refl (qs : List (Question S)) : W.calls qs qs := by
  induction qs using List.reverseRecOn with
  | nil => exact hW.nil
  | append_singleton qs q ih => exact hW.snoc ih (hW.same q)

/-- What a run waits for means the same as itself. -/
theorem same_option : (q : Option (Question S)) → Option.Rel W.like q q
  | none => .none
  | some q => .some (hW.same q)

/-- One more question on both sides is one more call, or none. -/
theorem append_filter {qs qs' : List (Question S)} (h : W.calls qs qs') {q q' : Question S}
    (hq : W.like q q') : W.calls (qs ++ [q].filter (Question.isCall fun _ => none))
      (qs' ++ [q'].filter (Question.isCall fun _ => none)) := by
  have hcall := hW.isCall_eq hq
  cases hc : q.isCall (fun _ => none) with
  | true =>
      rw [hc] at hcall
      simpa [hc, ← hcall] using hW.snoc h hq
  | false =>
      rw [hc] at hcall
      simpa [hc, ← hcall] using h

end Lawful

namespace Stories

variable {st st' : Story S}

/-- A story is the same as itself, in whatever words. -/
theorem refl (hW : W.Lawful) (st : Story S) : W.Stories st st :=
  ⟨rfl, hW.calls_refl _, hW.same_option _, rfl, rfl⟩

/-- The two runs have called for the same. -/
theorem called (h : W.Stories st st') (hW : W.Lawful) : W.calls st.called st'.called := by
  have hexchanges := h.exchanges
  have hpending := h.pending
  unfold Story.called Story.calls
  generalize st.pending = q, st'.pending = q' at hpending ⊢
  cases hpending with
  | none => simpa [calledIn] using hexchanges
  | some hq => simpa [calledIn] using hW.append_filter hexchanges hq

/-- A look is no call, so one side may look alone. -/
theorem look_left (h : W.Stories st st') (c : Connection) (b : Bool) :
    W.Stories (st.look c b) st' where
  bridge := h.bridge
  exchanges := by
    simpa [Story.look, calledIn, callsOf, Question.isCall] using h.exchanges
  pending := h.pending
  outcomes := h.outcomes
  lost := h.lost

/-- The run on the right may look at its connection once more. -/
theorem look_right (h : W.Stories st st') (c : Connection) (b : Bool) :
    W.Stories st (st'.look c b) where
  bridge := h.bridge
  exchanges := by
    simpa [Story.look, calledIn, callsOf, Question.isCall] using h.exchanges
  pending := h.pending
  outcomes := h.outcomes
  lost := h.lost

/-- Both runs are answered. -/
theorem answer (h : W.Stories st st') (hW : W.Lawful) (reply reply' : Reply S) :
    W.Stories (st.answer reply) (st'.answer reply') := by
  have hpending := h.pending
  unfold Story.answer
  generalize hst : st.pending = q, hst' : st'.pending = q' at hpending ⊢
  cases hpending with
  | none => exact h
  | @some q q' hq =>
      refine ⟨h.bridge, ?_, .none, h.outcomes, h.lost⟩
      have hcalls := hW.append_filter h.exchanges hq
      simpa [calledIn, callsOf] using hcalls

/-- Both runs are taken up. -/
theorem resume (h : W.Stories st st') (hW : W.Lawful) (cb : Callback) (o : Outcome) :
    W.Stories (st.resume cb o) (st'.resume cb o) := by
  have hresumed : W.Stories { st with resumptions := st.resumptions ++ [cb] }
      { st' with resumptions := st'.resumptions ++ [cb] } :=
    ⟨h.bridge, h.exchanges, h.pending, h.outcomes, h.lost⟩
  exact hresumed.answer hW _ _

end Stories

end Wording

/-! ## Stories -/

/-- An answer changes nothing of what a run has called for and come to. -/
theorem Story.answer_same (st : Story S) (reply : Reply S) :
    (st.answer reply).called = st.called ∧ (st.answer reply).outcomes = st.outcomes ∧
      (st.answer reply).lost = st.lost := by
  unfold Story.answer
  cases hpending : st.pending with
  | none => exact ⟨rfl, rfl, rfl⟩
  | some q => simp [Story.called, Story.calls, callsOf, hpending]

/-- The stories of two runs, on either side of a law. -/
structure Story.SameUpTo (law : Law P) (st st' : Story S) : Prop where
  bridge : st.bridge = st'.bridge
  exchanges : law.Calls (calledIn st.exchanges) (calledIn st'.exchanges)
  pending : Option.Rel law.Like st.pending st'.pending
  outcomes : st.outcomes = st'.outcomes
  lost : st.lost = st'.lost

/-- The words of the two sides of a law. -/
def Law.wording (law : Law P) : Wording S where
  like := law.Like
  calls := law.Calls

/-- The words of a law are lawful. -/
theorem Law.lawful_wording (law : Law P) : law.wording.Lawful where
  same := .same law
  isCall_eq h := h.isCall_eq
  nil := .nil law
  snoc h hq := .snoc h hq

/-- The stories on both sides of a law are the same in the words of the law. -/
theorem Story.sameUpTo_iff {law : Law P} {st st' : Story S} :
    Story.SameUpTo law st st' ↔ law.wording.Stories st st' :=
  ⟨fun h => ⟨h.bridge, h.exchanges, h.pending, h.outcomes, h.lost⟩,
    fun h => ⟨h.bridge, h.exchanges, h.pending, h.outcomes, h.lost⟩⟩

namespace Story.SameUpTo

variable {law : Law P} {st st' : Story S}

/-- A story may be on both sides of a law. -/
theorem refl (law : Law P) (st : Story S) : Story.SameUpTo law st st :=
  Story.sameUpTo_iff.mpr (.refl law.lawful_wording st)

/-- The two runs have called for the same. -/
theorem called (h : Story.SameUpTo law st st') : law.Calls st.called st'.called :=
  (Story.sameUpTo_iff.mp h).called law.lawful_wording

/-- A look is no call, so one side may look alone. -/
theorem look_left (h : Story.SameUpTo law st st') (c : Connection) (b : Bool) :
    Story.SameUpTo law (st.look c b) st' :=
  Story.sameUpTo_iff.mpr ((Story.sameUpTo_iff.mp h).look_left c b)

/-- The run on the right may look at its connection once more. -/
theorem look_right (h : Story.SameUpTo law st st') (c : Connection) (b : Bool) :
    Story.SameUpTo law st (st'.look c b) :=
  Story.sameUpTo_iff.mpr ((Story.sameUpTo_iff.mp h).look_right c b)

/-- Both runs look at their connection. -/
theorem look (h : Story.SameUpTo law st st') (c : Connection) (b : Bool) :
    Story.SameUpTo law (st.look c b) (st'.look c b) :=
  (h.look_left c b).look_right c b

/-- Both runs ask questions that mean the same. -/
theorem ask (h : Story.SameUpTo law st st') {q q' : Option (Question S)}
    (hq : Option.Rel law.Like q q') : Story.SameUpTo law (st.ask q) (st'.ask q') :=
  ⟨h.bridge, h.exchanges, hq, h.outcomes, h.lost⟩

/-- Both runs ask the same. -/
theorem ask_same (h : Story.SameUpTo law st st') (q : Option (Question S)) :
    Story.SameUpTo law (st.ask q) (st'.ask q) :=
  h.ask (law.lawful_wording.same_option q)

/-- Both runs are answered. -/
theorem answer (h : Story.SameUpTo law st st') (reply reply' : Reply S) :
    Story.SameUpTo law (st.answer reply) (st'.answer reply') :=
  Story.sameUpTo_iff.mpr ((Story.sameUpTo_iff.mp h).answer law.lawful_wording reply reply')

/-- Both runs deliver the same. -/
theorem deliver (h : Story.SameUpTo law st st') (o : Outcome) :
    Story.SameUpTo law (st.deliver o) (st'.deliver o) :=
  ⟨h.bridge, h.exchanges, h.pending, by simp only [Story.deliver, h.outcomes], h.lost⟩

/-- Both runs are taken up. -/
theorem resume (h : Story.SameUpTo law st st') (cb : Callback) (o : Outcome) :
    Story.SameUpTo law (st.resume cb o) (st'.resume cb o) :=
  Story.sameUpTo_iff.mpr ((Story.sameUpTo_iff.mp h).resume law.lawful_wording cb o)

/-- Both runs park in the same bridge. -/
theorem park (h : Story.SameUpTo law st st') {w w' : World S σ} {run run' : Loop S}
    (hcb : (w.arm run).2 = (w'.arm run').2) :
    Story.SameUpTo law (st.park w run) (st'.park w' run') :=
  ⟨congrArg (fun cb => some (Callback.bridge cb)) hcb, h.exchanges, h.pending, h.outcomes, h.lost⟩

/-- Both runs are taken away. -/
theorem lose (h : Story.SameUpTo law st st') :
    Story.SameUpTo law { st with lost := true } { st' with lost := true } :=
  ⟨h.bridge, h.exchanges, h.pending, h.outcomes, rfl⟩

end Story.SameUpTo

/-! ## The seat of a run -/

namespace Story

/-- Where the loops of a run may be: before its first suspension in the place where it started,
later as the loops of its bridge. -/
def seat (st : Story S) (depth : Nat) : Seat where
  first n := st.bridge = none ∧ st.outcomes = [] ∧ st.lost = false ∧ n = depth
  bridge i := st.bridge = some i

/-- An answer does not change the seat of a run. -/
theorem seat_answer (st : Story S) (depth : Nat) (reply : Reply S) :
    (st.answer reply).seat depth = st.seat depth := by
  unfold Story.answer
  cases st.pending <;> rfl

/-- A run has the same seat when it is taken up. -/
theorem seat_resume (st : Story S) (depth : Nat) (cb : Callback) (o : Outcome) :
    (st.resume cb o).seat depth = st.seat depth :=
  seat_answer _ depth _

/-- It is the run's turn if one of its loops is on top. -/
theorem takesTurn_iff {st : Story S} {depth : Nat} {top : Activation S σ}
    {rest : List (Activation S σ)} :
    st.takesTurn depth top rest = true ↔
      ∃ run, top.loop? = some run ∧ (st.seat depth).mine rest.length run.outlet := by
  unfold takesTurn
  cases hloop : top.loop? with
  | none => simp
  | some run => cases hout : run.outlet <;> simp [hout, Seat.mine, seat, and_assoc]

/-- The runs are in the same places on both sides. -/
theorem SameUpTo.seat_eq {law : Law P} {st st' : Story S} (h : Story.SameUpTo law st st')
    (depth : Nat) : st.seat depth = st'.seat depth := by
  simp only [seat, h.bridge, h.outcomes, h.lost]

/-- What is below a loop of the run is none of its loops, so the places below may be those of
any later story. -/
theorem waiting_of_turn {law : Law P} {E : σ → σ → Prop} {st st' : Story S} {depth : Nat}
    {outlet : Outlet S} {rest rest' : List (Activation S σ)}
    (hmine : (st.seat depth).mine rest.length outlet)
    (hbridge : ∀ i, st.bridge = some i → st'.bridge = some i)
    (hrest : Activations.SameUpTo law E (st.seat depth) rest rest') :
    Activations.SameUpTo law E (st'.seat depth) rest rest' := by
  refine hrest.mono (fun n hn hfirst => ?_) hbridge
  cases outlet with
  | terminal t => exact absurd (hfirst.2.2.2.trans hmine.2.2.2.symm) (Nat.ne_of_lt hn)
  | bridge i => exact absurd (hfirst.1.symm.trans hmine) (by simp)

end Story

end Trampoline
