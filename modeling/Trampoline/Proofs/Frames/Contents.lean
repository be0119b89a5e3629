import Trampoline.Proofs.Run.Frames

/-!
# The contents of a call stack

A call stack has its top frame in a slot and the frames below it in a list.  The slot may be
empty while there are frames below it, so that two stacks with the same frames need not be equal,
and a search looks in the slot and in the list in turn.  None of this shows: whatever is done to a
stack, it does what a plain list of frames does, with the top frame at its head.

Main definitions and results:

- Definition `CallStack.Searches`: a search in a plain list of frames.
- Definitions `CallStack.Operation.Does`, `CallStack.Does`: what an operation, and a sequence of
  operations, does to a plain list of frames.
- Theorem `CallStack.perform_does`: an operation on a stack does to its frames what it does to a
  plain list.
- Theorem `CallStack.exists_without_top`: any frames but none may be left with the slot empty.
- Theorem `CallStack.history_contents`: the stack after a history is a plain list of frames.
-/

namespace Trampoline

namespace CallStack

variable {S : Closures}

/-! ## Plain lists of frames -/

/-- A search in a list of frames returns the first frame that `p` accepts and leaves the frames
below it.  If there is none, it returns nothing and leaves no frames. -/
inductive Searches {φ : Type} (p : φ → Bool) : List φ → Option φ → List φ → Prop
  | found {above : List φ} {frame : φ} (below : List φ) (passed : ∀ f ∈ above, p f = false)
      (accepted : p frame = true) : Searches p (above ++ frame :: below) (some frame) below
  | missed {frames : List φ} (passed : ∀ f ∈ frames, p f = false) : Searches p frames none []

/-- The operations on a stack of frames. -/
inductive Operation (S : Closures) where
  | push (frame : Frame S)
  | popNext
  | findErrorHandler

/-- What an operation does to a list of frames with the top one at its head: the frame that it
returns, and the frames that it leaves. -/
inductive Operation.Does :
    Operation S → List (Frame S) → Option (Frame S) → List (Frame S) → Prop
  | push (frame : Frame S) (frames : List (Frame S)) :
      Does (.push frame) frames none (frame :: frames)
  | popNext {frames left : List (Frame S)} {returned : Option (Frame S)}
      (searches : Searches Frame.forwards frames returned left) :
      Does .popNext frames returned left
  | findErrorHandler {frames left : List (Frame S)} {returned : Option (Frame S)}
      (searches : Searches Frame.recovers frames returned left) :
      Does .findErrorHandler frames returned left

/-- What a sequence of operations does to a list of frames: what each of them returns, and the
frames that are left. -/
inductive Does :
    List (Operation S) → List (Frame S) → List (Option (Frame S)) → List (Frame S) → Prop
  | nil (frames : List (Frame S)) : Does [] frames [] frames
  | cons {op : Operation S} {ops : List (Operation S)} {frames next left : List (Frame S)}
      {returned : Option (Frame S)} {results : List (Option (Frame S))}
      (first : op.Does frames returned next) (rest : Does ops next results left) :
      Does (op :: ops) frames (returned :: results) left

/-- A search returns the first frame of its kind, and leaves what is left when the frames of
other kinds and then this one have been dropped. -/
theorem Searches.eq {φ : Type} {p : φ → Bool} {frames left : List φ} {returned : Option φ}
    (h : Searches p frames returned left) :
    returned = frames.find? p ∧ left = (frames.dropWhile fun f => !p f).tail := by
  cases h with
  | @found above frame below passed accepted =>
      have hdrop : ∀ f ∈ above, (!p f) = true := fun f hf => by simp [passed f hf]
      rw [List.find?_append, List.find?_eq_none.mpr (by simpa using passed),
        List.dropWhile_append_of_pos hdrop]
      simp [accepted]
  | missed passed =>
      have hdrop : ∀ f ∈ frames, (!p f) = true := fun f hf => by simp [passed f hf]
      rw [List.find?_eq_none.mpr (by simpa using passed), ← List.append_nil frames,
        List.dropWhile_append_of_pos hdrop]
      exact ⟨rfl, rfl⟩

/-- A search has one result. -/
theorem Searches.unique {φ : Type} {p : φ → Bool} {frames left₁ left₂ : List φ}
    {returned₁ returned₂ : Option φ} (h₁ : Searches p frames returned₁ left₁)
    (h₂ : Searches p frames returned₂ left₂) : returned₁ = returned₂ ∧ left₁ = left₂ :=
  ⟨h₁.eq.1.trans h₂.eq.1.symm, h₁.eq.2.trans h₂.eq.2.symm⟩

namespace Operation.Does

/-- What an operation does is determined. -/
theorem unique {op : Operation S} {frames left₁ left₂ : List (Frame S)}
    {returned₁ returned₂ : Option (Frame S)} (h₁ : op.Does frames returned₁ left₁)
    (h₂ : op.Does frames returned₂ left₂) : returned₁ = returned₂ ∧ left₁ = left₂ := by
  cases h₁ with
  | push => cases h₂; exact ⟨rfl, rfl⟩
  | popNext h₁ => cases h₂ with | popNext h₂ => exact h₁.unique h₂
  | findErrorHandler h₁ => cases h₂ with | findErrorHandler h₂ => exact h₁.unique h₂

end Operation.Does

/-- What a sequence of operations does is determined. -/
theorem Does.unique {ops : List (Operation S)} {frames left₁ left₂ : List (Frame S)}
    {results₁ results₂ : List (Option (Frame S))} (h₁ : Does ops frames results₁ left₁)
    (h₂ : Does ops frames results₂ left₂) : results₁ = results₂ ∧ left₁ = left₂ := by
  induction h₁ generalizing results₂ with
  | nil => cases h₂; exact ⟨rfl, rfl⟩
  | cons first _ ih =>
      cases h₂ with
      | cons first₂ rest₂ =>
          obtain ⟨rfl, rfl⟩ := first.unique first₂
          obtain ⟨rfl, rfl⟩ := ih rest₂
          exact ⟨rfl, rfl⟩

/-! ## Operations on stacks -/

/-- Perform an operation on a stack. -/
def perform (stack : CallStack (Frame S)) :
    Operation S → Option (Frame S) × CallStack (Frame S)
  | .push frame => (none, stack.push frame)
  | .popNext => stack.popNext
  | .findErrorHandler => stack.findErrorHandler

/-- Perform operations on a stack, one after the other. -/
def performAll (stack : CallStack (Frame S)) :
    List (Operation S) → List (Option (Frame S)) × CallStack (Frame S)
  | [] => ([], stack)
  | op :: ops =>
    let (returned, next) := stack.perform op
    let (results, left) := next.performAll ops
    (returned :: results, left)

theorem performAll_append (stack : CallStack (Frame S)) (ops more : List (Operation S)) :
    (stack.performAll (ops ++ more)).2 = ((stack.performAll ops).2.performAll more).2 := by
  induction ops generalizing stack with
  | nil => rfl
  | cons op ops ih => exact ih (stack.perform op).2

/-- A search in a stack is a search in its frames, wherever they are. -/
theorem takeFirst_searches {φ : Type} (p : φ → Bool) (stack : CallStack φ) :
    Searches p stack.toList (stack.takeFirst p).1 (stack.takeFirst p).2.toList := by
  cases hs : stack.takeFirst p with
  | mk returned left =>
  cases returned with
  | none =>
      rw [takeFirst_none_left hs]
      exact .missed (takeFirst_none hs)
  | some frame =>
      obtain ⟨above, hframes, passed, accepted⟩ := takeFirst_some hs
      rw [hframes]
      exact .found left.toList passed accepted

/-- An operation on a stack does to its frames what it does to a plain list. -/
theorem perform_does (stack : CallStack (Frame S)) (op : Operation S) :
    op.Does stack.toList (stack.perform op).1 (stack.perform op).2.toList := by
  cases op with
  | push frame =>
      simp only [perform, toList_push]
      exact .push frame stack.toList
  | popNext => exact .popNext (takeFirst_searches _ stack)
  | findErrorHandler => exact .findErrorHandler (takeFirst_searches _ stack)

/-- Operations on a stack do to its frames what they do to a plain list. -/
theorem performAll_does (stack : CallStack (Frame S)) (ops : List (Operation S)) :
    Does ops stack.toList (stack.performAll ops).1 (stack.performAll ops).2.toList := by
  induction ops generalizing stack with
  | nil => exact .nil stack.toList
  | cons op ops ih => exact .cons (stack.perform_does op) (ih (stack.perform op).2)

/-! ## Histories -/

/-- Pushing frames from the bottom one on leaves them with the top one at the head. -/
theorem performAll_push (frames : List (Frame S)) :
    (performAll empty (frames.reverse.map Operation.push)).2.toList = frames := by
  induction frames with
  | nil => rfl
  | cons frame frames ih =>
      rw [List.reverse_cons, List.map_append, performAll_append]
      exact (toList_push _ frame).trans (congrArg (frame :: ·) ih)

/-- A frame that has been pushed is taken out again by one of the searches, which leaves the slot
empty and the frames below. -/
theorem exists_perform_push (stack : CallStack (Frame S)) (frame : Frame S) :
    ∃ op, ((stack.push frame).perform op).2.first = none ∧
      ((stack.push frame).perform op).2.toList = stack.toList := by
  obtain ⟨first, rest, below, h⟩ := stack
  cases hf : frame.forwards with
  | true =>
      refine ⟨.popNext, ?_⟩
      cases first <;> simp [perform, popNext, takeFirst, push, toList, hf]
  | false =>
      have hr : frame.recovers = true := by
        cases hr : frame.recovers with
        | true => rfl
        | false => exact absurd (Frame.forwards_of_recovers_eq_false hr) (by simp [hf])
      refine ⟨.findErrorHandler, ?_⟩
      cases first <;> simp [perform, findErrorHandler, takeFirst, push, toList, hr]

/-- Any frames but none may be left with the slot empty. -/
theorem exists_without_top (frame : Frame S) (below : List (Frame S)) :
    ∃ ops, (performAll empty ops).2.first = none ∧
      (performAll empty ops).2.toList = frame :: below := by
  obtain ⟨op, hfirst, hleft⟩ := exists_perform_push
    (performAll empty ((frame :: below).reverse.map Operation.push)).2 frame
  refine ⟨(frame :: below).reverse.map Operation.push ++ [.push frame, op], ?_, ?_⟩
  · rw [performAll_append]
    exact hfirst
  · rw [performAll_append]
    exact hleft.trans (performAll_push (frame :: below))

/-- The stack after a history is a plain list of frames: the operations return and leave what
they return and leave on the empty list, and nothing else, and the length and the emptiness of
the stack are those of the frames that they leave.  All this is also so of the frames that are
left with the slot empty, which may be any frames but none. -/
theorem history_contents :
    (∀ (ops : List (Operation S)) (results : List (Option (Frame S))) (frames : List (Frame S)),
      Does ops [] results frames ↔
        results = (performAll empty ops).1 ∧ frames = (performAll empty ops).2.toList) ∧
    (∀ ops : List (Operation S),
      (performAll empty ops).2.length = (performAll empty ops).2.toList.length ∧
        ((performAll empty ops).2.isEmpty = true ↔ (performAll empty ops).2.toList = [])) ∧
    ∀ (frame : Frame S) (below : List (Frame S)),
      ∃ ops, (performAll empty ops).2.first = none ∧
        (performAll empty ops).2.toList = frame :: below := by
  refine ⟨fun ops results frames => ?_, fun ops => ⟨length_eq _, isEmpty_iff _⟩,
    exists_without_top⟩
  constructor
  · intro h
    exact h.unique (performAll_does empty ops)
  · rintro ⟨rfl, rfl⟩
    exact performAll_does empty ops

end CallStack

end Trampoline
