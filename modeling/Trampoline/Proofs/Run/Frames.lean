import Trampoline.Proofs.Run.Reference

/-!
# Frames that let an exit pass

A loop searches its stack for the first frame that takes an exit, and drops the frames
above it.  The evaluator without a stack gives the exit to each frame in turn, and a frame
that does not take it lets it pass.  Both come to the same frame.

Main results:

- Theorems `CallStack.takeFirst_some`, `CallStack.takeFirst_none`: what a search finds.
- Theorems `Proceeds.caught`, `Proceeds.uncaught`: an exit proceeds to the frame that the
  search finds, or out of all frames.
-/

namespace Trampoline

/-! ## The search in a stack -/

namespace CallStack

variable {φ : Type} {p : φ → Bool}

private theorem takeFirstBelow_some {frames : List φ} {count : Nat} {h : count = frames.length}
    {frame : φ} {stack : CallStack φ}
    (hs : takeFirstBelow p frames count h = (some frame, stack)) :
    ∃ dropped, frames = dropped ++ frame :: stack.toList ∧ (∀ f ∈ dropped, p f = false) ∧
      p frame = true := by
  induction frames generalizing count with
  | nil => cases hs
  | cons f frames ih =>
      simp only [takeFirstBelow] at hs
      split at hs
      · next hp =>
          cases hs
          exact ⟨[], rfl, by simp, hp⟩
      · next hp =>
          obtain ⟨dropped, hframes, hdropped, hframe⟩ := ih hs
          refine ⟨f :: dropped, by rw [hframes]; rfl, fun f' hf' => ?_, hframe⟩
          rcases List.mem_cons.mp hf' with rfl | hf'
          · simpa using hp
          · exact hdropped f' hf'

private theorem takeFirstBelow_none {frames : List φ} {count : Nat} {h : count = frames.length}
    {stack : CallStack φ} (hs : takeFirstBelow p frames count h = (none, stack)) :
    ∀ f ∈ frames, p f = false := by
  induction frames generalizing count with
  | nil => simp
  | cons f frames ih =>
      simp only [takeFirstBelow] at hs
      split at hs
      · cases hs
      · next hp =>
          intro f' hf'
          rcases List.mem_cons.mp hf' with rfl | hf'
          · simpa using hp
          · exact ih hs f' hf'

/-- A search finds the first frame of its kind and leaves what is below it. -/
theorem takeFirst_some {stack stack' : CallStack φ} {frame : φ}
    (hs : stack.takeFirst p = (some frame, stack')) :
    ∃ dropped, stack.toList = dropped ++ frame :: stack'.toList ∧
      (∀ f ∈ dropped, p f = false) ∧ p frame = true := by
  obtain ⟨first, rest, below, hbelow⟩ := stack
  cases first with
  | none => exact takeFirstBelow_some (h := hbelow) hs
  | some f =>
      simp only [takeFirst] at hs
      split at hs
      · next hp =>
          cases hs
          exact ⟨[], rfl, by simp, hp⟩
      · next hp =>
          obtain ⟨dropped, hframes, hdropped, hframe⟩ := takeFirstBelow_some hs
          refine ⟨f :: dropped, by simp [toList, hframes], fun f' hf' => ?_, hframe⟩
          rcases List.mem_cons.mp hf' with rfl | hf'
          · simpa using hp
          · exact hdropped f' hf'

/-- A search that finds nothing has seen no frame of its kind. -/
theorem takeFirst_none {stack stack' : CallStack φ} (hs : stack.takeFirst p = (none, stack')) :
    ∀ f ∈ stack.toList, p f = false := by
  obtain ⟨first, rest, below, hbelow⟩ := stack
  cases first with
  | none => exact takeFirstBelow_none (h := hbelow) hs
  | some f =>
      simp only [takeFirst] at hs
      split at hs
      · cases hs
      · next hp =>
          intro f' hf'
          rcases List.mem_cons.mp hf' with rfl | hf'
          · simpa using hp
          · exact takeFirstBelow_none hs f' hf'

private theorem takeFirstBelow_none_left {frames : List φ} {count : Nat}
    {h : count = frames.length} {stack : CallStack φ}
    (hs : takeFirstBelow p frames count h = (none, stack)) : stack.toList = [] := by
  induction frames generalizing count with
  | nil =>
      cases hs
      rfl
  | cons f frames ih =>
      simp only [takeFirstBelow] at hs
      split at hs
      · cases hs
      · exact ih hs

/-- A search that finds nothing leaves nothing. -/
theorem takeFirst_none_left {stack stack' : CallStack φ}
    (hs : stack.takeFirst p = (none, stack')) : stack'.toList = [] := by
  obtain ⟨first, rest, below, hbelow⟩ := stack
  cases first with
  | none => exact takeFirstBelow_none_left (h := hbelow) hs
  | some f =>
      simp only [takeFirst] at hs
      split at hs
      · cases hs
      · exact takeFirstBelow_none_left hs

end CallStack

/-! ## Exits -/

variable {S : Closures}

/-- Whether a frame takes an exit. -/
def Frame.takes (o : Outcome) (frame : Frame S) : Bool :=
  match o with
  | .ok _ => frame.forwards
  | .error _ => frame.recovers

/-- Take the next frame for an exit. -/
def CallStack.takeFor (stack : CallStack (Frame S)) (o : Outcome) :
    Option (Frame S) × CallStack (Frame S) :=
  match o with
  | .ok _ => stack.popNext
  | .error _ => stack.findErrorHandler

theorem CallStack.takeFor_eq_takeFirst (stack : CallStack (Frame S)) (o : Outcome) :
    stack.takeFor o = stack.takeFirst (Frame.takes o) := by
  cases o <;> rfl

/-- The frame that a loop finds for an exit takes it. -/
theorem CallStack.takes_of_takeFor {stack stack' : CallStack (Frame S)} {o : Outcome}
    {frame : Frame S} (h : stack.takeFor o = (some frame, stack')) : frame.takes o = true := by
  rw [takeFor_eq_takeFirst] at h
  obtain ⟨_, _, _, htakes⟩ := takeFirst_some h
  exact htakes

/-- A frame that does not take an exit lets it pass. -/
theorem Frame.move_of_not_takes {frame : Frame S} {o : Outcome} (h : frame.takes o = false)
    (c : Connection) : frame.move c o = .exit c o := by
  cases frame <;> cases o <;> first | rfl | cases h

namespace Proceeds

variable {c : Connection} {o : Outcome}

/-- An exit goes past all frames that do not take it. -/
theorem pass {dropped : List (Frame S)} (h : ∀ f ∈ dropped, f.takes o = false)
    (frames : List (Frame S)) :
    Proceeds ((Course.exit c o).within (dropped ++ frames)) []
      ((Course.exit c o).within frames) := by
  induction dropped with
  | nil => exact .refl _
  | cons f dropped ih =>
      have hf : Proceeds (.seq (.exit c o) f) [] (.exit c o) := by
        refine .go ?_
        simp [Course.head, Frame.move_of_not_takes (h f (by simp))]
      exact (hf.within (dropped ++ frames)).trans (ih fun f' hf' => h f' (by simp [hf']))

/-- An exit proceeds to the frame that a loop finds for it. -/
theorem caught {stack stack' : CallStack (Frame S)} {frame : Frame S}
    (h : stack.takeFor o = (some frame, stack')) :
    Proceeds ((Course.exit c o).within stack.toList) []
      ((frame.move c o).within stack'.toList) := by
  rw [CallStack.takeFor_eq_takeFirst] at h
  obtain ⟨dropped, hstack, hdropped, -⟩ := CallStack.takeFirst_some h
  rw [hstack]
  have hframe : Proceeds (.seq (.exit c o) frame) [] (frame.move c o) := .go rfl
  exact (pass hdropped (frame :: stack'.toList)).trans (hframe.within stack'.toList)

/-- An exit for which a loop finds no frame leaves all frames. -/
theorem uncaught {stack stack' : CallStack (Frame S)} (h : stack.takeFor o = (none, stack')) :
    Proceeds ((Course.exit c o).within stack.toList) [] (.exit c o) := by
  rw [CallStack.takeFor_eq_takeFirst] at h
  simpa using pass (c := c) (CallStack.takeFirst_none h) []

end Proceeds

/-! ## The front of an evaluation within frames -/

namespace Course

/-- An evaluation that has been aborted is aborted within any frames. -/
theorem head_within_aborted {m : Course S} (h : m.head = .aborted) (frames : List (Frame S)) :
    (m.within frames).head = .aborted := by
  induction frames generalizing m with
  | nil => exact h
  | cons frame frames ih => exact ih (head_seq_aborted h frame)

/-- An evaluation asks the same within any frames, which wait while it does. -/
theorem head_within_asks {m : Course S} {q : Question S} {next : q.Answer → Course S}
    (h : m.head = .asks q next) (frames : List (Frame S)) :
    (m.within frames).head = .asks q fun a => (next a).within frames := by
  induction frames generalizing m next with
  | nil => exact h
  | cons frame frames ih => exact ih (head_seq_asks h frame)

/-- An evaluation goes on within any frames as it does without. -/
theorem head_within_goes {m m' : Course S} (h : m.head = .goes m') (frames : List (Frame S)) :
    (m.within frames).head = .goes (m'.within frames) := by
  induction frames generalizing m m' with
  | nil => exact h
  | cons frame frames ih => exact ih (head_seq_goes h frame)

end Course

namespace Evaluates

/-- A cancellation ends the evaluation within any frames. -/
theorem abort_within (frames : List (Frame S)) :
    Evaluates (Course.abort.within frames) [] .aborted :=
  evaluates_of_ending (by rw [Course.head_within_aborted rfl frames]; rfl)

/-- An evaluation that asks waits for the answer within any frames. -/
theorem ask_within (q : Question S) (next : q.Answer → Course S) (frames : List (Frame S)) :
    Evaluates ((Course.ask q next).within frames) [] (.asking q) :=
  evaluates_of_ending (by rw [Course.head_within_asks rfl frames]; rfl)

end Evaluates

end Trampoline
