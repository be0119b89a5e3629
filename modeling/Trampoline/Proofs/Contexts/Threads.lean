import Trampoline.Proofs.Contexts.Steps
import Trampoline.Proofs.Machine.Containment

/-!
# Bodies on other threads

Where a deferred body runs on a thread of its own for one host, and at once for the other one, the
two machines differ by the bottom of that thread.  It makes a difference only to a panic, which it
stops.  But no panic comes that far: the engine guards the body, and all that follows a completion
by the body, if no panic is fatal and the code that the engine does not guard lets none out.

So the one machine is always a few steps behind the other at most, those with which it leaves the
threads that the other has not.

Main definitions and results:

- Definition `State.Beside`: states that differ in contexts, and in the threads of deferred bodies.
- Theorem `State.Beside.next`: a step.
- Theorem `State.Beside.catchesUp`: the left side comes to where the right side is.
-/

namespace Trampoline

variable {S : Closures} {σ : Type} {P P' : Program S σ} {E : σ → σ → Prop}

namespace State

/-- Two states, up to contexts, where bodies on the left may stand on threads of their own. -/
inductive Beside (P : Program S σ) (E : σ → σ → Prop) : State S σ → State S σ → Prop
  | flat {s s' : State S σ} (h : State.Assigns E s s') : Beside P E s s'
  /-- The states above and below the bottom of a thread.  No panic comes down to it. -/
  | hop {t t' : State S σ} (above : Beside P E t t') (call : Handled P t ∨ t.NeverUnwinds P)
      (outer : String) {below below' : List (Activation S σ)}
      (waiting : List.Forall₂ (Activation.Assigns E) below below') :
      Beside P E (t.onto (.thread outer :: below)) (t'.onto below')

/-- What a step comes to, with a body that may have gone to another thread. -/
theorem Moves.beside {rest rest' : List (Activation S σ)} {s s' : State S σ}
    (h : Moves E rest rest' s s') (hrest : List.Forall₂ (Activation.Assigns E) rest rest') :
    Beside P E s s' := by
  cases h with
  | alike h => exact .flat h
  | hops world cb alike outer =>
      have habove := Beside.flat (P := P) (.running world (.owing cb alike) .nil)
      exact .hop habove (.inl (.alone trivial)) outer hrest

namespace Beside

variable {s s' : State S σ}

/-- Both sides have the same worlds, up to contexts. -/
theorem world (h : Beside P E s s') : World.Assigns E s.world s'.world := by
  induction h with
  | flat h => cases h <;> assumption
  | hop above call outer waiting ih => simpa using ih

/-- Where nothing is left on the left, nothing is left on the right, and the ends are the same. -/
theorem assigns_of_ended (h : Beside P E s s') (hs : s.activations = []) :
    State.Assigns E s s' := by
  cases h with
  | flat h => exact h
  | @hop t t' above call outer below below' waiting =>
      have hlength := length_activations_onto t (.thread outer :: below)
      simp [hs] at hlength

/-- A step on the left is one on the right, or it leaves a thread that the right has not. -/
theorem next (h : Beside P E s s') (hP : P.Assigns E P') (hcontained : s.StepContained P)
    (hs : s.activations ≠ []) :
    s'.activations ≠ [] ∧ Beside P E (s.next P) (s'.next P') ∨
      (s.next P).activations.length < s.activations.length ∧ Beside P E (s.next P) s' := by
  induction h with
  | flat h =>
      cases h with
      | running world work waiting =>
          exact .inl ⟨by simp, (moves_work hP world waiting work).beside waiting⟩
      | returned world => exact absurd rfl hs
      | unwound world payload => exact absurd rfl hs
  | @hop t t' above call outer below below' waiting ih =>
      cases t with
      | returned w =>
          -- The body is done, and its thread is left.
          cases above.assigns_of_ended rfl with
          | returned hworld =>
              have hleaves : ((returned w).onto (.thread outer :: below)).next P =
                  resume { w with thread := outer } below := rfl
              rw [hleaves]
              refine .inr ⟨?_, .flat (assigns_resume (hworld.withThread outer _) waiting)⟩
              rw [activations_resume]
              exact Nat.lt_succ_self below.length
      | unwound w payload =>
          rcases call with hhandled | hnever
          · exact hhandled.ne_unwound.elim
          · exact absurd rfl (hnever 0 w payload)
      | running w top rest =>
          have hcontained' : (running w top rest).StepContained P := by
            intro w' top' rest' h
            cases h
            exact hcontained w top _ rfl
          have hcall : Handled P ((running w top rest).next P) ∨
              ((running w top rest).next P).NeverUnwinds P := by
            rcases call with hhandled | hnever
            · exact hhandled.next hcontained'.panicsContained
            · exact .inr hnever.next
          rw [next_onto]
          rcases ih hcontained' (by simp) with ⟨hs', habove⟩ | ⟨hless, habove⟩
          · cases t' with
            | returned w' => exact absurd rfl hs'
            | unwound w' payload => exact absurd rfl hs'
            | running w' top' rest' =>
                rw [next_onto]
                exact .inl ⟨by simp [onto], .hop habove hcall outer waiting⟩
          · refine .inr ⟨?_, .hop habove hcall outer waiting⟩
            rw [length_activations_onto, length_activations_onto]
            exact Nat.add_lt_add_right hless _

/-- The left side leaves the threads that the right has not, until the next step is one of both
sides, or both have come to their ends. -/
theorem catchesUp (h : Beside P E s s') (hP : P.Assigns E P')
    (hcontained : ∀ k, (State.run P k s).StepContained P) :
    ∃ n, Beside P E (State.run P n s) s' ∧ ((State.run P n s).activations = [] ∨
      s'.activations ≠ [] ∧ Beside P E ((State.run P n s).next P) (s'.next P')) := by
  induction hlength : s.activations.length using Nat.strongRecOn generalizing s with
  | ind length ih =>
      by_cases hs : s.activations = []
      · exact ⟨0, h, .inl hs⟩
      · rcases h.next hP (hcontained 0) hs with ⟨hs', hnext⟩ | ⟨hless, hnext⟩
        · exact ⟨0, h, .inr ⟨hs', hnext⟩⟩
        · have hcontained' : ∀ k, (State.run P k (s.next P)).StepContained P := fun k => by
            rw [← run_succ]
            exact hcontained (k + 1)
          obtain ⟨n, hn⟩ := ih _ (hlength ▸ hless) hnext hcontained' rfl
          rw [← run_succ] at hn
          exact ⟨n + 1, hn⟩

end Beside

end State

end Trampoline
