import Trampoline.Proofs.Machine.Locality
import Trampoline.Proofs.Machine.Quiet

/-!
# Reachable states

The states that a host can bring the machine into, with whatever code, and the first
invariant of all of them: no activation works for a bridge that has not been made yet.

Main definitions and results:

- Definition `State.Reachable`: the states that a host can bring the machine into.
- Theorem `State.Reachable.bounded`: in a reachable state, the bridges of all loops exist.
-/

namespace Trampoline

variable {S : Closures} {σ : Type}

namespace State

/-- The states of a machine that starts in a world in which nothing has happened, takes
steps, and is given more code whenever it has come to its end. -/
inductive Reachable (P : Program S σ) : State S σ → Prop
  | start (host : σ) (thread : String) (code : Code S σ Unit) :
      Reachable P (.start (.initial host thread) code)
  | next {s : State S σ} (h : Reachable P s) : Reachable P (s.next P)
  | again {s : State S σ} (h : Reachable P s) (hs : s.activations = [])
      (code : Code S σ Unit) : Reachable P (.start s.world code)

/-- So many steps of a state that can be reached. -/
theorem Reachable.run {P : Program S σ} {s : State S σ} (h : Reachable P s) (n : Nat) :
    Reachable P (State.run P n s) := by
  induction n generalizing s with
  | zero => exact h
  | succ n ih =>
      rw [run_succ]
      exact ih h.next

end State

/-! ## Loops have bridges -/

namespace World

/-- A bridge that does not exist waits for nobody. -/
theorem not_wins_of_size_le {w : World S σ} {i : Nat} (hi : w.bridges.size ≤ i)
    (cb : Callback) : ¬w.Wins i cb := by
  rintro ⟨hcb, harmed⟩
  obtain ⟨b, hb, -⟩ := isArmed_eq_true_iff.mp harmed
  rw [hcb, Array.getElem?_eq_none hi] at hb
  cases hb

end World

namespace State

/-- No activation of a state works for a bridge that does not exist. -/
def Bounded (s : State S σ) : Prop :=
  ∀ i, s.world.bridges.size ≤ i → ∀ a ∈ s.activations, a.Idle i

/-- A step leaves no activation behind that works for a bridge that does not exist. -/
theorem Bounded.next {s : State S σ} (h : s.Bounded) (P : Program S σ) :
    (s.next P).Bounded := by
  cases s with
  | returned w => exact h
  | unwound w payload => exact h
  | running w top rest =>
      -- The step may create a bridge, so a bridge that does not exist after it did not
      -- exist before it either.
      intro i hi
      have hq : ∀ j, w.bridges.size ≤ j → Quiet j w rest (work P w rest top) := fun j hj =>
        quiet_work P (h j hj top (by simp)) fun cb _ _ => World.not_wins_of_size_le hj cb
      have hsize : w.bridges.size ≤ i :=
        Nat.le_trans (hq w.bridges.size (Nat.le_refl _)).size_le hi
      exact (hq i hsize).all_idle fun a ha => h i hsize a (by simp [ha])

/-- In a reachable state, the bridges of all loops exist. -/
theorem Reachable.bounded {P : Program S σ} {s : State S σ} (h : Reachable P s) :
    s.Bounded := by
  induction h with
  | start host thread code =>
      intro i _ a ha
      rw [List.mem_singleton.mp ha]
      exact Activation.idle_code i code
  | next h ih => exact ih.next P
  | again h hs code ih =>
      intro i _ a ha
      rw [List.mem_singleton.mp ha]
      exact Activation.idle_code i code

end State

end Trampoline
