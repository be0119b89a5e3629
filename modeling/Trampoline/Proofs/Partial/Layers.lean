import Trampoline.Proofs.Machine.Place
import Trampoline.Proofs.Machine.Reachable

/-!
# Partial evaluations in front of one another

A partial evaluation takes the place of the activation that has asked for it, and gives it
back when it comes to its end.  Code that works for a partial evaluation may ask for another
one, so any number of them may stand in one place, each in front of the one before.  Their
number tells them apart: it goes up by one with each request and down by one with each end.

Main definitions and results:

- Definition `Activation.layers`: the number of partial evaluations in one place.
- Definition `Activation.Hides`: an activation with so many partial evaluations in front.
- Theorem `Activation.Hides.layers`: it is found by their number.
- Definition `Keeps`, theorems `Quiet.keeps`, `State.keeps_work_wrap`,
  `State.keeps_work_partially`: a step leaves it in its place.
-/

namespace Trampoline

variable {S : Closures} {σ : Type}

namespace Activation

/-- The number of partial evaluations that stand in one place, one in front of the other. -/
def layers : Activation S σ → Nat
  | .eval (.partially _ resume) _ => (resume (.ok .unit)).layers + 1
  | .value (.partially _ resume) _ => (resume (.ok .unit)).layers + 1
  | .node (.partially _ resume) _ => (resume (.ok .unit)).layers + 1
  | .outcome (.partially _ resume) _ => (resume (.ok .unit)).layers + 1
  | _ => 0

/-- An activation with a property, behind so many partial evaluations. -/
def Hides (φ : Activation S σ → Prop) : Nat → Activation S σ → Prop
  | 0, a => φ a
  | n + 1, a => ∃ resume, a.behind? = some resume ∧ ∀ r, (resume r).Hides φ n

variable {φ : Activation S σ → Prop} {n : Nat}

/-- What stands behind a partial evaluation has one layer less. -/
theorem layers_of_behind? {a : Activation S σ}
    {resume : Except Payload (Effect S) → Activation S σ} (h : a.behind? = some resume) :
    a.layers = (resume (.ok .unit)).layers + 1 := by
  cases a with
  | eval d node => cases d <;> cases h; rw [layers]
  | value d v => cases d <;> cases h; rw [layers]
  | node d code => cases d <;> cases h; rw [layers]
  | outcome d code => cases d <;> cases h; rw [layers]
  | _ => cases h

/-- The layers of an activation tell how far it is hidden. -/
theorem Hides.layers {k : Nat} (hφ : ∀ a, φ a → a.layers = k) {a : Activation S σ}
    (h : a.Hides φ n) : a.layers = k + n := by
  induction n generalizing a with
  | zero => exact hφ a h
  | succ n ih =>
      obtain ⟨resume, hbehind, hhides⟩ := h
      rw [layers_of_behind? hbehind, ih (hhides _), Nat.add_assoc]

/-- What stands behind an activation does not depend on how far its code has come. -/
theorem behind?_wrap {α : Type} (h : Holder S σ α) (code code' : Code S σ α) :
    (h.wrap code).behind? = (h.wrap code').behind? := by
  cases h with
  | node d => cases d <;> rfl
  | outcome d => cases d <;> rfl
  | _ => rfl

/-- A stable property stays with an activation, hidden or not, while code runs in front. -/
theorem Hides.later (hφ : Stable φ) {α : Type} {h : Holder S σ α} {code code' : Code S σ α}
    (hl : code.Later code') (ha : (h.wrap code).Hides φ n) : (h.wrap code').Hides φ n := by
  cases n with
  | zero => exact hφ h code code' hl ha
  | succ n =>
      obtain ⟨resume, hbehind, hhides⟩ := ha
      exact ⟨resume, (behind?_wrap h code' code).trans hbehind, hhides⟩

theorem Hides.panicking (hφ : Stable φ) {a : Activation S σ} (ha : a.Hides φ n) (hw : a.Waits)
    (payload : Payload) : (a.panicking payload).Hides φ n := by
  cases a with
  | node d code => exact Hides.later (h := .node d) hφ (.panicked code payload) ha
  | outcome d code => exact Hides.later (h := .outcome d) hφ (.panicked code payload) ha
  | switch run source restore code =>
      exact Hides.later (h := .switch run source restore) hφ (.panicked code payload) ha
  | owing cb code => exact Hides.later (h := .owing cb) hφ (.panicked code payload) ha
  | code code => exact Hides.later (h := .code) hφ (.panicked code payload) ha
  | _ => exact hw.elim

end Activation

/-- After a step, an activation with a property is right above `below`, or behind partial
evaluations that stand there; if there is anything above, it waits. -/
def Keeps (φ : Activation S σ → Prop) (below : List (Activation S σ)) (s : State S σ) : Prop :=
  ∃ above a n, s.activations = above ++ a :: below ∧ a.Hides φ n ∧ (above = [] ∨ a.Waits)

/-- What stands on top where an activation is kept: it, a partial evaluation in front of it, or
something above that it waits for. -/
theorem Keeps.cases {φ : Activation S σ → Prop} {w : World S σ} {top : Activation S σ}
    {rest below : List (Activation S σ)} (h : Keeps φ below (.running w top rest)) :
    rest = below ∧ (φ top ∨ ∃ n, top.Hides φ (n + 1)) ∨
      ∃ above a n, rest = above ++ a :: below ∧ a.Hides φ n ∧ a.Waits := by
  obtain ⟨above, a, n, place, hides, waits⟩ := h
  rw [State.activations_running] at place
  cases above with
  | nil =>
      rw [List.nil_append, List.cons.injEq] at place
      obtain ⟨rfl, rfl⟩ := place
      cases n with
      | zero => exact .inl ⟨rfl, .inl hides⟩
      | succ n => exact .inl ⟨rfl, .inr ⟨n, hides⟩⟩
  | cons x above =>
      rw [List.cons_append, List.cons.injEq] at place
      obtain ⟨rfl, rfl⟩ := place
      exact .inr ⟨above, a, n, rfl, hides, by simpa using waits⟩

/-- Nothing is kept where nothing works. -/
theorem Keeps.activations_ne_nil {φ : Activation S σ → Prop} {below : List (Activation S σ)}
    {s : State S σ} (h : Keeps φ below s) : s.activations ≠ [] := by
  obtain ⟨above, a, n, place, -⟩ := h
  simp [place]

/-- A step above leaves a waiting activation in its place. -/
theorem Quiet.keeps {φ : Activation S σ → Prop} (hφ : Activation.Stable φ) {i n : Nat}
    {w : World S σ} {above below : List (Activation S σ)} {a : Activation S σ} {s : State S σ}
    (h : Quiet i w (above ++ a :: below) s) (ha : a.Hides φ n) (hw : a.Waits) :
    Keeps φ below s := by
  cases h with
  | goes w' new size bridge idle =>
      exact ⟨new ++ above, a, n, by simp, ha, .inr hw⟩
  | panics w' payload size bridge =>
      cases above with
      | nil => exact ⟨[], a.panicking payload, n, rfl, ha.panicking hφ hw payload, .inl rfl⟩
      | cons top above => exact ⟨top.panicking payload :: above, a, n, rfl, ha, .inr hw⟩

namespace State

variable {φ : Activation S σ → Prop} {w : World S σ} {rest : List (Activation S σ)} {n : Nat}

/-- A step that only replaces the activation on top. -/
theorem keeps_running {w' : World S σ} {a : Activation S σ} (ha : a.Hides φ n) :
    Keeps φ rest (.running w' a rest) :=
  ⟨[], a, n, rfl, ha, .inl rfl⟩

/-- A request of a piece of code leaves the place to the activation of the code. -/
theorem keeps_work_wrap (P : Program S σ) (hφ : Activation.Stable φ) {α : Type}
    {h : Holder S σ α} {code : Code S σ α} (ha : (h.wrap code).Hides φ n)
    (hdone : ∀ a, code ≠ .done a) (hpanic : ∀ payload, code ≠ .panic payload) :
    Keeps φ rest (work P w rest (h.wrap code)) := by
  rw [work_wrap]
  cases code with
  | done a => exact absurd rfl (hdone a)
  | panic payload => exact absurd rfl (hpanic payload)
  | query q next => exact keeps_running (ha.later hφ (.answered q next _))
  | command c next =>
      have hq : Quiet w.bridges.size w ([] ++ h.wrap (next ()) :: rest)
          (begin P w c (h.wrap (next ()) :: rest)) :=
        quiet_begin P c fun cb _ _ => World.not_wins_of_size_le (Nat.le_refl _) cb
      exact hq.keeps hφ (ha.later hφ (.returned c next)) (by simp)
  | step e next =>
      -- The code goes on behind one more partial evaluation, whatever comes out of it.
      refine keeps_running (n := n + 1) ⟨_, rfl, fun r => ?_⟩
      cases r with
      | ok residual => exact ha.later hφ (.stepped e next residual)
      | error payload => exact ha.later hφ (.panicked _ payload)

/-- A step of a partial evaluation in front leaves what is behind it in its place. -/
theorem keeps_work_partially (P : Program S σ) (hφ : Activation.Stable φ)
    {top : Activation S σ} (ha : top.Hides φ (n + 1)) : Keeps φ rest (work P w rest top) := by
  have hhides := ha
  obtain ⟨resume, hbehind, hr⟩ := ha
  have hstep : StepsAside P w rest resume top (work P w rest top) := work_behind P hbehind
  generalize work P w rest top = s at hstep ⊢
  cases hstep with
  | goes bridges h => exact keeps_running (n := n + 1) ⟨resume, h, hr⟩
  | gives residual => exact keeps_running (hr _)
  | raises h fatal => exact keeps_running (hr _)
  | asks h code hdone hpanic => exact keeps_work_wrap P hφ hhides hdone hpanic

end State

end Trampoline
