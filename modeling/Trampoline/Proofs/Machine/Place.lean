import Trampoline.Proofs.Machine.Quiet

/-!
# The place of an activation

An activation whose code asks for something keeps its place on the control stack until the
code goes on.  What its code asked for comes above it; what waited below it stays there;
and a partial evaluation may stand in front of it for a while.

Main definitions and results:

- Definition `StepsAside`, theorem `State.work_behind`: all that a step of a partial evaluation
  does to what waits behind it.
- Definition `Stays`: after a step, an activation with a property is in a given place, and
  what is above it is none of the work of a run.
- Theorem `Quiet.stays`: a quiet step above leaves a waiting activation in its place.
- Theorems `State.stays_work_wrap`, `State.stays_work_partially`: a request of code, and a
  step of a partial evaluation, leave the place to the same activation.
-/

namespace Trampoline

variable {S : Closures} {σ : Type}

/-! ## Steps of a partial evaluation -/

/-- What a step of a partial evaluation comes to: it goes on, it gives what is left of the effect
to what waits behind it, or the panic of its code if that is fatal, or it is a step of code that
asks for something.  No bridge is touched but by the last. -/
inductive StepsAside (P : Program S σ) (w : World S σ) (rest : List (Activation S σ))
    (resume : Except Payload (Effect S) → Activation S σ) : Activation S σ → State S σ → Prop
  | goes {top a : Activation S σ} {w' : World S σ} (bridges : w'.bridges = w.bridges)
      (h : a.behind? = some resume) : StepsAside P w rest resume top (.running w' a rest)
  | gives {top : Activation S σ} (residual : Effect S) :
      StepsAside P w rest resume top (.running w (resume (.ok residual)) rest)
  | raises {α : Type} (h : Holder S σ α) {payload : Payload}
      (fatal : w.classifier payload = false) :
      StepsAside P w rest resume (h.wrap (.panic payload))
        (.running w (resume (.error payload)) rest)
  | asks {α : Type} (h : Holder S σ α) (code : Code S σ α) (hdone : ∀ a, code ≠ .done a)
      (hpanic : ∀ payload, code ≠ .panic payload) :
      StepsAside P w rest resume (h.wrap code) (State.work P w rest (h.wrap code))

namespace State

variable {w : World S σ} {rest : List (Activation S σ)} {stack : CallStack (Frame S)}
  {resume : Except Payload (Effect S) → Activation S σ} {top : Activation S σ}

theorem reduce_behind (P : Program S σ) (node : Effect S) :
    StepsAside P w rest resume top (reduce P w (.partially stack resume) node rest) := by
  cases node with
  | fail e =>
      simp only [reduce, Driver.stack]
      cases hf : stack.findErrorHandler with
      | mk frame stack' =>
          cases frame with
          | some frame => exact .goes rfl rfl
          | none => exact .gives _
  | pure v => exact .goes rfl rfl
  | suspend k => exact .goes rfl rfl
  | delay k => exact .goes rfl rfl
  | bind source frame => exact .goes rfl rfl
  | map source f => exact .goes rfl rfl
  | continueOn context source => exact .goes rfl rfl
  | async k => exact .gives _
  | parked inner stack' => exact .gives _
  | deferred context b => exact .gives _
  | switchConnection source modify restore => exact .gives _

theorem value_behind (P : Program S σ) (v : Value) :
    StepsAside P w rest resume top (value P w (.partially stack resume) v rest) := by
  simp only [value, Driver.stack]
  cases hp : stack.popNext with
  | mk frame stack' =>
      cases frame with
      | some frame => exact .goes rfl rfl
      | none => exact .gives _

theorem panicIn_behind (P : Program S σ) {α : Type} (h : Holder S σ α) (payload : Payload) :
    StepsAside P w rest resume (h.wrap (.panic payload))
      (panicIn P w (.partially stack resume) payload rest) := by
  simp only [panicIn]
  split
  · exact .goes rfl rfl
  · next hfatal => exact .raises h (by simpa using hfatal)

/-- A step of a partial evaluation. -/
theorem work_behind (P : Program S σ) (hres : top.behind? = some resume) :
    StepsAside P w rest resume top (work P w rest top) := by
  cases top with
  | eval d n =>
      cases d with
      | loop run => cases hres
      | partially stack resume =>
          cases hres
          exact reduce_behind P n
  | value d v =>
      cases d with
      | loop run => cases hres
      | partially stack resume =>
          cases hres
          exact value_behind P v
  | node d code =>
      cases d with
      | loop run => cases hres
      | partially stack resume =>
          cases hres
          cases code with
          | done e => exact .goes rfl rfl
          | panic payload => exact panicIn_behind P (.node (.partially stack resume)) payload
          | _ => exact .asks (.node (.partially stack resume)) _ (by simp) (by simp)
  | outcome d code =>
      cases d with
      | loop run => cases hres
      | partially stack resume =>
          cases hres
          cases code with
          | done o => cases o <;> exact .goes rfl rfl
          | panic payload => exact panicIn_behind P (.outcome (.partially stack resume)) payload
          | _ => exact .asks (.outcome (.partially stack resume)) _ (by simp) (by simp)
  | _ => cases hres

end State

/-- A property of an activation that may be hidden is one of all that waits behind it. -/
theorem Activation.every_iff_of_behind? {φ : Activation S σ → Prop} {a : Activation S σ}
    {resume : Except Payload (Effect S) → Activation S σ} (h : a.behind? = some resume) :
    a.Every φ ↔ ∀ r, (resume r).Every φ := by
  cases a with
  | eval d n => cases d <;> cases h; exact Iff.rfl
  | value d v => cases d <;> cases h; exact Iff.rfl
  | node d code => cases d <;> cases h; exact Iff.rfl
  | outcome d code => cases d <;> cases h; exact Iff.rfl
  | _ => cases h

/-! ## The place -/

/-- A step from a world has left an activation with a property, if only behind a partial
evaluation, right above `below`, and above it nothing of the work of the run of bridge
`i`, whose bridge is the same. -/
structure Stays (φ : Activation S σ → Prop) (i : Nat) (w : World S σ)
    (below : List (Activation S σ)) (s : State S σ) : Prop where
  bridge : i < w.bridges.size → s.world.bridges[i]? = w.bridges[i]?
  place : ∃ above a, s.activations = above ++ a :: below ∧ (∀ x ∈ above, x.Idle i) ∧
    a.Every φ ∧ (above = [] ∨ a.Waits)

/-- A quiet step above leaves a waiting activation in its place. -/
theorem Quiet.stays {φ : Activation S σ → Prop} (hφ : Activation.Stable φ) {i : Nat}
    {w : World S σ} {above below : List (Activation S σ)} {a : Activation S σ} {s : State S σ}
    (h : Quiet i w (above ++ a :: below) s) (habove : ∀ x ∈ above, x.Idle i)
    (ha : a.Every φ) (hw : a.Waits) : Stays φ i w below s := by
  refine ⟨h.bridge_eq, ?_⟩
  cases h with
  | goes w' new size bridge idle =>
      refine ⟨new ++ above, a, by simp, fun x hx => ?_, ha, .inr hw⟩
      rw [List.mem_append] at hx
      exact hx.elim (idle x) (habove x)
  | panics w' payload size bridge =>
      cases above with
      | nil => exact ⟨[], a.panicking payload, rfl, by simp, ha.panicking hφ hw payload, .inl rfl⟩
      | cons top above =>
          refine ⟨top.panicking payload :: above, a, rfl, fun x hx => ?_, ha, .inr hw⟩
          rcases List.mem_cons.mp hx with rfl | hx
          · exact (habove top (by simp)).panicking payload
          · exact habove x (by simp [hx])

namespace State

variable {φ : Activation S σ → Prop} {i : Nat} {w : World S σ} {rest : List (Activation S σ)}

/-- A step that only replaces the activation on top. -/
theorem stays_running {w' : World S σ} {a : Activation S σ} (ha : a.Every φ)
    (hb : w'.bridges = w.bridges) : Stays φ i w rest (.running w' a rest) :=
  ⟨fun _ => by simp [hb], [], a, rfl, by simp, ha, .inl rfl⟩

/-- A request of a piece of code leaves the place to the activation of the code. -/
theorem stays_work_wrap (P : Program S σ) (hφ : Activation.Stable φ) {α : Type}
    (h : Holder S σ α) {code : Code S σ α} (ha : (h.wrap code).Every φ)
    (hdone : ∀ a, code ≠ .done a) (hpanic : ∀ payload, code ≠ .panic payload)
    (hwins : ∀ cb o, code.completion? = some (cb, o) → ¬w.Wins i cb) :
    Stays φ i w rest (work P w rest (h.wrap code)) := by
  rw [work_wrap]
  cases code with
  | done a => exact absurd rfl (hdone a)
  | panic payload => exact absurd rfl (hpanic payload)
  | query q next =>
      exact stays_running (ha.later hφ h (.answered q next _)) (World.answer_bridges w q)
  | command c next =>
      have hq : Quiet i w ([] ++ h.wrap (next ()) :: rest)
          (begin P w c (h.wrap (next ()) :: rest)) :=
        quiet_begin P c fun cb o hc => hwins cb o (by rw [hc]; rfl)
      exact hq.stays hφ (by simp) (ha.later hφ h (.returned c next)) (by simp)
  | step e next =>
      -- The code goes on behind the partial evaluation, whatever comes out of it.
      refine stays_running (fun r => ?_) rfl
      cases r with
      | ok residual => exact ha.later hφ h (.stepped e next residual)
      | error payload => exact ha.later hφ h (.panicked _ payload)

/-- A step of a partial evaluation keeps the place of what waits behind it. -/
theorem stays_work_partially (P : Program S σ) (hφ : Activation.Stable φ)
    {top : Activation S σ} {resume : Except Payload (Effect S) → Activation S σ}
    (hres : top.behind? = some resume) (ha : top.Every φ)
    (hwins : ∀ cb o, top.completion? w = some (cb, o) → ¬w.Wins i cb) :
    Stays φ i w rest (work P w rest top) := by
  have hbehind := (Activation.every_iff_of_behind? hres).mp ha
  have hstep : StepsAside P w rest resume top (work P w rest top) := work_behind P hres
  generalize work P w rest top = s at hstep ⊢
  cases hstep with
  | goes bridges h => exact stays_running ((Activation.every_iff_of_behind? h).mpr hbehind) bridges
  | gives residual => exact stays_running (hbehind _) rfl
  | raises h fatal => exact stays_running (hbehind _) rfl
  | asks h code hdone hpanic =>
      refine stays_work_wrap P hφ h ha hdone hpanic fun cb o hc => hwins cb o ?_
      rw [Activation.completion?_wrap w h hpanic]
      exact hc

end State

end Trampoline
