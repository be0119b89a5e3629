import Trampoline.Proofs.Laws.Composition
import Trampoline.Proofs.Partial.Unhindered

/-!
# The laws of recovery

A law of recovery says that two effects mean the same, though other frames wait for a failure on
the left than on the right: two handlers where the first hands its failures to the second, or one
handler that does both; a handler that only fails again, or none; a failure with a handler, or what
the handler does with it; a failure with a link behind it that lets it pass, or without.

The frames in which the two sides differ take failures only.  A value goes past them on both sides,
without a look at the connection.

Main definitions and results:

- Definition `RecoveryLaw`: the laws, with the effects and the frames that they equate.
- Definitions `RecoveryLaw.Swaps`, `RecoveryLaw.Stacks`: the frames on both sides.
- Theorem `RecoveryLaw.Swaps.awaiting`: which frames take an exit on both sides.
- Definitions `Activation.SameUpToRecovery`, `World.SameUpToRecovery`, `State.SameUpToRecovery`: the
  states on both sides.
-/

namespace Trampoline

variable {S : Closures} {σ : Type}

/-! ## The laws -/

/-- The laws of recovery, with the closures that they speak of. -/
inductive RecoveryLaw (P : Program S σ) where
  /-- Handlers compose: `h` makes an effect of what `h₁` does with the failure, with `h₂` to handle
  its failures. -/
  | nested (h₁ h₂ h : S.Handler) (t : Failure → S.Thunk)
    (thunk : ∀ e, P.thunk (t e) = P.handler h₁ e)
    (handler : ∀ e, P.handler h e = .done ((Effect.suspend (t e)).handleErrorWith h₂))
  /-- A handler fails again. -/
  | rethrown (h : S.Handler) (handler : ∀ e, P.handler h e = .done (.fail e))
  /-- A failure goes to the handler behind it: `t` does what `h` does with it. -/
  | thrown (e : Failure) (h : S.Handler) (t : S.Thunk) (thunk : P.thunk t = P.handler h e)
  /-- A link stands between a failure and all that could recover from it. -/
  | passed (e : Failure) (above : List (Link S)) (link : Link S) (below : List (Link S))
    (between : ∀ l ∈ link :: above, l.frame.recovers = false)
  /-- The same, when the links have become frames. -/
  | dropped (e : Failure) (above : List (Frame S)) (frame : Frame S)
    (between : ∀ f ∈ frame :: above, f.recovers = false)

namespace RecoveryLaw

variable {P : Program S σ}

/-- The left side of a law about an effect. -/
def left (m : Effect S) : RecoveryLaw P → Effect S
  | nested h₁ h₂ _ _ _ _ => (m.handleErrorWith h₁).handleErrorWith h₂
  | rethrown h _ => m.handleErrorWith h
  | thrown e h _ _ => (Effect.fail e).handleErrorWith h
  | passed e above link below _ => (Effect.fail e).chain (above ++ link :: below)
  | dropped e _ _ _ => .fail e

/-- The right side. -/
def right (m : Effect S) : RecoveryLaw P → Effect S
  | nested _ _ h _ _ _ => m.handleErrorWith h
  | rethrown _ _ => m
  | thrown _ _ t _ => .suspend t
  | passed e above _ below _ => (Effect.fail e).chain (above ++ below)
  | dropped e _ _ _ => .fail e

/-- The frames that are pending on both sides when the effects are met: the same, but for the link
that has become a frame. -/
def Pending : RecoveryLaw P → List (Frame S) → List (Frame S) → Prop
  | dropped _ above frame _, l, l' => ∃ frames, l = above ++ frame :: frames ∧ l' = above ++ frames
  | _, l, l' => l = l'

/-- The frames that wait for the effect on the left. -/
def leftFrames : RecoveryLaw P → List (Frame S)
  | nested h₁ h₂ _ _ _ _ => [.handle (.user h₁), .handle (.user h₂)]
  | rethrown h _ => [.handle (.user h)]
  | thrown _ _ _ _ | passed _ _ _ _ _ | dropped _ _ _ _ => []

/-- The frames that wait for it on the right. -/
def rightFrames : RecoveryLaw P → List (Frame S)
  | nested _ _ h _ _ _ => [.handle (.user h)]
  | rethrown _ _ | thrown _ _ _ _ | passed _ _ _ _ _ | dropped _ _ _ _ => []

/-- The frames of the law stand somewhere among the pending frames, which are the same apart
from them. -/
inductive Swaps (law : RecoveryLaw P) : List (Frame S) → List (Frame S) → Prop
  | here (frames : List (Frame S)) :
      Swaps law (law.leftFrames ++ frames) (law.rightFrames ++ frames)
  | push (frame : Frame S) {l l' : List (Frame S)} (h : Swaps law l l') :
      Swaps law (frame :: l) (frame :: l')

/-- Two stacks have the same frames, or the frames of a law are swapped. -/
def Stacks (law : RecoveryLaw P) (stack stack' : CallStack (Frame S)) : Prop :=
  stack.toList = stack'.toList ∨ law.Swaps stack.toList stack'.toList

namespace Stacks

variable {law : RecoveryLaw P} {stack stack' : CallStack (Frame S)}

/-- A stack may be on both sides of a law. -/
theorem refl (law : RecoveryLaw P) (stack : CallStack (Frame S)) : law.Stacks stack stack :=
  .inl rfl

/-- The same frame may be pushed on both sides. -/
theorem push (h : law.Stacks stack stack') (frame : Frame S) :
    law.Stacks (stack.push frame) (stack'.push frame) := by
  rcases h with hsame | hs
  · exact .inl (by simp [hsame])
  · exact .inr (by simpa using hs.push frame)

end Stacks

/-! ## The frames that take an exit -/

variable {law : RecoveryLaw P}

/-- The frames of a law take failures only. -/
theorem awaiting_value (law : RecoveryLaw P) (v : Value) (frames : List (Frame S)) :
    awaiting (.ok v) (law.leftFrames ++ frames) = awaiting (.ok v) (law.rightFrames ++ frames) := by
  cases law <;> rfl

/-- The frames that take an exit where the frames of a law are swapped: they are the same, or the
first one is and the others are swapped, or a failure has come to the frames of the law. -/
theorem Swaps.awaiting {l l' : List (Frame S)} (h : law.Swaps l l') (o : Outcome) :
    Trampoline.awaiting o l = Trampoline.awaiting o l' ∨
      (∃ frame k k', Trampoline.awaiting o l = frame :: k ∧
        Trampoline.awaiting o l' = frame :: k' ∧ law.Swaps k k') ∨
      ∃ e frames, o = .error e ∧ Trampoline.awaiting o l =
          Trampoline.awaiting o (law.leftFrames ++ frames) ∧
        Trampoline.awaiting o l' = Trampoline.awaiting o (law.rightFrames ++ frames) := by
  induction h with
  | here frames =>
      cases o with
      | ok v => exact .inl (law.awaiting_value v frames)
      | error e => exact .inr (.inr ⟨e, frames, rfl, rfl, rfl⟩)
  | @push frame l l' h ih =>
      cases htakes : frame.takes o with
      | true =>
          exact .inr (.inl ⟨frame, l, l', awaiting_cons_of_takes htakes l,
            awaiting_cons_of_takes htakes l', h⟩)
      | false =>
          rw [awaiting_cons_of_not_takes htakes, awaiting_cons_of_not_takes htakes]
          exact ih

/-- For an exit, both loops find the same, unless a failure has come to the frames of the law. -/
theorem Stacks.finds {stack stack' : CallStack (Frame S)} (h : law.Stacks stack stack')
    (o : Outcome) :
    Finds law.Stacks (stack.takeFor o) (stack'.takeFor o) ∨
      ∃ e frames, o = .error e ∧ Trampoline.awaiting o stack.toList =
          Trampoline.awaiting o (law.leftFrames ++ frames) ∧
        Trampoline.awaiting o stack'.toList =
          Trampoline.awaiting o (law.rightFrames ++ frames) := by
  have hsame : Trampoline.awaiting o stack.toList = Trampoline.awaiting o stack'.toList →
      Finds law.Stacks (stack.takeFor o) (stack'.takeFor o) := fun heq =>
    (finds_of_awaiting_eq heq).mono fun _ _ hb => .inl hb
  rcases h with hlist | hs
  · exact .inl (hsame (congrArg (Trampoline.awaiting o) hlist))
  · rcases hs.awaiting o with heq | ⟨frame, k, k', hk, hk', hswaps⟩ | hfailure
    · exact .inl (hsame heq)
    · obtain ⟨below, htake, rfl⟩ := CallStack.takeFor_of_awaiting hk
      obtain ⟨below', htake', rfl⟩ := CallStack.takeFor_of_awaiting hk'
      rw [htake, htake']
      exact .inl (.same frame (.inr hswaps))
    · exact .inr hfailure

/-- A value goes past the frames of a law. -/
theorem Stacks.finds_value {stack stack' : CallStack (Frame S)} (h : law.Stacks stack stack')
    (v : Value) : Finds law.Stacks (stack.takeFor (.ok v)) (stack'.takeFor (.ok v)) := by
  rcases h.finds (.ok v) with hfinds | ⟨e, frames, hv, -⟩
  · exact hfinds
  · cases hv

/-- A frame that does not recover makes no difference to a failure, if nothing above it does. -/
theorem awaiting_between {e : Failure} {above : List (Frame S)} {frame : Frame S}
    (h : ∀ f ∈ frame :: above, f.recovers = false) (frames : List (Frame S)) :
    Trampoline.awaiting (.error e) (above ++ frame :: frames) =
      Trampoline.awaiting (.error e) (above ++ frames) := by
  induction above with
  | nil =>
      have hframe : frame.takes (.error e) = false := h frame (by simp)
      exact awaiting_cons_of_not_takes hframe frames
  | cons f above ih =>
      have hf : f.takes (.error e) = false := h f (by simp)
      rw [List.cons_append, List.cons_append, awaiting_cons_of_not_takes hf,
        awaiting_cons_of_not_takes hf]
      exact ih fun f' hf' => h f' (List.cons_subset_cons frame (List.subset_cons_self f above) hf')

end RecoveryLaw

/-! ## SameUpToRecovery -/

/-- Two loops, on either side of a law. -/
structure Loop.SameUpToRecovery {P : Program S σ} (law : RecoveryLaw P) (run run' : Loop S) :
    Prop where
  connection : run.connection = run'.connection
  outlet : run.outlet = run'.outlet
  stack : law.Stacks run.stack run'.stack

section

variable {P : Program S σ} (law : RecoveryLaw P) (E : σ → σ → Prop)

mutual

/-- Two drivers, on either side of a law.  A partial evaluation is the same on both. -/
inductive Driver.SameUpToRecovery : Driver S σ → Driver S σ → Prop
  | loop {run run' : Loop S} (h : run.SameUpToRecovery law run') :
      Driver.SameUpToRecovery (.loop run) (.loop run')
  | partially (stack : CallStack (Frame S))
      {resume resume' : Except Payload (Effect S) → Activation S σ}
      (h : ∀ r, Activation.SameUpToRecovery (resume r) (resume' r)) :
      Driver.SameUpToRecovery (.partially stack resume) (.partially stack resume')

/-- What waits for the results of code, on either side of a law. -/
inductive Holder.SameUpToRecovery : {α : Type} → Holder S σ α → Holder S σ α → Prop
  | node {d d' : Driver S σ} (h : Driver.SameUpToRecovery d d') :
      Holder.SameUpToRecovery (.node d) (.node d')
  | outcome {d d' : Driver S σ} (h : Driver.SameUpToRecovery d d') :
      Holder.SameUpToRecovery (.outcome d) (.outcome d')
  | switch {run run' : Loop S} (h : run.SameUpToRecovery law run') (source : Effect S)
      (restore : Option (Restorer S)) :
      Holder.SameUpToRecovery (.switch run source restore) (.switch run' source restore)
  | owing (cb : Callback) : Holder.SameUpToRecovery (.owing cb) (.owing cb)
  | code : Holder.SameUpToRecovery .code .code

/-- Two activations, on either side of a law. -/
inductive Activation.SameUpToRecovery : Activation S σ → Activation S σ → Prop
  | eval {d d' : Driver S σ} (h : Driver.SameUpToRecovery d d') (e : Effect S) :
      Activation.SameUpToRecovery (.eval d e) (.eval d' e)
  | value {d d' : Driver S σ} (h : Driver.SameUpToRecovery d d') (v : Value) :
      Activation.SameUpToRecovery (.value d v) (.value d' v)
  | holds {α : Type} {h h' : Holder S σ α} {code code' : Code S σ α}
      (holder : Holder.SameUpToRecovery h h')
      (alike : code.Alike E Eq code') : Activation.SameUpToRecovery (h.wrap code) (h'.wrap code')
  | tokens (pending : List S.Token) :
      Activation.SameUpToRecovery (.tokens pending) (.tokens pending)
  | thread (outer : String) : Activation.SameUpToRecovery (.thread outer) (.thread outer)

end

/-- Two bridges, on either side of a law. -/
structure Bridge.SameUpToRecovery (b b' : Bridge S) : Prop where
  connection : b.connection = b'.connection
  terminal : b.terminal = b'.terminal
  stack : law.Stacks b.stack b'.stack
  armed : b.armed = b'.armed
  epochs : b.epochs = b'.epochs

/-- Two worlds, on either side of a law. -/
structure World.SameUpToRecovery (w w' : World S σ) : Prop where
  host : E w.host w'.host
  connections : w.connections = w'.connections
  bridges : ∀ i : Nat, Option.Rel (Bridge.SameUpToRecovery law) w.bridges[i]? w'.bridges[i]?
  classifier : w.classifier = w'.classifier
  thread : w.thread = w'.thread

/-- Two states of the machine, on either side of a law. -/
inductive State.SameUpToRecovery : State S σ → State S σ → Prop
  | running {w w' : World S σ} {top top' : Activation S σ} {rest rest' : List (Activation S σ)}
      (world : World.SameUpToRecovery law E w w')
      (work : Activation.SameUpToRecovery law E top top')
      (waiting : List.Forall₂ (Activation.SameUpToRecovery law E) rest rest') :
      State.SameUpToRecovery (.running w top rest) (.running w' top' rest')
  | returned {w w' : World S σ} (world : World.SameUpToRecovery law E w w') :
      State.SameUpToRecovery (.returned w) (.returned w')
  | unwound {w w' : World S σ} (world : World.SameUpToRecovery law E w w') (payload : Payload) :
      State.SameUpToRecovery (.unwound w payload) (.unwound w' payload)

end

section

variable {P : Program S σ} {law : RecoveryLaw P} {E : σ → σ → Prop}

/-- A loop may be on both sides of a law. -/
theorem Loop.SameUpToRecovery.refl (law : RecoveryLaw P) (run : Loop S) :
    run.SameUpToRecovery law run :=
  ⟨rfl, rfl, .refl law run.stack⟩

mutual

/-- Where the states of the host are the same, all that happens is. -/
theorem Driver.SameUpToRecovery.refl (law : RecoveryLaw P) :
    (d : Driver S σ) → Driver.SameUpToRecovery law Eq d d
  | .loop run => .loop (.refl law run)
  | .partially stack resume => .partially stack fun r =>
      Activation.SameUpToRecovery.refl law (resume r)

/-- An activation may be on both sides of a law. -/
theorem Activation.SameUpToRecovery.refl (law : RecoveryLaw P) :
    (a : Activation S σ) → Activation.SameUpToRecovery law Eq a a
  | .eval d e => .eval (Driver.SameUpToRecovery.refl law d) e
  | .value d v => .value (Driver.SameUpToRecovery.refl law d) v
  | .node d code => .holds (.node (Driver.SameUpToRecovery.refl law d)) (.refl code)
  | .outcome d code => .holds (.outcome (Driver.SameUpToRecovery.refl law d)) (.refl code)
  | .switch run source restore code => .holds (.switch (.refl law run) source restore) (.refl code)
  | .owing cb code => .holds (.owing cb) (.refl code)
  | .code code => .holds .code (.refl code)
  | .tokens pending => .tokens pending
  | .thread outer => .thread outer

end

/-- A world in which the host makes nothing of the number of frames may stand on both sides of a
law. -/
theorem World.SameUpToRecovery.refl (law : RecoveryLaw P) {w : World S σ} (h : E w.host w.host) :
    World.SameUpToRecovery law E w w where
  host := h
  connections := rfl
  bridges i := by
    cases w.bridges[i]? with
    | none => exact .none
    | some b => exact .some ⟨rfl, rfl, .refl law _, rfl, rfl⟩
  classifier := rfl
  thread := rfl

/-- The worlds of two such states are the same, up to the law. -/
theorem State.SameUpToRecovery.world {s s' : State S σ} (h : State.SameUpToRecovery law E s s') :
    World.SameUpToRecovery law E s.world s'.world := by
  cases h with
  | running world work waiting => exact world
  | returned world => exact world
  | unwound world payload => exact world

end

end Trampoline
