import Trampoline.Proofs.Laws.Sides
import Trampoline.Proofs.Recovery.Laws

/-!
# The two sides of a law of recovery differ in frames

The machines on the two sides of a law of recovery differ in the frames of the law, which may be
swapped in all loops and bridges, and in nothing else.  So what a step of the machine does on the
left it does on the right, unless a failure has come to the frames of the law.

Main definitions and results:

- Definition `RecoveryLaw.sides`: in which frames the machines on the two sides differ.
- Theorems `World.sameUpToRecovery_iff`, `Activation.forall_sameUpToRecovery_iff`,
  `State.sameUpToRecovery_iff`, `RecoveryLaw.lawful`: the two sides differ in those frames only.
-/

namespace Trampoline

variable {S : Closures} {σ : Type} {P : Program S σ} {law : RecoveryLaw P} {E : σ → σ → Prop}
  {w w' : World S σ} {rest rest' : List (Activation S σ)}

/-- A panic goes on on both sides in what was waiting. -/
theorem Activation.SameUpToRecovery.panicking {a a' : Activation S σ}
    (h : Activation.SameUpToRecovery law E a a') (payload : Payload) :
    Activation.SameUpToRecovery law E (a.panicking payload) (a'.panicking payload) := by
  cases h with
  | eval h e => exact .holds .code (.panic payload)
  | value h v => exact .holds .code (.panic payload)
  | holds holder alike =>
      cases holder with
      | node h => exact .holds (.node h) (.panic payload)
      | outcome h => exact .holds (.outcome h) (.panic payload)
      | switch h source restore => exact .holds (.switch h source restore) (.panic payload)
      | owing cb => exact .holds (.owing cb) (.panic payload)
      | code => exact .holds .code (.panic payload)
  | tokens pending => exact .holds .code (.panic payload)
  | thread outer => exact .thread outer

/-- In which frames the machines on the two sides of a law of recovery differ. -/
def RecoveryLaw.sides (law : RecoveryLaw P) (E : σ → σ → Prop) : Sides S σ where
  host := E
  parked _ := law.Stacks
  loop _ run run' := run.SameUpToRecovery law run'
  activation _ := Activation.SameUpToRecovery law E

/-- The worlds on both sides of a law differ in the frames of the law. -/
theorem World.sameUpToRecovery_iff :
    World.SameUpToRecovery law E w w' ↔ (law.sides E).likeness.Worlds w w' := by
  refine ⟨fun h => ⟨h.host, h.connections, fun i => ?_, h.classifier, h.thread⟩,
    fun h => ⟨h.host, h.connections, fun i => ?_, h.classifier, h.thread⟩⟩
  · exact optionRel_mono (fun b b' hb =>
      ⟨hb.connection, hb.terminal, hb.stack, hb.armed, hb.epochs⟩) (h.bridges i)
  · exact optionRel_mono (fun b b' hb =>
      ⟨hb.connection, hb.terminal, hb.stack, hb.armed, hb.epochs⟩) (h.bridges i)

/-- The control stacks on both sides of a law differ in the frames of the law. -/
theorem Activation.forall_sameUpToRecovery_iff :
    List.Forall₂ (Activation.SameUpToRecovery law E) rest rest' ↔
      (law.sides E).likeness.Controls rest rest' :=
  Likeness.forall_iff_controls fun _ _ _ => Iff.rfl

/-- The states on both sides of a law differ in the frames of the law. -/
theorem State.sameUpToRecovery_iff {s s' : State S σ} :
    State.SameUpToRecovery law E s s' ↔ (law.sides E).likeness.States s s' := by
  constructor
  · rintro (⟨world, work, waiting⟩ | world | ⟨world, payload⟩)
    · exact .running (World.sameUpToRecovery_iff.mp world) work
        (Activation.forall_sameUpToRecovery_iff.mp waiting)
    · exact .returned (World.sameUpToRecovery_iff.mp world)
    · exact .unwound (World.sameUpToRecovery_iff.mp world) payload
  · rintro (⟨world, work, waiting⟩ | world | ⟨world, payload⟩)
    · exact .running (World.sameUpToRecovery_iff.mpr world) work
        (Activation.forall_sameUpToRecovery_iff.mpr waiting)
    · exact .returned (World.sameUpToRecovery_iff.mpr world)
    · exact .unwound (World.sameUpToRecovery_iff.mpr world) payload

/-- The drivers on both sides of a law differ in the frames of the law. -/
theorem Driver.sameUpToRecovery_iff {n : Nat} {d d' : Driver S σ} :
    Driver.SameUpToRecovery law E d d' ↔ (law.sides E).Drivers n d d' := by
  constructor
  · rintro (h | ⟨stack, h⟩)
    · exact .loop h
    · exact .partially stack h
  · rintro (h | ⟨stack, h⟩)
    · exact .loop h
    · exact .partially stack h

/-- What waits for results on both sides of a law differs in the frames of the law. -/
theorem Holder.sameUpToRecovery_iff {n : Nat} {α : Type} {h h' : Holder S σ α} :
    Holder.SameUpToRecovery law E h h' ↔ (law.sides E).Holders n h h' := by
  constructor
  · rintro (hd | hd | ⟨hrun, source, restore⟩ | cb | _)
    · exact .node (Driver.sameUpToRecovery_iff.mp hd)
    · exact .outcome (Driver.sameUpToRecovery_iff.mp hd)
    · exact .switch hrun source restore
    · exact .owing cb
    · exact .code
  · rintro (hd | hd | ⟨hrun, source, restore⟩ | cb | _)
    · exact .node (Driver.sameUpToRecovery_iff.mpr hd)
    · exact .outcome (Driver.sameUpToRecovery_iff.mpr hd)
    · exact .switch hrun source restore
    · exact .owing cb
    · exact .code

/-- SameUpToRecovery differ in frames only. -/
theorem RecoveryLaw.lawful (law : RecoveryLaw P) (hP : P.Discreet E) : (law.sides E).Lawful P where
  discreet := hP
  same_parked _ stack := .refl law stack
  same_loop _ run := .refl law run
  connection h := h.connection
  outlet h := h.outlet
  push h frame := ⟨h.connection, h.outlet, h.stack.push frame⟩
  reconnect h _ := ⟨rfl, h.outlet, h.stack⟩
  taken h _ _ := ⟨rfl, rfl, h⟩
  eval h e := .eval (Driver.sameUpToRecovery_iff.mpr h) e
  value h v := .value (Driver.sameUpToRecovery_iff.mpr h) v
  holds h alike := .holds (Holder.sameUpToRecovery_iff.mpr h) alike
  panicking h payload := h.panicking payload
  tokens _ pending := .tokens pending
  thread _ outer := .thread outer

namespace World.SameUpToRecovery

variable (hw : World.SameUpToRecovery law E w w')

include hw

/-- The terminal of a loop is the same on both sides. -/
theorem terminal?_eq (outlet : Outlet S) : w.terminal? outlet = w'.terminal? outlet :=
  (World.sameUpToRecovery_iff.mp hw).terminal?_eq outlet

/-- The same callbacks are armed on both sides. -/
theorem isArmed_eq (cb : Callback) : w.isArmed cb = w'.isArmed cb :=
  (World.sameUpToRecovery_iff.mp hw).isArmed_eq cb

/-- Both sides hand the same callback out. -/
theorem callback_eq {run run' : Loop S} (hrun : run.SameUpToRecovery law run') :
    (w.arm run).2 = (w'.arm run').2 :=
  ((World.sameUpToRecovery_iff.mp hw).arm hrun.connection hrun.outlet hrun.stack).2

end World.SameUpToRecovery

end Trampoline
