import Trampoline.Proofs.Machine.Activations

/-!
# The bridges of a world

What the operations of a world do to one bridge: which leave it alone, and which
callback it waits for.

Main definitions and results:

- Definition `World.Wins`: a callback completes the suspension that a run waits in.
- Definitions `World.terminal?`, `World.release`: the terminal of a loop, and the world
  after it has been taken.
- Theorems `World.setBridge_bridges_of_ne`, `release_bridges_of_ne`, `arm_bridges_of_ne`,
  `followSwitch_bridges_of_ne`: a loop touches no bridge but its own.
-/

namespace Trampoline

variable {S : Closures} {σ : Type}

namespace World

/-- A report to the host changes no bridge. -/
@[simp]
theorem report_bridges (P : Program S σ) (w : World S σ) (event : TraceEvent) :
    (w.report P event).bridges = w.bridges :=
  rfl

/-- A report to the host changes no connection. -/
@[simp]
theorem report_connections (P : Program S σ) (w : World S σ) (event : TraceEvent) :
    (w.report P event).connections = w.connections :=
  rfl

/-- A report to the host does not change the rule for panics. -/
@[simp]
theorem report_classifier (P : Program S σ) (w : World S σ) (event : TraceEvent) :
    (w.report P event).classifier = w.classifier :=
  rfl

/-- A change of a bridge changes no connection. -/
@[simp]
theorem setBridge_connections (w : World S σ) (i : Nat) (b : Bridge S) :
    (w.setBridge i b).connections = w.connections :=
  rfl

/-- A change of a bridge adds none. -/
@[simp]
theorem setBridge_size (w : World S σ) (i : Nat) (b : Bridge S) :
    (w.setBridge i b).bridges.size = w.bridges.size := by
  simp [setBridge]

/-- What a bridge has been changed to is found in its place. -/
theorem setBridge_bridges_self {w : World S σ} {i : Nat} {b b' : Bridge S}
    (h : w.bridges[i]? = some b) : (w.setBridge i b').bridges[i]? = some b' := by
  have hi : i < w.bridges.size := (Array.getElem?_eq_some_iff.mp h).1
  simp [setBridge, hi]

/-- A change of a bridge leaves the others as they are. -/
theorem setBridge_bridges_of_ne {w : World S σ} {i j : Nat} {b : Bridge S} (h : j ≠ i) :
    (w.setBridge j b).bridges[i]? = w.bridges[i]? := by
  simp [setBridge, Array.getElem?_setIfInBounds_ne h]

/-- No query touches a bridge. -/
@[simp]
theorem answer_bridges (w : World S σ) (q : Query S σ) : (w.answer q).1.bridges = w.bridges := by
  cases q <;> rfl

/-- The bridge that a callback belongs to waits for a completion of just its epoch. -/
def isArmed (w : World S σ) (cb : Callback) : Bool :=
  match w.bridges[cb.bridge]? with
  | some b => b.armed == some cb.epoch
  | none => false

/-- A callback is armed if its bridge waits for the epoch of the callback. -/
theorem isArmed_eq_true_iff {w : World S σ} {cb : Callback} :
    w.isArmed cb = true ↔ ∃ b, w.bridges[cb.bridge]? = some b ∧ b.armed = some cb.epoch := by
  unfold isArmed
  cases w.bridges[cb.bridge]? <;> simp

/-- A callback completes the suspension that the run of bridge `i` waits in. -/
def Wins (w : World S σ) (i : Nat) (cb : Callback) : Prop :=
  cb.bridge = i ∧ w.isArmed cb = true

/-- Which callbacks win is a matter of one bridge. -/
theorem wins_congr {w w' : World S σ} {i : Nat} (h : w'.bridges[i]? = w.bridges[i]?)
    (cb : Callback) : w'.Wins i cb ↔ w.Wins i cb := by
  unfold Wins
  refine and_congr_right fun hcb => ?_
  rw [isArmed_eq_true_iff, isArmed_eq_true_iff, hcb, h]

/-- Where the outcome of a loop with this outlet goes. -/
def terminal? (w : World S σ) : Outlet S → Option (Terminal S)
  | .terminal t => some t
  | .bridge i => w.bridges[i]?.bind Bridge.terminal

/-- The world after the terminal of a loop with this outlet has been taken. -/
def release (w : World S σ) : Outlet S → World S σ
  | .terminal _ => w
  | .bridge i =>
    match w.bridges[i]? with
    | some b => w.setBridge i { b with terminal := none }
    | none => w

/-- No bridge goes away when a terminal is given away. -/
@[simp]
theorem release_size (w : World S σ) (outlet : Outlet S) :
    (w.release outlet).bridges.size = w.bridges.size := by
  cases outlet with
  | terminal t => rfl
  | bridge i =>
      simp only [release]
      split <;> simp

/-- The terminals of other bridges stay where they are. -/
theorem release_bridges_of_ne {w : World S σ} {i : Nat} {outlet : Outlet S}
    (h : outlet ≠ .bridge i) : (w.release outlet).bridges[i]? = w.bridges[i]? := by
  cases outlet with
  | terminal t => rfl
  | bridge j =>
      have hji : j ≠ i := fun hji => h (hji ▸ rfl)
      simp only [release]
      split
      · exact setBridge_bridges_of_ne hji
      · rfl

/-- A bridge stays when a loop is armed. -/
theorem size_le_arm (w : World S σ) (run : Loop S) :
    w.bridges.size ≤ (w.arm run).1.bridges.size := by
  unfold arm
  cases run.outlet with
  | terminal t => simp
  | bridge j =>
      simp only
      split <;> simp

/-- Arming a loop changes no connection. -/
@[simp]
theorem arm_connections (w : World S σ) (run : Loop S) :
    (w.arm run).1.connections = w.connections := by
  unfold arm
  cases run.outlet with
  | terminal t => rfl
  | bridge j =>
      simp only
      split <;> rfl

/-- A run parks in its own bridge, or in a new one. -/
theorem arm_bridges_of_ne {w : World S σ} {i : Nat} {run : Loop S} (h : run.outlet ≠ .bridge i)
    (hi : i < w.bridges.size) : (w.arm run).1.bridges[i]? = w.bridges[i]? := by
  unfold arm
  cases hout : run.outlet with
  | terminal t => simp [Array.getElem?_push, Nat.ne_of_lt hi]
  | bridge j =>
      have hji : j ≠ i := fun hji => h (hji ▸ hout)
      simp only
      split
      · exact setBridge_bridges_of_ne hji
      · rfl

/-- A bridge that follows a switch is no new one. -/
theorem followSwitch_size (w : World S σ) (run : Loop S) (new : Connection) :
    (w.followSwitch run new).bridges.size = w.bridges.size := by
  unfold followSwitch
  split
  · rfl
  · cases run.outlet with
    | terminal t => rfl
    | bridge j =>
        simp only
        split <;> simp

/-- Only the bridge of the loop follows the switch. -/
theorem followSwitch_bridges_of_ne {w : World S σ} {i : Nat} {run : Loop S}
    (h : run.outlet ≠ .bridge i) (new : Connection) :
    (w.followSwitch run new).bridges[i]? = w.bridges[i]? := by
  unfold followSwitch
  split
  · rfl
  · cases hout : run.outlet with
    | terminal t => rfl
    | bridge j =>
        have hji : j ≠ i := fun hji => h (hji ▸ hout)
        simp only
        split
        · exact setBridge_bridges_of_ne hji
        · rfl

end World

end Trampoline
