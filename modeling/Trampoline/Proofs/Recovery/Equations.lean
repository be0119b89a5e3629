import Trampoline.Proofs.Recovery.Rejoining
import Trampoline.Proofs.Run.Active

/-!
# The laws of error recovery

Recovery composes, and nobody can tell how: two handlers are one that does what the first does and
hands the failures of that to the second, a handler that only fails again is none, a failure with a
handler is what the handler makes of it, and a link between a failure and the frames that could
recover from it makes no difference.  This holds in the middle of any run, on any connection,
canceled or not, under any pending frames, whatever the effect and the handlers do: suspend, fail,
panic, switch or cancel connections, or run other effects.

Main definitions and results:

- Definition `RecoveryLaw.Equates`: whatever one side comes to, the other comes to the same.
- Theorem `RecoveryLaw.recovers_alike`: the laws.
-/

namespace Trampoline

variable {S : Closures} {σ : Type} {P : Program S σ} {law : RecoveryLaw P} {E : σ → σ → Prop}

/-- Whatever one side of a law of recovery comes to, the other side comes to the same. -/
structure RecoveryLaw.Equates (law : RecoveryLaw P) (E : σ → σ → Prop) (depth : Nat)
    (x y : State S σ × Story S) : Prop where
  forth : ∀ {codes x'}, LeadsWithin P E depth (fun _ => True) x codes x' →
    ∃ y', LeadsWithin P E depth (fun _ => True) y codes y' ∧ law.Same E x' y'
  back : ∀ {codes y'}, LeadsWithin P E depth (fun _ => True) y codes y' →
    ∃ x', LeadsWithin P E depth (fun _ => True) x codes x' ∧ law.Same E x' y'

/-- A run that is followed waits for no answer when its loop has the turn in front of a node. -/
theorem Follows.unasked {r : Origin S} {s : State S σ} {st : Story S} (h : Follows P r s st) :
    st.Unasked r.depth s := by
  rintro w run node rest rfl hturn
  exact (h.tracks.of_turn_eval hturn).1.pending

namespace RecoveryLaw

variable {x y : State S σ × Story S}

/-- The host may bring the same code on both sides. -/
theorem InStep.again (h : law.InStep E x y) {code : Code S σ Unit} (hcode : code.Alike E Eq code) :
    law.InStep E (.start x.1.world code, x.2) (.start y.1.world code, y.2) :=
  ⟨.running h.state.world (.holds .code hcode) .nil, h.story⟩

theorem InStep.ended_iff (h : law.InStep E x y) : x.1.activations = [] ↔ y.1.activations = [] := by
  obtain ⟨s, st⟩ := x
  obtain ⟨s', st'⟩ := y
  obtain ⟨hstate, -⟩ := h
  cases hstate <;> simp [State.activations]

theorem Rejoins.rejoining {depth : Nat} (h : law.Rejoins E depth x y) :
    Rejoining P depth (law.Same E) (law.InStep E) x y := by
  induction h with
  | both same h => exact .both same h
  | left same h ih => exact .left same ih
  | right same h ih => exact .right same ih

/-- Both sides of a law of recovery go on in step. -/
theorem lockstep (law : RecoveryLaw P) (hP : P.Discreet E) (r : Origin S) :
    Lockstep P E r (fun _ => True) (law.Same E) (law.InStep E) where
  rejoins h hf _ := (h.rejoins hP hf.unasked).rejoining
  good_left _ _ := trivial
  again h hcode := h.again hcode
  ended_iff h := h.ended_iff

/-- The two sides of a law of recovery mean the same wherever a run may meet them: under any pending
frames, on any connection, canceled or not, before and after the run has suspended.  The host may
note how many frames there were, as `E` says, but neither its code nor what waits below makes
anything of it. -/
theorem recovers_alike (law : RecoveryLaw P) (hP : P.Discreet E) {r : Origin S} {w : World S σ}
    {run : Loop S} {rest : List (Activation S σ)} {st : Story S} (m : Effect S)
    (hf : Follows P r (.running w (.eval (.loop run) (law.left m)) rest) st)
    (hturn : st.takesTurn r.depth (.eval (.loop run) (law.left m) : Activation S σ) rest = true)
    (stack' : CallStack (Frame S)) (hpending : law.Pending run.stack.toList stack'.toList)
    (hhost : E w.host w.host) (hrest : ∀ a ∈ rest, Activation.SameUpToRecovery law E a a) :
    law.Equates E r.depth (.running w (.eval (.loop run) (law.left m)) rest, st)
      (.running w (.eval (.loop { run with stack := stack' }) (law.right m)) rest, st) := by
  have hbeside : law.Beside E r.depth true w rest st run w rest st { run with stack := stack' } :=
    ⟨.refl law hhost, List.forall₂_same.mpr hrest, .refl law st, rfl, rfl,
      iff_of_true rfl (Story.takesTurn_eval_iff.mp hturn)⟩
  have hstarts := hbeside.starts hP (fun _ => hf.unasked _ _ _ _ rfl hturn) hpending m
  refine ⟨fun hleads => ?_, fun hleads => ?_⟩
  · obtain ⟨y', hy', hrejoins⟩ := (law.lockstep hP r).follows_left hstarts.rejoining hf hleads
    exact ⟨y', hy', hrejoins.same⟩
  · obtain ⟨x', hx', hrejoins⟩ := (law.lockstep hP r).follows_right hstarts.rejoining hf hleads
    exact ⟨x', hx', hrejoins.same⟩

end RecoveryLaw

/-! ## A small host -/

/-- What the handlers of a small host do with a failure. -/
inductive Remedy where
  /-- Try again, and fail again after a suspension. -/
  | retry
  /-- Write it down. -/
  | note
  /-- Try again, and write the failure of that down. -/
  | retryAndNote
  /-- Fail again at once. -/
  | fail

namespace Remedy

/-- The names of a host that has nothing but remedies, attempts, a map and the terminal of a run. -/
def closures : Closures where
  Thunk := Remedy × Failure
  Delay := Empty
  Registration := Failure
  Body := Empty
  Bind := Empty
  Map := Unit
  Handler := Remedy
  Rescue := Empty
  Modify := Empty
  Restore := Empty
  Token := Empty
  Terminal := Unit
  Task := Empty
  Executor := Empty

/-- What a remedy does.  The state of the host is what has been written down. -/
def code : Remedy → Failure → Code closures (List Failure) (Effect closures)
  | retry, e => .done (.async e)
  | note, e => .query (.modifyHost (e :: ·)) fun _ => .done .unit
  | retryAndNote, e => .done ((Effect.suspend (retry, e)).handleErrorWith note)
  | fail, e => .done (.fail e)

/-- The code of that host.  An attempt fails. -/
def program : Program closures (List Failure) where
  thunk k := k.1.code k.2
  delay := nofun
  registration e _ cb := .perform (.complete cb (.error e))
  body := nofun
  bind := nofun
  map _ v := .done v
  handler := code
  rescue := nofun
  modify := nofun
  restore := nofun
  token := nofun
  terminal _ _ := .done ()
  task := nofun
  executor := nofun
  observe _ host := host

/-- To try again and then to write down is to try again and write the failure of that down. -/
def retrying : RecoveryLaw program :=
  .nested retry note retryAndNote (fun e => (retry, e)) (fun _ => rfl) fun _ => rfl

/-- To fail again is to do nothing about a failure. -/
def failing : RecoveryLaw program :=
  .rethrown fail fun _ => rfl

/-- To fail and to try again is to try again. -/
def throwing (e : Failure) : RecoveryLaw program :=
  .thrown e retry (retry, e) rfl

/-- A map lets a failure pass. -/
def passing (e : Failure) : RecoveryLaw program :=
  .passed e [] (.map ()) [.handleErrorWith note] fun l hl => by
    rw [List.mem_singleton.mp hl]
    rfl

/-- The frame of a map lets a failure pass. -/
def dropping (e : Failure) : RecoveryLaw program :=
  .dropped e [] (.map ()) fun f hf => by
    rw [List.mem_singleton.mp hf]
    rfl

/-- A run of an effect, with the code that has started it below. -/
def origin (e : Effect closures) : Origin closures where
  effect := e
  connection := .uncancelable
  stack := .empty
  terminal := .user ()
  depth := 1

/-- The start of a run on that host. -/
def start (e : Effect closures) : State closures (List Failure) × Story closures :=
  (.running (.initial [] "main") (origin e).activation [.code (.done ())], .beginning)

theorem follows_start (e : Effect closures) :
    Follows program (origin e) (start e).1 (start e).2 :=
  .start (.next (.start [] "main" (.perform (.run e .uncancelable (.user ()))))) rfl

/-- Nothing is noted of the number of frames. -/
theorem discreet : program.Discreet Eq :=
  Program.discreet_of_observe fun _ _ _ _ => rfl

/-- What the runs of the small host fail with. -/
def late : Failure :=
  .raise "Late" "no answer"

/-- A run in front of a failure under some frames, after a look at its connection. -/
def fallen (stack : CallStack (Frame closures)) :
    State closures (List Failure) × Story closures :=
  (.running (.initial [] "main")
    (.eval (.loop ⟨.uncancelable, stack, .terminal (.user ())⟩) (.fail late)) [.code (.done ())],
    Story.beginning.look .uncancelable false)

/-- Such a run has been in front of a map. -/
theorem follows_fallen : Follows program (origin (.map (.fail late) ()))
    (fallen (CallStack.empty.push (.map ()))).1 (fallen (CallStack.empty.push (.map ()))).2 :=
  (follows_start _).next

/-- Five laws on that host, and what both sides of two of them write down. -/
theorem recovers_alike_start :
    retrying.Equates Eq 1 (start (retrying.left (.async late)))
        (start (retrying.right (.async late))) ∧
      failing.Equates Eq 1 (start (failing.left (.async late)))
        (start (failing.right (.async late))) ∧
      (throwing late).Equates Eq 1 (start ((throwing late).left .unit))
        (start ((throwing late).right .unit)) ∧
      (passing late).Equates Eq 1 (start ((passing late).left .unit))
        (start ((passing late).right .unit)) ∧
      (dropping late).Equates Eq 1 (fallen (CallStack.empty.push (.map ()))) (fallen .empty) ∧
      ∀ e ∈ [retrying.left (.async late), retrying.right (.async late), (passing late).left .unit,
          (passing late).right .unit],
        (chronicle program 1 40 (start e)).1.world.host = [late] := by
  refine ⟨retrying.recovers_alike discreet _ (follows_start _) rfl .empty rfl rfl fun a _ =>
      .refl retrying a,
    failing.recovers_alike discreet _ (follows_start _) rfl .empty rfl rfl fun a _ =>
      .refl failing a,
    (throwing late).recovers_alike discreet .unit (follows_start _) rfl .empty rfl rfl fun a _ =>
      .refl (throwing late) a,
    (passing late).recovers_alike discreet .unit (follows_start _) rfl .empty rfl rfl fun a _ =>
      .refl (passing late) a,
    (dropping late).recovers_alike discreet .unit follows_fallen rfl .empty ⟨[], rfl, rfl⟩ rfl
      fun a _ => .refl (dropping late) a, fun e he => ?_⟩
  simp only [List.mem_cons, List.not_mem_nil, or_false] at he
  rcases he with rfl | rfl | rfl | rfl <;> rfl

end Remedy

end Trampoline
