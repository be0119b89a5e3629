import Trampoline.Proofs.Machine.Quiet

/-!
# Completions that win

The other half of what a step can do to a run that waits: a completion of its armed epoch
takes it up, whoever gives the completion.  The code of a command, code that panics while
it owes a completion, and a loop whose outcome goes to a callback all come to the same.

Main definitions and results:

- Definition `Resumes`: the shape of a step that takes a parked run up.
- Theorem `State.work_exit`: a loop that has come to its end hands its outcome over.
- Theorem `State.resumes_work`: a step that completes the armed epoch of a bridge takes
  its run up.
-/

namespace Trampoline

variable {S : Closures} {σ : Type}

namespace State

variable {w : World S σ} {rest : List (Activation S σ)}

/-- A loop that has come to its end hands its outcome over in the next step. -/
theorem work_exit (P : Program S σ) (rest : List (Activation S σ)) {top : Activation S σ}
    {run : Loop S} {o : Outcome} (hrun : top.loop? = some run) (ho : top.exit? w = some o) :
    ∃ (w' : World S σ) (run' : Loop S), work P w rest top = finish P w' run' o rest ∧
      w'.bridges = w.bridges ∧ run'.outlet = run.outlet ∧ w'.thread = w.thread := by
  cases top with
  | eval d n =>
      cases d with
      | partially stack resume => cases ho
      | loop run' =>
          cases hrun
          simp only [Activation.exit?] at ho
          simp only [work, eval]
          split at ho
          · next hc =>
              cases ho
              rw [if_pos hc]
              exact ⟨_, _, rfl, rfl, rfl, rfl⟩
          · next hc =>
              rw [if_neg hc]
              cases n with
              | fail e =>
                  simp only at ho
                  cases hf : run.stack.findErrorHandler with
                  | mk frame stack =>
                      cases frame with
                      | some frame => simp [hf] at ho
                      | none =>
                          simp only [hf, Option.isNone_none, if_true, Option.some.injEq] at ho
                          subst ho
                          refine ⟨w, { run with stack := stack }, ?_, rfl, rfl, rfl⟩
                          simp only [reduce, Driver.stack, hf]
                          rfl
              | _ => cases ho
  | value d v =>
      cases d with
      | partially stack resume => cases ho
      | loop run' =>
          cases hrun
          simp only [Activation.exit?] at ho
          cases hp : run.stack.popNext with
          | mk frame stack =>
              cases frame with
              | some frame => simp [hp] at ho
              | none =>
                  simp only [hp, Option.isNone_none, if_true, Option.some.injEq] at ho
                  subst ho
                  refine ⟨w, { run with stack := stack }, ?_, rfl, rfl, rfl⟩
                  simp only [work, value, Driver.stack, hp]
                  rfl
  | _ => cases ho

end State

/-- What the run of bridge `i`, parked in `b`, sees of a step that completes its armed
epoch: its loop goes on with the outcome, the frames and the connection of the bridge, in
front of what was waiting, and the bridge waits no more. -/
inductive Resumes (i : Nat) (b : Bridge S) (o : Outcome) (w : World S σ)
    (rest : List (Activation S σ)) : State S σ → Prop
  | mk (w' : World S σ) (new : List (Activation S σ))
      (size : w.bridges.size ≤ w'.bridges.size)
      (bridge : w'.bridges[i]? = some { b with armed := none, stack := .empty })
      (idle : ∀ a ∈ new, a.Idle i) :
      Resumes i b o w rest
        (.running w' (.eval (.loop ⟨b.connection, b.stack, .bridge i⟩) (.ofOutcome o))
          (new ++ rest))

namespace Resumes

variable {i : Nat} {b : Bridge S} {o : Outcome} {w w₁ : World S σ}
  {rest : List (Activation S σ)} {s : State S σ}

/-- A change of the world may come before a step that takes a run up. -/
theorem after (h : Resumes i b o w₁ rest s) (hsize : w.bridges.size ≤ w₁.bridges.size) :
    Resumes i b o w rest s := by
  cases h with
  | mk w' new size bridge idle => exact .mk w' new (Nat.le_trans hsize size) bridge idle

/-- A bridge whose run has been taken up waits no more. -/
theorem bridge_eq (h : Resumes i b o w rest s) :
    s.world.bridges[i]? = some { b with armed := none, stack := .empty } := by
  cases h with
  | mk w' new size bridge idle => exact bridge

/-- What a step leaves of an activation on top may count as new. -/
theorem below {a : Activation S σ} (ha : a.Idle i) (h : Resumes i b o w (a :: rest) s) :
    Resumes i b o w rest s := by
  cases h with
  | mk w' new size bridge idle =>
      have hnew : ∀ x ∈ new ++ [a], x.Idle i := by
        intro x hx
        rcases List.mem_append.mp hx with hx | hx
        · exact idle x hx
        · rw [List.mem_singleton.mp hx]
          exact ha
      have hs : Resumes i b o w rest (.running w' _ ((new ++ [a]) ++ rest)) :=
        .mk w' (new ++ [a]) size bridge hnew
      rwa [List.append_assoc, List.singleton_append] at hs

end Resumes

namespace State

variable {i : Nat} {w : World S σ} {rest : List (Activation S σ)} {b : Bridge S}

theorem resumes_complete (P : Program S σ) {cb : Callback} (o : Outcome) (hcb : cb.bridge = i)
    (hb : w.bridges[i]? = some b) (ha : b.armed = some cb.epoch) :
    Resumes i b o w rest (complete P w cb o rest) := by
  subst hcb
  rw [complete_of_armed P o hb ha]
  exact .mk _ [] (by simp) (World.setBridge_bridges_self hb) (by simp)

theorem resumes_finish (P : Program S σ) {run : Loop S} {cb : Callback} (o : Outcome)
    (hi : run.outlet ≠ .bridge i) (ht : w.terminal? run.outlet = some (.complete cb))
    (hcb : cb.bridge = i) (hb : w.bridges[i]? = some b) (ha : b.armed = some cb.epoch) :
    Resumes i b o w rest (finish P w run o rest) := by
  rw [finish_eq, ht]
  have hb' : (w.release run.outlet).bridges[i]? = some b := by
    rw [World.release_bridges_of_ne hi, hb]
  exact (resumes_complete P o hcb hb' ha).after (by simp)

/-- Work on a piece of code that gives a completion begins the completion. -/
theorem work_wrap_complete {α : Type} (P : Program S σ) (w : World S σ)
    (rest : List (Activation S σ)) (h : Holder S σ α) {code : Code S σ α} {cb : Callback}
    {o : Outcome} (hc : code.completion? = some (cb, o)) :
    ∃ code', code.Later code' ∧
      work P w rest (h.wrap code) = complete P w cb o (h.wrap code' :: rest) := by
  cases code with
  | command c next =>
      cases c with
      | complete cb' o' =>
          simp only [Code.completion?, Option.some.injEq, Prod.mk.injEq] at hc
          rcases hc with ⟨rfl, rfl⟩
          exact ⟨next (), .returned _ next, State.work_wrap P w rest h _⟩
      | _ => cases hc
  | _ => cases hc

/-- A loop that hands its outcome to the armed callback of a bridge takes its run up. -/
theorem resumes_exit (P : Program S σ) {top : Activation S σ} {run : Loop S} {cb : Callback}
    {o o' : Outcome} (hidle : top.Idle i) (hrun : top.loop? = some run)
    (ho : top.exit? w = some o') (hc : w.handOver? run.outlet o' = some (cb, o))
    (hcb : cb.bridge = i) (hb : w.bridges[i]? = some b) (ha : b.armed = some cb.epoch) :
    Resumes i b o w rest (work P w rest top) := by
  obtain ⟨w', run', hwork, hbridges, hout, -⟩ := work_exit P rest hrun ho
  have hi : run'.outlet ≠ .bridge i := by
    rw [hout]
    exact (Activation.idle_iff_of_loop? hrun).mp hidle
  have ht : w.terminal? run.outlet = some (.complete cb) ∧ o' = o := by
    unfold World.handOver? at hc
    split at hc
    · next cb' ht =>
        cases hc
        exact ⟨ht, rfl⟩
    · cases hc
  have ht' : w'.terminal? run'.outlet = some (.complete cb) := by
    rw [hout, ← ht.1]
    cases run.outlet with
    | terminal t => rfl
    | bridge j => simp [World.terminal?, hbridges]
  rw [hwork, ht.2]
  refine (resumes_finish P o hi ht' hcb ?_ ha).after (Nat.le_of_eq (by rw [hbridges]))
  rw [hbridges, hb]

/-- A step that completes the armed epoch of a bridge takes its run up. -/
theorem resumes_work (P : Program S σ) {top : Activation S σ} {cb : Callback} {o : Outcome}
    (hidle : top.Idle i) (hc : top.completion? w = some (cb, o)) (hcb : cb.bridge = i)
    (hb : w.bridges[i]? = some b) (ha : b.armed = some cb.epoch) :
    Resumes i b o w rest (work P w rest top) := by
  have hcode : ∀ {α : Type} (h : Holder S σ α) (code : Code S σ α),
      (∀ code, (h.wrap code).Idle i) → code.completion? = some (cb, o) →
      Resumes i b o w rest (work P w rest (h.wrap code)) := by
    intro α h code hall hcode
    obtain ⟨code', _, hwork⟩ := work_wrap_complete P w rest h hcode
    rw [hwork]
    exact (resumes_complete P o hcb hb ha).below (hall code')
  cases top with
  | eval d n =>
      cases d with
      | partially stack resume => cases hc
      | loop run =>
          simp only [Activation.completion?, Activation.loop?] at hc
          split at hc
          · next run' o' hrun ho =>
              cases hrun
              exact resumes_exit P hidle rfl ho hc hcb hb ha
          · cases hc
  | value d v =>
      cases d with
      | partially stack resume => cases hc
      | loop run =>
          simp only [Activation.completion?, Activation.loop?] at hc
          split at hc
          · next run' o' hrun ho =>
              cases hrun
              exact resumes_exit P hidle rfl ho hc hcb hb ha
          · cases hc
  | node d code =>
      refine hcode (.node d) code (fun code => ?_) hc
      rw [Activation.idle_node] at hidle
      exact Activation.idle_node.mpr hidle
  | outcome d code =>
      refine hcode (.outcome d) code (fun code => ?_) hc
      rw [Activation.idle_outcome] at hidle
      exact Activation.idle_outcome.mpr hidle
  | switch run source restore code =>
      refine hcode (.switch run source restore) code (fun code => ?_) hc
      rw [Activation.idle_switch] at hidle
      exact Activation.idle_switch.mpr hidle
  | owing cb' code =>
      cases code with
      | panic payload =>
          simp only [Activation.completion?] at hc
          split at hc
          · next hp =>
              simp only [Option.some.injEq, Prod.mk.injEq] at hc
              rcases hc with ⟨rfl, rfl⟩
              simp only [work, advance, contain, hp, if_true]
              have hb' : (w.report P (.panicContained payload.describe)).bridges[i]? = some b := hb
              exact (resumes_complete P _ hcb hb' ha).after (Nat.le_refl _)
          · cases hc
      | _ => exact hcode (.owing cb') _ (Activation.idle_owing i cb') hc
  | code code => exact hcode .code code (Activation.idle_code i) hc
  | tokens pending => cases hc
  | thread outer => cases hc

end State

end Trampoline
