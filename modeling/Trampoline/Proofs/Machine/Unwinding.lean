import Trampoline.Proofs.Machine.Locality
import Trampoline.Proofs.Machine.Place
import Trampoline.Proofs.Machine.Reachable

/-!
# Panics that nothing stops

A fatal panic leaves the code that has raised it, and whatever waits for that code takes it
over as its own: the code of a closure or of a terminal, a registration or a body, or a
partial evaluation, which hands it to the code that has asked for the evaluation.  Each of
them only passes it on, so nothing but panicking code ever comes to the top of the control
stack, and the world stays as it is.

Main definitions and results:

- Definition `Activation.Panics`: an activation that has panicked.
- Definition `Activation.Relays`: a panic of a partial evaluation is one of the code behind.
- Theorem `State.Reachable.relays`: it is so in all reachable states.
- Definition `Unwinds`, theorem `State.Reachable.unwinds`: a fatal panic passes through
  whatever waits.
-/

namespace Trampoline

variable {S : Closures} {σ : Type}

namespace Activation

/-- The activation is one of code that has panicked. -/
inductive Panics (payload : Payload) : Activation S σ → Prop
  | intro {α : Type} (h : Holder S σ α) : Panics payload (h.wrap (.panic payload))

/-- A panic from above is a panic of whatever waits, but the bottom of a thread. -/
theorem panics_panicking {a : Activation S σ} (h : ∀ outer, a ≠ .thread outer)
    (payload : Payload) : (a.panicking payload).Panics payload := by
  cases a with
  | node d code => exact .intro (.node d)
  | outcome d code => exact .intro (.outcome d)
  | switch run source restore code => exact .intro (.switch run source restore)
  | owing cb code => exact .intro (.owing cb)
  | thread outer => exact absurd rfl (h outer)
  | _ => exact .intro .code

/-- Where a partial evaluation stands in front, a panic of it is a panic of the code that has
asked for it, and the same holds of whatever comes to stand there when it has ended. -/
inductive Relays : Activation S σ → Prop
  | intro {a : Activation S σ}
      (panics : ∀ resume payload, a.behind? = some resume →
        (resume (.error payload)).Panics payload)
      (hidden : ∀ resume r, a.behind? = some resume → (resume r).Relays) : Relays a

/-- What stands in view has nobody to relay a panic to. -/
theorem relays_of_behind?_eq_none {a : Activation S σ} (h : a.behind? = none) : a.Relays :=
  .intro (fun resume payload hr => by simp [h] at hr) fun resume r hr => by simp [h] at hr

/-- Only what stands behind an activation matters for what it relays. -/
theorem Relays.congr {a b : Activation S σ} (h : a.Relays) (hb : b.behind? = a.behind?) :
    b.Relays := by
  obtain ⟨panics, hidden⟩ := h
  exact .intro (fun resume payload hr => panics resume payload (hb ▸ hr))
    fun resume r hr => hidden resume r (hb ▸ hr)

/-- Code relays a panic to the same activation however far it has come. -/
theorem Relays.wrap {α : Type} {h : Holder S σ α} {code : Code S σ α} (hr : (h.wrap code).Relays)
    (code' : Code S σ α) : (h.wrap code').Relays := by
  refine hr.congr ?_
  cases h with
  | node d => cases d <;> rfl
  | outcome d => cases d <;> rfl
  | _ => rfl

/-- An activation that a panic has come down to relays as before. -/
theorem Relays.panicking {a : Activation S σ} (h : a.Relays) (payload : Payload) :
    (a.panicking payload).Relays := by
  cases a with
  | node d code => exact h.wrap (h := .node d) _
  | outcome d code => exact h.wrap (h := .outcome d) _
  | _ => exact relays_of_behind?_eq_none rfl

end Activation

/-! ## Every step -/

namespace State

/-- All activations of a state relay the panics of partial evaluations. -/
def Relays (s : State S σ) : Prop :=
  ∀ a ∈ s.activations, a.Relays

variable {P : Program S σ} {w : World S σ} {rest : List (Activation S σ)}

/-- A state with an activation that relays. -/
theorem relays_running {top : Activation S σ} (h : top.Relays) : (running w top []).Relays := by
  intro a ha
  rw [List.mem_singleton.mp ha]
  exact h

/-- There is nothing to relay in a state that has returned. -/
theorem relays_returned (w : World S σ) : (returned w).Relays :=
  fun _ ha => absurd ha List.not_mem_nil

/-- There is nothing to relay in a state that has been unwound. -/
theorem relays_unwound (w : World S σ) (payload : Payload) : (unwound w payload).Relays :=
  fun _ ha => absurd ha List.not_mem_nil

/-- What is resumed relays as it did while it waited. -/
theorem relays_resume (h : ∀ a ∈ rest, a.Relays) : (resume w rest).Relays := by
  intro a ha
  rw [activations_resume] at ha
  exact h a ha

/-- Activations at the bottom relay what they have relayed. -/
theorem Relays.onto {s : State S σ} (h : s.Relays) {below : List (Activation S σ)}
    (hbelow : ∀ a ∈ below, a.Relays) : (s.onto below).Relays := by
  cases s with
  | running w top rest =>
      intro a ha
      rw [running_onto, activations_running, ← List.cons_append, List.mem_append] at ha
      exact ha.elim (h a) (hbelow a)
  | returned w => exact relays_resume hbelow
  | unwound w payload =>
      cases below with
      | nil => exact h
      | cons b below =>
          intro a ha
          change a ∈ b.panicking payload :: below at ha
          rcases List.mem_cons.mp ha with rfl | ha
          · exact (hbelow b (by simp)).panicking payload
          · exact hbelow a (by simp [ha])

/-- The activations of a completion relay. -/
theorem relays_complete (cb : Callback) (o : Outcome) : (complete P w cb o []).Relays := by
  unfold complete
  repeat' split
  all_goals first
    | exact relays_running (Activation.relays_of_behind?_eq_none rfl)
    | exact relays_returned _

/-- The activations of a delivery relay. -/
theorem relays_deliver (t : Terminal S) (o : Outcome) : (deliver P w t o []).Relays := by
  cases t with
  | user k => exact relays_running (Activation.relays_of_behind?_eq_none rfl)
  | complete cb => exact relays_complete cb o

/-- The activations at the end of a loop relay. -/
theorem relays_finish (run : Loop S) (o : Outcome) : (finish P w run o []).Relays := by
  unfold finish
  repeat' split
  all_goals first
    | exact relays_deliver _ o
    | exact relays_returned _

/-- The activations of a task relay. -/
theorem relays_runTask (task : Task S) : (runTask P w task []).Relays := by
  cases task with
  | body cb b => exact relays_running (Activation.relays_of_behind?_eq_none rfl)
  | user k => exact relays_running (Activation.relays_of_behind?_eq_none rfl)

/-- The activations of a task on its own thread relay. -/
theorem relays_runTaskOn (thread : String) (task : Task S) :
    (runTaskOn P w thread task []).Relays := by
  have honto : runTaskOn P w thread task [] =
      (runTask P { w with thread := thread } task []).onto [.thread w.thread] := by
    simp [runTaskOn]
  rw [honto]
  refine (relays_runTask task).onto fun a ha => ?_
  rw [List.mem_singleton.mp ha]
  exact Activation.relays_of_behind?_eq_none rfl

/-- The activations of a submission relay. -/
theorem relays_submit (context : Context S.Executor) (task : Task S) :
    (submit P w context task []).Relays := by
  cases context with
  | immediate => exact relays_runTask task
  | newThread name spawns =>
      simp only [submit]
      repeat' split
      all_goals first
        | exact relays_runTaskOn name task
        | exact relays_runTask task
        | exact relays_unwound _ _
  | pool name worker => exact relays_runTaskOn worker task
  | hosted name executor => exact relays_running (Activation.relays_of_behind?_eq_none rfl)

/-- The activations that a command begins relay. -/
theorem relays_begin (c : Command S) : (begin P w c []).Relays := by
  cases c with
  | cancel c => exact relays_running (Activation.relays_of_behind?_eq_none rfl)
  | push c token =>
      simp only [begin]
      split
      · exact relays_returned _
      · exact relays_running (Activation.relays_of_behind?_eq_none rfl)
  | complete cb o => exact relays_complete cb o
  | run e c terminal => exact relays_running (Activation.relays_of_behind?_eq_none rfl)
  | submit context task => exact relays_submit context task
  | runToken token => exact relays_running (Activation.relays_of_behind?_eq_none rfl)
  | runTask task => exact relays_runTask task

/-- A loop relays nothing while it takes a node apart. -/
theorem relays_reduce (run : Loop S) (node : Effect S) :
    (reduce P w (.loop run) node []).Relays := by
  cases node with
  | fail e =>
      simp only [reduce]
      split
      · exact relays_running (Activation.relays_of_behind?_eq_none rfl)
      · exact relays_finish _ _
  | async k => exact relays_running (Activation.relays_of_behind?_eq_none rfl)
  | parked inner stack =>
      simp only [reduce, suspend]
      refine relays_resume fun a ha => ?_
      simp only [List.append_nil, List.mem_cons, List.not_mem_nil, or_false] at ha
      rcases ha with rfl | rfl <;> exact Activation.relays_of_behind?_eq_none rfl
  | deferred context b => exact relays_submit context _
  | _ => exact relays_running (Activation.relays_of_behind?_eq_none rfl)

/-- A request of code leaves the code in its place, and a partial evaluation in front of it
hands a panic to the code. -/
theorem relays_ask {α : Type} {h : Holder S σ α} {code : Code S σ α} (hr : (h.wrap code).Relays)
    (hdone : ∀ a, code ≠ .done a) (hpanic : ∀ payload, code ≠ .panic payload) :
    (work P w [] (h.wrap code)).Relays := by
  rw [work_wrap]
  cases code with
  | done a => exact absurd rfl (hdone a)
  | panic payload => exact absurd rfl (hpanic payload)
  | query q next => exact relays_running (hr.wrap _)
  | command c next =>
      have honto : begin P w c [h.wrap (next ())] = (begin P w c []).onto [h.wrap (next ())] := by
        simp
      have hbelow : ∀ a ∈ [h.wrap (next ())], a.Relays := by
        intro a ha
        rw [List.mem_singleton.mp ha]
        exact hr.wrap _
      simp only [advance]
      rw [honto]
      exact (relays_begin c).onto hbelow
  | step e next =>
      refine relays_running (.intro (fun resume payload hb => ?_) fun resume r hb => ?_)
      · cases hb
        exact .intro h
      · cases hb
        cases r with
        | ok residual => exact hr.wrap _
        | error payload => exact hr.wrap _

/-- Work on code relays what it has to if what follows the end of the code does. -/
theorem relays_wrap {α : Type} {h : Holder S σ α} {code : Code S σ α} (hr : (h.wrap code).Relays)
    (hfinish : ∀ a, (h.finish w [] a).Relays)
    (hescape : ∀ payload, (h.escape P w [] payload).Relays) :
    (work P w [] (h.wrap code)).Relays := by
  cases code with
  | done a =>
      rw [work_wrap]
      exact hfinish a
  | panic payload =>
      rw [work_wrap]
      exact hescape payload
  | _ => exact relays_ask hr (by simp) (by simp)

/-- The activations after a panic within a loop relay. -/
theorem relays_panicIn (run : Loop S) (payload : Payload) :
    (panicIn P w (.loop run) payload []).Relays := by
  simp only [panicIn, contain]
  split
  · exact relays_running (Activation.relays_of_behind?_eq_none rfl)
  · exact relays_unwound w payload

/-- What is in view relays nothing in its work. -/
theorem relays_work_of_view {top : Activation S σ} (hb : top.behind? = none) :
    (work P w [] top).Relays := by
  have hr : top.Relays := Activation.relays_of_behind?_eq_none hb
  have hrun : ∀ {w : World S σ} (run : Loop S) (n : Effect S),
      (running w (.eval (.loop run) n) []).Relays := fun run n =>
    relays_running (Activation.relays_of_behind?_eq_none rfl)
  cases top with
  | eval d node =>
      cases d with
      | partially stack resume => cases hb
      | loop run =>
          simp only [work, eval]
          split
          · exact relays_finish run _
          · exact relays_reduce run node
  | value d v =>
      cases d with
      | partially stack resume => cases hb
      | loop run =>
          simp only [work, value]
          split
          · exact relays_running (Activation.relays_of_behind?_eq_none rfl)
          · exact relays_finish _ _
  | node d code =>
      cases d with
      | partially stack resume => cases hb
      | loop run =>
          exact relays_wrap (h := .node (.loop run)) hr (hrun run) (relays_panicIn run)
  | outcome d code =>
      cases d with
      | partially stack resume => cases hb
      | loop run =>
          refine relays_wrap (h := .outcome (.loop run)) hr (fun o => ?_) (relays_panicIn run)
          cases o with
          | ok v => exact relays_running (Activation.relays_of_behind?_eq_none rfl)
          | error e => exact hrun run _
  | switch run source restore code =>
      refine relays_wrap (h := .switch run source restore) hr (fun new => ?_) (relays_panicIn run)
      cases restore <;> exact hrun _ _
  | owing cb code =>
      refine relays_wrap (h := .owing cb) hr (fun _ => relays_returned w) fun payload => ?_
      simp only [Holder.escape, contain]
      split
      · exact relays_complete cb _
      · exact relays_unwound w payload
  | code code =>
      exact relays_wrap (h := .code) hr (fun _ => relays_returned w) (relays_unwound w)
  | tokens pending =>
      cases pending with
      | nil => exact relays_returned w
      | cons token pending =>
          intro a ha
          simp only [work, activations_running, List.mem_cons, List.not_mem_nil, or_false] at ha
          rcases ha with rfl | rfl <;> exact Activation.relays_of_behind?_eq_none rfl
  | thread outer => exact relays_returned _

/-- The work of an activation leaves activations that relay what they have to. -/
theorem relays_work {top : Activation S σ} (h : top.Relays) : (work P w [] top).Relays := by
  cases hb : top.behind? with
  | none => exact relays_work_of_view hb
  | some resume =>
      obtain ⟨panics, hidden⟩ := h
      have hstep : StepsAside P w [] resume top (work P w [] top) := work_behind P hb
      generalize work P w [] top = s at hstep ⊢
      cases hstep with
      | goes bridges hbehind =>
          exact relays_running
            ((Activation.Relays.intro panics hidden).congr (hbehind.trans hb.symm))
      | gives residual => exact relays_running (hidden resume _ hb)
      | raises holder fatal => exact relays_running (hidden resume _ hb)
      | asks holder code hdone hpanic => exact relays_ask (.intro panics hidden) hdone hpanic

/-- A step leaves activations that relay what they have to. -/
theorem Relays.next {s : State S σ} (h : s.Relays) (P : Program S σ) : (s.next P).Relays := by
  cases s with
  | returned w => exact h
  | unwound w payload => exact h
  | running w top rest =>
      have honto : State.next P (running w top rest) = (work P w [] top).onto rest := by
        simp [State.next]
      rw [honto]
      exact (relays_work (h top (by simp))).onto fun a ha => h a (by simp [ha])

/-- In a reachable state, every partial evaluation relays its panic. -/
theorem Reachable.relays {s : State S σ} (h : Reachable P s) : s.Relays := by
  induction h with
  | start host thread code => exact relays_running (Activation.relays_of_behind?_eq_none rfl)
  | next h ih => exact ih.next P
  | again h hs code ih => exact relays_running (Activation.relays_of_behind?_eq_none rfl)

end State

/-! ## The way of a fatal panic -/

/-- A panic passes through the activations `inner`: it goes on from one to the next in
activations that have panicked with the same payload, in the same world, until it has left
the last of them and goes on below. -/
structure Unwinds (P : Program S σ) (w : World S σ) (payload : Payload)
    (inner outer : List (Activation S σ)) (s : State S σ) (n : Nat) : Prop where
  /-- Nothing comes to the top but what has panicked, and nothing is put on the stack. -/
  passes : ∀ k < n, ∃ top waiting, top.Panics payload ∧ waiting <:+ inner ∧
    State.run P k s = .running w top (waiting ++ outer)
  /-- The panic leaves. -/
  leaves : State.run P n s = .unwind w payload outer

namespace Unwinds

variable {P : Program S σ} {w : World S σ} {payload : Payload}
  {inner outer : List (Activation S σ)} {s : State S σ} {m n : Nat}

/-- The first step of a panic. -/
theorem cons {top : Activation S σ}
    (h : Unwinds P w payload inner outer (.next P (.running w top (inner ++ outer))) n)
    (hp : top.Panics payload) :
    Unwinds P w payload inner outer (.running w top (inner ++ outer)) (n + 1) := by
  refine ⟨fun k hk => ?_, ?_⟩
  · cases k with
    | zero => exact ⟨top, inner, hp, List.suffix_rfl, rfl⟩
    | succ k =>
        rw [State.run_succ]
        exact h.passes k (Nat.lt_of_succ_lt_succ hk)
  · rw [State.run_succ]
    exact h.leaves

/-- A panic that has passed through some activations passes through the ones below. -/
theorem append {waiting : List (Activation S σ)}
    (h : Unwinds P w payload [] (waiting ++ outer) s m)
    (h' : Unwinds P w payload waiting outer (.unwind w payload (waiting ++ outer)) n) :
    Unwinds P w payload waiting outer s (m + n) := by
  refine ⟨fun k hk => ?_, ?_⟩
  · rcases Nat.lt_or_ge k m with hlt | hge
    · obtain ⟨top, rest, hp, hrest, hrun⟩ := h.passes k hlt
      rw [List.suffix_nil.mp hrest, List.nil_append] at hrun
      exact ⟨top, waiting, hp, List.suffix_rfl, hrun⟩
    · obtain ⟨j, rfl⟩ := Nat.exists_eq_add_of_le hge
      rw [State.run_add, h.leaves]
      exact h'.passes j (by omega)
  · rw [State.run_add, h.leaves]
    exact h'.leaves

/-- What may stop a panic further above is in the way below as well. -/
theorem waiting_cons {a : Activation S σ} (h : Unwinds P w payload inner outer s n) :
    Unwinds P w payload (a :: inner) outer s n :=
  ⟨fun k hk => by
    obtain ⟨top, rest, hp, hrest, hrun⟩ := h.passes k hk
    exact ⟨top, rest, hp, hrest.trans (List.suffix_cons a inner), hrun⟩, h.leaves⟩

end Unwinds

/-- A fatal panic leaves the activation that it has come to, and the ones that a partial
evaluation hides, one after the other. -/
theorem Activation.Relays.unwinds {P : Program S σ} {w : World S σ} {payload : Payload}
    (hfatal : w.classifier payload = false) {top : Activation S σ} (hr : top.Relays)
    (hp : top.Panics payload) (below : List (Activation S σ)) :
    ∃ n, Unwinds P w payload [] below (.running w top below) n := by
  induction hr with
  | @intro a panics hidden ih =>
      obtain ⟨h⟩ := hp
      -- Whoever waits for the code stops only panics that are not fatal.
      have hstep : State.next P (.running w (h.wrap (.panic payload)) below) =
            .unwind w payload below ∨
          ∃ resume, (h.wrap (.panic payload)).behind? = some resume ∧
            State.next P (.running w (h.wrap (.panic payload)) below) =
              .running w (resume (.error payload)) below := by
        simp only [State.next, State.work_wrap, State.advance]
        cases h with
        | node d =>
            cases d with
            | loop run => exact .inl (by simp [Holder.escape, State.panicIn, State.contain, hfatal])
            | partially stack resume =>
                exact .inr ⟨resume, rfl, by simp [Holder.escape, State.panicIn, hfatal]⟩
        | outcome d =>
            cases d with
            | loop run => exact .inl (by simp [Holder.escape, State.panicIn, State.contain, hfatal])
            | partially stack resume =>
                exact .inr ⟨resume, rfl, by simp [Holder.escape, State.panicIn, hfatal]⟩
        | switch run source restore =>
            exact .inl (by simp [Holder.escape, State.panicIn, State.contain, hfatal])
        | owing cb => exact .inl (by simp [Holder.escape, State.contain, hfatal])
        | code => exact .inl rfl
      rcases hstep with hleaves | ⟨resume, hb, hgoes⟩
      · have hdone : Unwinds P w payload [] below
            (.next P (.running w (h.wrap (.panic payload)) ([] ++ below))) 0 :=
          ⟨fun k hk => absurd hk (Nat.not_lt_zero k), hleaves⟩
        exact ⟨1, hdone.cons (.intro h)⟩
      · obtain ⟨n, hn⟩ := ih resume (.error payload) hb (panics resume payload hb)
        have hrest : Unwinds P w payload [] below
            (.next P (.running w (h.wrap (.panic payload)) ([] ++ below))) n := by
          rw [List.nil_append, hgoes]
          exact hn
        exact ⟨n + 1, hrest.cons (.intro h)⟩

/-- A fatal panic that goes on in activations none of which is the bottom of a thread passes
through all of them. -/
theorem State.unwinds_unwind {P : Program S σ} {w : World S σ} {payload : Payload}
    (hfatal : w.classifier payload = false) {inner : List (Activation S σ)}
    (hthread : ∀ outer, .thread outer ∉ inner) (hr : ∀ a ∈ inner, a.Relays)
    (outer : List (Activation S σ)) :
    ∃ n, Unwinds P w payload inner outer (.unwind w payload (inner ++ outer)) n := by
  induction inner with
  | nil => exact ⟨0, fun k hk => absurd hk (Nat.not_lt_zero k), rfl⟩
  | cons a inner ih =>
      have hpanics : (a.panicking payload).Panics payload :=
        Activation.panics_panicking (fun o ha => hthread o (by simp [ha])) payload
      obtain ⟨m, hm⟩ := ((hr a (by simp)).panicking payload).unwinds (P := P) hfatal hpanics
        (inner ++ outer)
      obtain ⟨n, hn⟩ := ih (fun o ho => hthread o (by simp [ho])) fun b hb => hr b (by simp [hb])
      exact ⟨m + n, (hm.append hn).waiting_cons⟩

/-- A fatal panic of whatever code, in a reachable state, passes through whatever waits, but
the bottom of a thread. -/
theorem State.Reachable.unwinds {P : Program S σ} {w : World S σ} {payload : Payload}
    {top : Activation S σ} {inner outer : List (Activation S σ)}
    (h : State.Reachable P (.running w top (inner ++ outer))) (hp : top.Panics payload)
    (hfatal : w.classifier payload = false) (hthread : ∀ o, .thread o ∉ inner) :
    ∃ n, Unwinds P w payload inner outer (.running w top (inner ++ outer)) n := by
  obtain ⟨m, hm⟩ := (h.relays top (by simp)).unwinds (P := P) hfatal hp (inner ++ outer)
  obtain ⟨n, hn⟩ := State.unwinds_unwind (P := P) hfatal hthread
    (fun a ha => h.relays a (by simp [ha])) outer
  exact ⟨m + n, hm.append hn⟩

end Trampoline
