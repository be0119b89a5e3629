import Trampoline.Proofs.Laws.Composition
import Trampoline.Proofs.Machine.SideBySide
import Trampoline.Proofs.Partial.Prelude

/-!
# The sides of a law

On the two sides of a law the machines differ in frames: those that are pending in loops, those that
are parked in bridges, and what the hosts have noted of their numbers.  The drivers and what waits
for the results of code are the same apart from their loops, and so is what the engine does with
them, wherever both loops find the same frame.

Main definitions and results:

- Definitions `Sides`, `Sides.Lawful`: in which frames two machines may differ.
- Definitions `Sides.Drivers`, `Sides.Holders`: drivers, and what waits for the results of code.
- Theorem `Sides.Lawful.kept`: the engine does the same with bridges, tasks and commands.
- Theorems `Sides.Lawful.reduce`, `Sides.Lawful.leave`, `Sides.Lawful.switched`: loops.
- Theorems `Sides.Lawful.pass`, `Sides.Lawful.reduce_partially`: partial evaluations.
- Theorems `Sides.Lawful.advance`, `Sides.Lawful.holder_finish`, `Sides.Lawful.escape`: one step of
  code that is alike, its result and its panic.
-/

namespace Trampoline

variable {S : Closures} {σ : Type}

theorem Program.Discreet.resolve {P : Program S σ} {E : σ → σ → Prop} (hP : P.Discreet E)
    (frame : Frame S) (o : Outcome) : (P.resolve frame o).Alike E Eq (P.resolve frame o) := by
  cases o with
  | ok v => exact hP.apply frame v
  | error e => exact hP.recover frame e

/-- Two machines that differ in frames. -/
structure Sides (S : Closures) (σ : Type) where
  /-- The states of the hosts. -/
  host : σ → σ → Prop
  /-- The frames in the bridge with a number. -/
  parked : Nat → CallStack (Frame S) → CallStack (Frame S) → Prop
  /-- The loops with so many activations below them. -/
  loop : Nat → Loop S → Loop S → Prop
  /-- The activations with so many others below them. -/
  activation : Nat → Activation S σ → Activation S σ → Prop

namespace Sides

section

variable (D : Sides S σ)

/-- Nothing else differs, but for the numbers of frames in trace events. -/
def likeness : Likeness S σ where
  host := D.host
  thread := Eq
  event event event' := event.uncounted = event'.uncounted
  parked := D.parked
  activation := D.activation

/-- Two drivers: loops, or a partial evaluation that is the same up to what waits behind it. -/
inductive Drivers (n : Nat) : Driver S σ → Driver S σ → Prop
  | loop {run run' : Loop S} (h : D.loop n run run') : Drivers n (.loop run) (.loop run')
  | partially (stack : CallStack (Frame S))
      {resume resume' : Except Payload (Effect S) → Activation S σ}
      (h : ∀ r, D.activation n (resume r) (resume' r)) :
      Drivers n (.partially stack resume) (.partially stack resume')

/-- What waits for the results of code on both sides. -/
inductive Holders (n : Nat) : {α : Type} → Holder S σ α → Holder S σ α → Prop
  | node {d d' : Driver S σ} (h : D.Drivers n d d') : Holders n (.node d) (.node d')
  | outcome {d d' : Driver S σ} (h : D.Drivers n d d') : Holders n (.outcome d) (.outcome d')
  | switch {run run' : Loop S} (h : D.loop n run run') (source : Effect S)
      (restore : Option (Restorer S)) :
      Holders n (.switch run source restore) (.switch run' source restore)
  | owing (cb : Callback) : Holders n (.owing cb) (.owing cb)
  | code : Holders n .code .code

/-- A host makes nothing of the numbers of frames, and the loops and activations that differ in
frames only are among those that may stand on the two sides. -/
structure Lawful (P : Program S σ) : Prop where
  discreet : P.Discreet D.host
  same_parked : ∀ i stack, D.parked i stack stack
  same_loop : ∀ n run, D.loop n run run
  connection : ∀ {n run run'}, D.loop n run run' → run.connection = run'.connection
  outlet : ∀ {n run run'}, D.loop n run run' → run.outlet = run'.outlet
  push : ∀ {n run run'}, D.loop n run run' → ∀ frame,
    D.loop n { run with stack := run.stack.push frame }
      { run' with stack := run'.stack.push frame }
  reconnect : ∀ {n run run'}, D.loop n run run' → ∀ c,
    D.loop n { run with connection := c } { run' with connection := c }
  /-- What both bridges have parked is taken up. -/
  taken : ∀ {i stack stack'}, D.parked i stack stack' → ∀ n c,
    D.loop n ⟨c, stack, .bridge i⟩ ⟨c, stack', .bridge i⟩
  eval : ∀ {n d d'}, D.Drivers n d d' → ∀ e, D.activation n (.eval d e) (.eval d' e)
  value : ∀ {n d d'}, D.Drivers n d d' → ∀ v, D.activation n (.value d v) (.value d' v)
  holds : ∀ {n} {α : Type} {h h' : Holder S σ α} {code code' : Code S σ α}, D.Holders n h h' →
    code.Alike D.host Eq code' → D.activation n (h.wrap code) (h'.wrap code')
  panicking : ∀ {n a a'}, D.activation n a a' → ∀ payload,
    D.activation n (a.panicking payload) (a'.panicking payload)
  tokens : ∀ n pending, D.activation n (.tokens pending) (.tokens pending)
  thread : ∀ n outer, D.activation n (.thread outer) (.thread outer)

end

namespace Lawful

variable {D : Sides S σ} {P : Program S σ} (hD : D.Lawful P)

include hD

/-- The engine does the same with bridges, tasks and commands on both sides. -/
theorem kept : D.likeness.Kept P P where
  observe hevent hs := hD.discreet.observe _ _ _ _ hevent hs
  same_event _ := rfl
  resumed _ _ := rfl
  suspended _ _ := rfl
  deferred _ _ _ := rfl
  same_thread _ := rfl
  emptied i := hD.same_parked i .empty
  panicking h payload := hD.panicking h payload
  taken h n c o := hD.eval (.loop (hD.taken h n c)) (.ofOutcome o)
  terminal n k o := hD.holds (.code (n := n)) (hD.discreet.terminal k o)
  token n k := hD.holds (.code (n := n)) (hD.discreet.token k)
  task n k := hD.holds (.code (n := n)) (hD.discreet.task k)
  executor n k task := hD.holds (.code (n := n)) (hD.discreet.executor k task)
  body n b cb := hD.holds (.owing (n := n) cb) (hD.discreet.bodyWith b cb)
  tokens n pending := hD.tokens n pending
  bottom h n := by
    cases h
    exact hD.thread n _

theorem drivers_push {n : Nat} {d d' : Driver S σ} (h : D.Drivers n d d') (frame : Frame S) :
    D.Drivers n (d.push frame) (d'.push frame) := by
  cases h with
  | loop h => exact .loop (hD.push h frame)
  | partially stack h => exact .partially _ h

variable {w w' : World S σ} {rest rest' : List (Activation S σ)} (hw : D.likeness.Worlds w w')
  (hrest : D.likeness.Controls rest rest')

include hw hrest

/-- A command does the same on both sides. -/
theorem begin (c : Command S) :
    D.likeness.States (.begin P w c rest) (.begin P w' c rest') := by
  cases c with
  | run e c terminal => exact .running hw (hD.eval (.loop (hD.same_loop _ _)) e) hrest
  | _ => exact hD.kept.begin_of_ne_run hw hrest _ (by simp)

/-- A run that has been canceled ends alike on both sides, however many frames it gives up. -/
theorem cancelled {run run' : Loop S} (houtlet : run.outlet = run'.outlet) (id n n' : Nat) :
    D.likeness.States
      (.finish P (w.report P (.runCancelled id n)) run (.error .cancelled) rest)
      (.finish P (w'.report P (.runCancelled id n')) run' (.error .cancelled) rest') := by
  have hreported : D.likeness.Worlds (w.report P (.runCancelled id n))
      (w'.report P (.runCancelled id n')) := hw.report hD.kept rfl
  exact hD.kept.finish hreported hrest houtlet _

/-! ### Loops -/

section

variable {run run' : Loop S}

/-- Both loops take the same node apart alike.  If the node suspends them, they need not be on the
two sides any more, but what they park must be. -/
theorem reduce (hconnection : run.connection = run'.connection) (houtlet : run.outlet = run'.outlet)
    {node : Effect S} (hfail : ∀ e, node ≠ .fail e)
    (hstays : ¬node.Suspends → D.loop rest.length run run')
    (hparks : node.Suspends → D.parked (w.arm run).2.bridge run.stack run'.stack) :
    D.likeness.States (.reduce P w (.loop run) node rest)
      (.reduce P w' (.loop run') node rest') := by
  have hdriver : ¬node.Suspends → D.Drivers rest.length (.loop run) (.loop run') :=
    fun hs => .loop (hstays hs)
  cases node with
  | fail e => exact absurd rfl (hfail e)
  | pure v => exact .running hw (hD.value (hdriver id) v) hrest
  | suspend k => exact .running hw (hD.holds (.node (hdriver id)) (hD.discreet.thunk k)) hrest
  | delay k => exact .running hw (hD.holds (.outcome (hdriver id)) (hD.discreet.delay k)) hrest
  | bind source frame =>
      exact .running hw (hD.eval (hD.drivers_push (hdriver id) frame) source) hrest
  | map source f =>
      exact .running hw (hD.eval (hD.drivers_push (hdriver id) (.map f)) source) hrest
  | continueOn context source => exact .running hw (hD.eval (hdriver id) _) hrest
  | async k =>
      simp only [State.reduce]
      refine hD.kept.suspend hw hconnection houtlet (hparks trivial) fun c cb => ?_
      exact .cons (hD.holds (.owing cb) (hD.discreet.registration k c cb)) hrest
  | parked inner stack =>
      simp only [State.reduce]
      refine hD.kept.suspend hw hconnection houtlet (hparks trivial) fun c cb => ?_
      exact .cons (hD.eval (.loop (hD.same_loop _ _)) inner)
        (.cons (hD.holds (.owing cb) (.done rfl)) hrest)
  | deferred context b =>
      exact hD.kept.suspendOn hw hrest hconnection houtlet (hparks trivial) context b
  | switchConnection source modify restore =>
      refine .running hw (hD.holds (.switch (hstays id) source restore) ?_) hrest
      rw [← hconnection]
      exact hD.discreet.modifyWith modify run.connection

/-- Where both loops find the same frame for an exit, they do the same with it. -/
theorem leave (houtlet : run.outlet = run'.outlet) {o : Outcome}
    (hfinds : Finds (fun below below' =>
      D.loop rest.length { run with stack := below } { run' with stack := below' })
      (run.stack.takeFor o) (run'.stack.takeFor o)) :
    D.likeness.States (.leave P w run o rest) (.leave P w' run' o rest') := by
  unfold State.leave
  generalize run.stack.takeFor o = x, run'.stack.takeFor o = x' at hfinds ⊢
  cases hfinds with
  | none below below' => exact hD.kept.finish hw hrest houtlet o
  | @same frame below below' hloop =>
      exact .running hw (hD.holds (.node (.loop hloop)) (hD.discreet.resolve frame o)) hrest

/-- Both loops go on under the connection that has been chosen. -/
theorem switched (hrun : D.loop rest.length run run') (source : Effect S)
    (restore : Option (Restorer S)) (new : Connection) :
    D.likeness.States (.switched w run source restore new rest)
      (.switched w' run' source restore new rest') := by
  have hworld := hw.followSwitch (hD.connection hrun) (hD.outlet hrun) new
  have hdriver : D.Drivers rest.length (.loop { run with connection := new })
      (.loop { run' with connection := new }) := .loop (hD.reconnect hrun new)
  unfold State.switched
  rw [← hD.connection hrun]
  cases restore with
  | none => exact .running hworld (hD.eval hdriver _) hrest
  | some r => exact .running hworld (hD.eval hdriver _) hrest

end

/-! ### Partial evaluations -/

section

variable {stack : CallStack (Frame S)} {resume resume' : Except Payload (Effect S) → Activation S σ}
  (hresume : ∀ r, D.activation rest.length (resume r) (resume' r))

include hresume

theorem pass (o : Outcome) :
    D.likeness.States (.pass P w stack resume o rest) (.pass P w' stack resume' o rest') := by
  unfold State.pass
  cases stack.takeFor o with
  | mk frame below =>
      cases frame with
      | none => exact .running hw (hresume _) hrest
      | some frame =>
          exact .running hw
            (hD.holds (.node (.partially below hresume)) (hD.discreet.resolve frame o)) hrest

/-- A partial evaluation is the same on both sides, up to what waits behind it. -/
theorem reduce_partially (node : Effect S) :
    D.likeness.States (.reduce P w (.partially stack resume) node rest)
      (.reduce P w' (.partially stack resume') node rest') := by
  have hdriver : D.Drivers rest.length (.partially stack resume) (.partially stack resume') :=
    .partially stack hresume
  cases node with
  | pure v => exact .running hw (hD.value hdriver v) hrest
  | fail e =>
      rw [State.reduce_fail_eq_pass, State.reduce_fail_eq_pass]
      exact hD.pass hw hrest hresume (.error e)
  | suspend k => exact .running hw (hD.holds (.node hdriver) (hD.discreet.thunk k)) hrest
  | delay k => exact .running hw (hD.holds (.outcome hdriver) (hD.discreet.delay k)) hrest
  | bind source frame => exact .running hw (hD.eval (hD.drivers_push hdriver frame) source) hrest
  | map source f => exact .running hw (hD.eval (hD.drivers_push hdriver (.map f)) source) hrest
  | continueOn context source => exact .running hw (hD.eval hdriver _) hrest
  | async k => exact .running hw (hresume _) hrest
  | parked inner stack' => exact .running hw (hresume _) hrest
  | deferred context b => exact .running hw (hresume _) hrest
  | switchConnection source modify restore => exact .running hw (hresume _) hrest

end

/-! ### Code -/

/-- One step of code that is alike, in places that are: it ends on both sides, or it goes on on
both. -/
theorem advance {α β : Type} {R : α → β → Prop} {code : Code S σ α} {code' : Code S σ β}
    (alike : code.Alike D.host R code') {wrap : Code S σ α → Activation S σ}
    {wrap' : Code S σ β → Activation S σ}
    (hwrap : ∀ c c', c.Alike D.host R c' → D.activation rest.length (wrap c) (wrap' c'))
    {finish : α → State S σ} {finish' : β → State S σ} {escape escape' : Payload → State S σ}
    {T : State S σ → State S σ → Prop}
    (hdone : ∀ a b, code = .done a → code' = .done b → R a b → T (finish a) (finish' b))
    (hpanic : ∀ payload, code = .panic payload → code' = .panic payload →
      T (escape payload) (escape' payload))
    (hgoes : (∀ a, code ≠ .done a) → (∀ payload, code ≠ .panic payload) →
      (∀ b, code' ≠ .done b) → (∀ payload, code' ≠ .panic payload) →
      ∀ s s', D.likeness.States s s' → T s s') :
    T (.advance P w rest wrap finish escape code)
      (.advance P w' rest' wrap' finish' escape' code') := by
  cases alike with
  | done h => exact hdone _ _ rfl rfl h
  | panic payload => exact hpanic payload rfl rfl
  | host h =>
      refine hgoes (by simp) (by simp) (by simp) (by simp) _ _ ?_
      exact .running hw (hwrap _ _ (h _ _ hw.host)) hrest
  | modifyHost hf h =>
      refine hgoes (by simp) (by simp) (by simp) (by simp) _ _ ?_
      exact .running ⟨hf _ _ hw.host, hw.connections, hw.bridges, hw.classifier, hw.thread⟩
        (hwrap _ _ h) hrest
  | query hq h =>
      refine hgoes (by simp) (by simp) (by simp) (by simp) _ _ ?_
      obtain ⟨hworld, hanswer⟩ := hw.answer hq fun _ => hw.thread
      simp only [State.advance, hanswer]
      exact .running hworld (hwrap _ _ (h _)) hrest
  | command h =>
      refine hgoes (by simp) (by simp) (by simp) (by simp) _ _ ?_
      exact hD.begin hw (.cons (hwrap _ _ h) hrest) _
  | step h =>
      refine hgoes (by simp) (by simp) (by simp) (by simp) _ _ ?_
      refine .running hw (hD.eval (.partially .empty fun r => ?_) _) hrest
      cases r with
      | ok residual => exact hwrap _ _ (h residual)
      | error payload => exact hwrap _ _ (.panic payload)

/-- A panic in the code of a driver is contained on both sides, or on neither. -/
theorem panicIn {d d' : Driver S σ} (hd : D.Drivers rest.length d d') (payload : Payload) :
    D.likeness.States (.panicIn P w d payload rest) (.panicIn P w' d' payload rest') := by
  cases hd with
  | loop h =>
      simp only [State.panicIn]
      refine hD.kept.contain hw hrest payload fun w w' e hw => ?_
      exact .running hw (hD.eval (.loop h) (.fail e)) hrest
  | partially stack h =>
      simp only [State.panicIn, hw.classifier]
      split
      · exact .running (hw.report hD.kept rfl) (hD.eval (.partially stack h) _) hrest
      · exact .running hw (h _) hrest

theorem escape {α : Type} {h h' : Holder S σ α} (hh : D.Holders rest.length h h')
    (payload : Payload) :
    D.likeness.States (h.escape P w rest payload) (h'.escape P w' rest' payload) := by
  cases hh with
  | node hd => exact hD.panicIn hw hrest hd payload
  | outcome hd => exact hD.panicIn hw hrest hd payload
  | switch hrun source restore => exact hD.panicIn hw hrest (.loop hrun) payload
  | owing cb =>
      exact hD.kept.contain hw hrest payload fun w w' e hw =>
        hD.kept.complete hw hrest cb (.error e)
  | code => exact hD.kept.unwind hw hrest payload

theorem holder_finish {α : Type} {h h' : Holder S σ α} (hh : D.Holders rest.length h h') (a : α) :
    D.likeness.States (h.finish w rest a) (h'.finish w' rest' a) := by
  cases hh with
  | node hd => exact .running hw (hD.eval hd a) hrest
  | outcome hd =>
      cases a with
      | ok v => exact .running hw (hD.value hd v) hrest
      | error e => exact .running hw (hD.eval hd (.fail e)) hrest
  | switch hrun source restore => exact hD.switched hw hrest hrun source restore a
  | owing cb => exact Likeness.Kept.resume hw hrest
  | code => exact Likeness.Kept.resume hw hrest

/-- One step of code that is alike. -/
theorem step_holds {α : Type} {h h' : Holder S σ α} {code code' : Code S σ α}
    (hh : D.Holders rest.length h h') (alike : code.Alike D.host Eq code') :
    D.likeness.States (.work P w rest (h.wrap code)) (.work P w' rest' (h'.wrap code')) := by
  rw [State.work_wrap, State.work_wrap]
  refine hD.advance hw hrest alike (fun c c' hc => hD.holds hh hc) ?_ ?_ ?_
  · rintro a b - - rfl
    exact hD.holder_finish hw hrest hh a
  · exact fun payload _ _ => hD.escape hw hrest hh payload
  · exact fun _ _ _ _ s s' hs => hs

end Lawful

end Sides

end Trampoline
