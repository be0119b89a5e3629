import Trampoline.Proofs.Laws.Sides

/-!
# The two sides of a law step alike

What a step of the machine does on the left of a law it does on the right, wherever the frames
of the law are not involved: it changes the same of the world, starts the same code and returns
to the same activation.

Main definitions and results:

- Definition `Law.sides`: in which frames the machines on the two sides differ.
- Theorems `World.sameUpTo_iff`, `Activations.sameUpTo_iff`, `State.sameUpTo_iff`, `Law.lawful`: the
  two sides differ in those frames only.
- Theorems `State.sameUpTo_finish`, `State.sameUpTo_reduce`, `State.sameUpTo_leave`, ...: what an
  activation does.
- Theorem `State.sameUpTo_advance`: one step of code that is alike.
-/

namespace Trampoline

variable {S : Closures} {σ : Type} {P : Program S σ} {law : Law P} {E : σ → σ → Prop} {seat : Seat}
  {w w' : World S σ} {rest rest' : List (Activation S σ)}

/-! ## Loops and drivers -/

/-- A loop may stand on both sides of a law. -/
theorem Loop.SameUpTo.refl (law : Law P) (mine : Outlet S → Prop) (run : Loop S) :
    run.SameUpTo law mine run :=
  ⟨rfl, rfl, .refl law _ run.stack⟩

mutual

/-- Where the states of the host are the same, all that happens is. -/
theorem Driver.SameUpTo.refl (law : Law P) (mine : Outlet S → Prop) :
    (d : Driver S σ) → Driver.SameUpTo law Eq mine d d
  | .loop run => .loop (.refl law mine run)
  | .partially stack resume =>
      .partially stack fun r => Activation.SameUpTo.refl law mine (resume r)

/-- An activation may stand on both sides of a law. -/
theorem Activation.SameUpTo.refl (law : Law P) (mine : Outlet S → Prop) :
    (a : Activation S σ) → Activation.SameUpTo law Eq mine a a
  | .eval d e => .eval (Driver.SameUpTo.refl law mine d) e
  | .value d v => .value (Driver.SameUpTo.refl law mine d) v
  | .node d code => .holds (.node (Driver.SameUpTo.refl law mine d)) (.refl code)
  | .outcome d code => .holds (.outcome (Driver.SameUpTo.refl law mine d)) (.refl code)
  | .switch run source restore code =>
      .holds (.switch (.refl law mine run) source restore) (.refl code)
  | .owing cb code => .holds (.owing cb) (.refl code)
  | .code code => .holds .code (.refl code)
  | .tokens pending => .tokens pending
  | .thread outer => .thread outer

end

/-- A panic goes on on both sides in what was waiting. -/
theorem Activation.SameUpTo.panicking {mine : Outlet S → Prop} {a a' : Activation S σ}
    (h : Activation.SameUpTo law E mine a a') (payload : Payload) :
    Activation.SameUpTo law E mine (a.panicking payload) (a'.panicking payload) := by
  cases h with
  | eval h e => exact .holds .code (.panic payload)
  | value h v => exact .holds .code (.panic payload)
  | holds holder alike =>
      cases holder with
      | node h => exact .holds (.node h) (.panic payload)
      | outcome h => exact .holds (.outcome h) (.panic payload)
      | switch h source restore => exact .holds (.switch h source restore) (.panic payload)
      | owing cb => exact .holds (.owing cb) (.panic payload)
      | code => exact .holds .code (.panic payload)
  | wraps late alike => exact .wraps late (.panic payload)
  | fails late e => exact .holds .code (.panic payload)
  | tokens pending => exact .holds .code (.panic payload)
  | thread outer => exact .thread outer

/-! ## The two sides -/

/-- In which frames the machines on the two sides of a law differ. -/
def Law.sides (law : Law P) (E : σ → σ → Prop) (seat : Seat) : Sides S σ where
  host := E
  parked i := law.Stacks (seat.bridge i)
  loop n run run' := run.SameUpTo law (seat.mine n) run'
  activation n := Activation.SameUpTo law E (seat.mine n)

/-- The worlds on both sides of a law differ in the frames of the law. -/
theorem World.sameUpTo_iff :
    World.SameUpTo law E seat w w' ↔ (law.sides E seat).likeness.Worlds w w' := by
  refine ⟨fun h => ⟨h.host, h.connections, fun i => ?_, h.classifier, h.thread⟩,
    fun h => ⟨h.host, h.connections, fun i => ?_, h.classifier, h.thread⟩⟩
  · exact optionRel_mono (fun b b' hb =>
      ⟨hb.connection, hb.terminal, hb.stack, hb.armed, hb.epochs⟩) (h.bridges i)
  · exact optionRel_mono (fun b b' hb =>
      ⟨hb.connection, hb.terminal, hb.stack, hb.armed, hb.epochs⟩) (h.bridges i)

/-- The control stacks on both sides of a law differ in the frames of the law. -/
theorem Activations.sameUpTo_iff :
    Activations.SameUpTo law E seat rest rest' ↔
      (law.sides E seat).likeness.Controls rest rest' := by
  constructor
  · intro h
    induction h with
    | nil => exact .nil
    | cons top waiting ih => exact .cons top ih
  · intro h
    induction h with
    | nil => exact .nil
    | cons top waiting ih => exact .cons top ih

/-- The states on both sides of a law differ in the frames of the law. -/
theorem State.sameUpTo_iff {s s' : State S σ} :
    State.SameUpTo law E seat s s' ↔ (law.sides E seat).likeness.States s s' := by
  constructor
  · rintro (⟨world, work, waiting⟩ | world | ⟨world, payload⟩)
    · exact .running (World.sameUpTo_iff.mp world) work (Activations.sameUpTo_iff.mp waiting)
    · exact .returned (World.sameUpTo_iff.mp world)
    · exact .unwound (World.sameUpTo_iff.mp world) payload
  · rintro (⟨world, work, waiting⟩ | world | ⟨world, payload⟩)
    · exact .running (World.sameUpTo_iff.mpr world) work (Activations.sameUpTo_iff.mpr waiting)
    · exact .returned (World.sameUpTo_iff.mpr world)
    · exact .unwound (World.sameUpTo_iff.mpr world) payload

/-- The drivers on both sides of a law differ in the frames of the law. -/
theorem Driver.sameUpTo_iff {n : Nat} {d d' : Driver S σ} :
    Driver.SameUpTo law E (seat.mine n) d d' ↔ (law.sides E seat).Drivers n d d' := by
  constructor
  · rintro (h | ⟨stack, h⟩)
    · exact .loop h
    · exact .partially stack h
  · rintro (h | ⟨stack, h⟩)
    · exact .loop h
    · exact .partially stack h

/-- What waits for results on both sides of a law differs in the frames of the law. -/
theorem Holder.sameUpTo_iff {n : Nat} {α : Type} {h h' : Holder S σ α} :
    Holder.SameUpTo law E (seat.mine n) h h' ↔ (law.sides E seat).Holders n h h' := by
  constructor
  · rintro (hd | hd | ⟨hrun, source, restore⟩ | cb | _)
    · exact .node (Driver.sameUpTo_iff.mp hd)
    · exact .outcome (Driver.sameUpTo_iff.mp hd)
    · exact .switch hrun source restore
    · exact .owing cb
    · exact .code
  · rintro (hd | hd | ⟨hrun, source, restore⟩ | cb | _)
    · exact .node (Driver.sameUpTo_iff.mpr hd)
    · exact .outcome (Driver.sameUpTo_iff.mpr hd)
    · exact .switch hrun source restore
    · exact .owing cb
    · exact .code

/-- SameUpTo differ in frames only. -/
theorem Law.lawful (law : Law P) (hP : P.Discreet E) (seat : Seat) :
    (law.sides E seat).Lawful P where
  discreet := hP
  same_parked _ stack := .refl law _ stack
  same_loop _ run := .refl law _ run
  connection h := h.connection
  outlet h := h.outlet
  push h frame := ⟨h.connection, h.outlet, h.stack.push frame⟩
  reconnect h _ := ⟨rfl, h.outlet, h.stack⟩
  taken h _ _ := ⟨rfl, rfl, h⟩
  eval h e := .eval (Driver.sameUpTo_iff.mpr h) e
  value h v := .value (Driver.sameUpTo_iff.mpr h) v
  holds h alike := .holds (Holder.sameUpTo_iff.mpr h) alike
  panicking h payload := h.panicking payload
  tokens _ pending := .tokens pending
  thread _ outer := .thread outer

/-! ## The world -/

namespace World.SameUpTo

/-- Reports that are the same but for the number of frames leave both worlds alike. -/
theorem report (hw : World.SameUpTo law E seat w w') (hP : P.Discreet E) {event event' : TraceEvent}
    (h : event.uncounted = event'.uncounted) :
    World.SameUpTo law E seat (w.report P event) (w'.report P event') :=
  World.sameUpTo_iff.mpr ((World.sameUpTo_iff.mp hw).report (law.lawful hP seat).kept h)

/-- Both machines go on on another thread. -/
theorem withThread (hw : World.SameUpTo law E seat w w') (thread : String) :
    World.SameUpTo law E seat { w with thread := thread } { w' with thread := thread } :=
  ⟨hw.host, hw.connections, hw.bridges, hw.classifier, rfl⟩

/-- The terminal of a loop is the same on both sides. -/
theorem terminal?_eq (hw : World.SameUpTo law E seat w w') (outlet : Outlet S) :
    w.terminal? outlet = w'.terminal? outlet :=
  (World.sameUpTo_iff.mp hw).terminal?_eq outlet

/-- The same callbacks are armed on both sides. -/
theorem isArmed_eq (hw : World.SameUpTo law E seat w w') (cb : Callback) :
    w.isArmed cb = w'.isArmed cb :=
  (World.sameUpTo_iff.mp hw).isArmed_eq cb

/-- Both sides hand the same callback out. -/
theorem callback_eq (hw : World.SameUpTo law E seat w w') {run run' : Loop S}
    (hconnection : run.connection = run'.connection) (houtlet : run.outlet = run'.outlet)
    (hstack : law.Stacks (seat.bridge (w.arm run).2.bridge) run.stack run'.stack) :
    (w.arm run).2 = (w'.arm run').2 :=
  ((World.sameUpTo_iff.mp hw).arm hconnection houtlet hstack).2

end World.SameUpTo

/-! ## What an activation does -/

namespace State

section

variable (hP : P.Discreet E) (hw : World.SameUpTo law E seat w w')
  (hrest : Activations.SameUpTo law E seat rest rest')

include hw hrest

/-- Both machines return to what waits. -/
theorem sameUpTo_resume : State.SameUpTo law E seat (resume w rest) (resume w' rest') :=
  State.sameUpTo_iff.mpr
    (Likeness.Kept.resume (World.sameUpTo_iff.mp hw) (Activations.sameUpTo_iff.mp hrest))

include hP

/-- Both machines panic into what waits. -/
theorem sameUpTo_unwind (payload : Payload) :
    State.SameUpTo law E seat (unwind w payload rest) (unwind w' payload rest') :=
  State.sameUpTo_iff.mpr ((law.lawful hP seat).kept.unwind (World.sameUpTo_iff.mp hw)
    (Activations.sameUpTo_iff.mp hrest) payload)

/-- A loop ends alike on both sides, whatever frames are left. -/
theorem sameUpTo_finish {run run' : Loop S} (houtlet : run.outlet = run'.outlet) (o : Outcome) :
    State.SameUpTo law E seat (finish P w run o rest) (finish P w' run' o rest') :=
  State.sameUpTo_iff.mpr ((law.lawful hP seat).kept.finish (World.sameUpTo_iff.mp hw)
    (Activations.sameUpTo_iff.mp hrest) houtlet o)

/-- A run that has been canceled ends alike on both sides, however many frames it gives up. -/
theorem sameUpTo_cancelled {run run' : Loop S} (houtlet : run.outlet = run'.outlet)
    (id n n' : Nat) :
    State.SameUpTo law E seat
      (finish P (w.report P (.runCancelled id n)) run (.error .cancelled) rest)
      (finish P (w'.report P (.runCancelled id n')) run' (.error .cancelled) rest') :=
  State.sameUpTo_iff.mpr ((law.lawful hP seat).cancelled (World.sameUpTo_iff.mp hw)
    (Activations.sameUpTo_iff.mp hrest) houtlet id n n')

/-- One step of code that is alike, in places that are: it ends on both sides, or it goes on
on both. -/
theorem sameUpTo_advance {α β : Type} {R : α → β → Prop} {code : Code S σ α} {code' : Code S σ β}
    (alike : code.Alike E R code') {wrap : Code S σ α → Activation S σ}
    {wrap' : Code S σ β → Activation S σ}
    (hwrap : ∀ c c', c.Alike E R c' →
      Activation.SameUpTo law E (seat.mine rest.length) (wrap c) (wrap' c'))
    {finish : α → State S σ} {finish' : β → State S σ} {escape escape' : Payload → State S σ}
    {T : State S σ → State S σ → Prop}
    (hdone : ∀ a b, code = .done a → code' = .done b → R a b → T (finish a) (finish' b))
    (hpanic : ∀ payload, code = .panic payload → code' = .panic payload →
      T (escape payload) (escape' payload))
    (hgoes : (∀ a, code ≠ .done a) → (∀ payload, code ≠ .panic payload) →
      (∀ b, code' ≠ .done b) → (∀ payload, code' ≠ .panic payload) →
      ∀ s s', State.SameUpTo law E seat s s' → T s s') :
    T (advance P w rest wrap finish escape code)
      (advance P w' rest' wrap' finish' escape' code') :=
  (law.lawful hP seat).advance (World.sameUpTo_iff.mp hw) (Activations.sameUpTo_iff.mp hrest) alike
    hwrap hdone hpanic fun hd hp hd' hp' s s' hs =>
      hgoes hd hp hd' hp' s s' (State.sameUpTo_iff.mpr hs)

/-! ### Loops -/

section

variable {run run' : Loop S} (hconnection : run.connection = run'.connection)
  (houtlet : run.outlet = run'.outlet)

include hconnection houtlet

/-- Both loops take the same node apart alike.  If the node suspends them, they need not be
there any more, but may be in their bridge. -/
theorem sameUpTo_reduce {A : Prop} (hstack : law.Stacks A run.stack run'.stack) {node : Effect S}
    (hfail : ∀ e, node ≠ .fail e) (hstays : ¬node.Suspends → A → seat.mine rest.length run.outlet)
    (hparks : node.Suspends → A → seat.bridge (w.arm run).2.bridge) :
    State.SameUpTo law E seat (reduce P w (.loop run) node rest)
      (reduce P w' (.loop run') node rest') :=
  State.sameUpTo_iff.mpr ((law.lawful hP seat).reduce (World.sameUpTo_iff.mp hw)
    (Activations.sameUpTo_iff.mp hrest) hconnection houtlet hfail
    (fun hs => ⟨hconnection, houtlet, hstack.mono (hstays hs)⟩) fun hs => hstack.mono (hparks hs))

/-- Where both loops find the same frame for an exit, they do the same with it. -/
theorem sameUpTo_leave {A : Prop} {o : Outcome}
    (hfinds : Finds (law.Stacks A) (run.stack.takeFor o) (run'.stack.takeFor o))
    (hstays : A → seat.mine rest.length run.outlet) :
    State.SameUpTo law E seat (leave P w run o rest) (leave P w' run' o rest') :=
  State.sameUpTo_iff.mpr ((law.lawful hP seat).leave (World.sameUpTo_iff.mp hw)
    (Activations.sameUpTo_iff.mp hrest) houtlet
    (hfinds.mono fun _ _ hs => ⟨hconnection, houtlet, hs.mono hstays⟩))

end

/-! ### The end of code -/

/-- What waits for a result goes on with the same result on both sides. -/
theorem sameUpTo_holder_finish {α : Type} {h h' : Holder S σ α}
    (hh : Holder.SameUpTo law E (seat.mine rest.length) h h') (a : α) :
    State.SameUpTo law E seat (h.finish w rest a) (h'.finish w' rest' a) :=
  State.sameUpTo_iff.mpr ((law.lawful hP seat).holder_finish (World.sameUpTo_iff.mp hw)
    (Activations.sameUpTo_iff.mp hrest) (Holder.sameUpTo_iff.mp hh) a)

/-! ### Activations that are not of the run -/

/-- A loop that is not of the run does the same on both sides. -/
theorem sameUpTo_eval_other {run run' : Loop S} (h : run.SameUpTo law (seat.mine rest.length) run')
    (hother : ¬seat.mine rest.length run.outlet) (node : Effect S) :
    State.SameUpTo law E seat (eval P w (.loop run) node rest)
      (eval P w' (.loop run') node rest') := by
  simp only [eval, ← h.connection, hw.connections]
  split
  · exact sameUpTo_cancelled hP hw hrest h.outlet _ _ _
  · by_cases hfail : ∃ e, node = .fail e
    · obtain ⟨e, rfl⟩ := hfail
      rw [reduce_fail_eq_leave, reduce_fail_eq_leave]
      exact sameUpTo_leave hP hw hrest h.connection h.outlet (h.stack.finds_error e) id
    · exact sameUpTo_reduce hP hw hrest h.connection h.outlet h.stack (fun e he => hfail ⟨e, he⟩)
        (fun _ hmine => hmine) fun _ hmine => absurd hmine hother

/-- A loop with a value that is not one of the run goes on in the same way on both sides. -/
theorem sameUpTo_value_other {run run' : Loop S} (h : run.SameUpTo law (seat.mine rest.length) run')
    (hother : ¬seat.mine rest.length run.outlet) (v : Value) :
    State.SameUpTo law E seat (value P w (.loop run) v rest)
      (value P w' (.loop run') v rest') := by
  rw [value_eq_leave, value_eq_leave]
  rcases h.stack.finds (.ok v) with hfinds | ⟨hmine, -⟩
  · exact sameUpTo_leave hP hw hrest h.connection h.outlet hfinds id
  · exact absurd hmine hother

/-- A step of an activation that is not of the run is the same on both sides. -/
theorem sameUpTo_work_other {top top' : Activation S σ}
    (h : Activation.SameUpTo law E (seat.mine rest.length) top top')
    (hother : ∀ run, top.loop? = some run → ¬seat.mine rest.length run.outlet) :
    State.SameUpTo law E seat (work P w rest top) (work P w' rest' top') := by
  cases h with
  | eval hd node =>
      cases hd with
      | loop hrun => exact sameUpTo_eval_other hP hw hrest hrun (hother _ rfl) node
      | partially stack hresume =>
          exact State.sameUpTo_iff.mpr ((law.lawful hP seat).reduce_partially
            (World.sameUpTo_iff.mp hw) (Activations.sameUpTo_iff.mp hrest) hresume node)
  | value hd v =>
      cases hd with
      | loop hrun => exact sameUpTo_value_other hP hw hrest hrun (hother _ rfl) v
      | partially stack hresume =>
          simp only [work, value_eq_pass]
          exact State.sameUpTo_iff.mpr ((law.lawful hP seat).pass (World.sameUpTo_iff.mp hw)
            (Activations.sameUpTo_iff.mp hrest) hresume (.ok v))
  | holds holder alike =>
      exact State.sameUpTo_iff.mpr ((law.lawful hP seat).step_holds (World.sameUpTo_iff.mp hw)
        (Activations.sameUpTo_iff.mp hrest) (Holder.sameUpTo_iff.mp holder) alike)
  | wraps late alike => exact absurd late.mine (hother _ rfl)
  | fails late e => exact absurd late.mine (hother _ rfl)
  | tokens pending =>
      cases pending with
      | nil => exact sameUpTo_resume hw hrest
      | cons token pending =>
          exact .running hw (.holds .code (hP.token token)) (.cons (.tokens pending) hrest)
  | thread outer => exact sameUpTo_resume (hw.withThread outer) hrest

end

end State

end Trampoline
