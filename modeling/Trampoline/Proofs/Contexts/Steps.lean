import Trampoline.Proofs.Contexts.Assignments
import Trampoline.Proofs.Machine.Activations
import Trampoline.Proofs.Machine.SideBySide

/-!
# Steps up to contexts

What a step of the machine does for one host it does for another one that is the same up to
contexts, with one exception: a deferred body that is given to another thread stands above the
bottom of that thread, and nothing stands in its place where the body runs at once.

Main definitions and results:

- Definition `Likeness.contexts`: contexts are all in which the two machines differ.
- Theorems `World.assigns_iff`, `State.assigns_iff`, `Program.Assigns.kept`: states that are the
  same up to contexts differ in nothing else.
- Definition `State.Moves`: what a step comes to on both sides.
- Theorems `State.assigns_finish`, `State.assigns_advance`, `State.moves_reduce`, ...: what an
  activation does.
- Theorem `State.moves_work`: a step.
-/

namespace Trampoline

variable {S : Closures} {σ : Type} {P P' : Program S σ} {E : σ → σ → Prop}
  {w w' : World S σ} {rest rest' : List (Activation S σ)}

/-! ## Drivers -/

namespace Driver.Assigns

variable {d d' : Driver S σ} (h : Driver.Assigns E d d')

include h

/-- The frames of both drivers are the same, up to contexts. -/
theorem stack_eq : d'.stack = d.stack.plain := by
  cases h <;> rfl

/-- Drivers stay alike with frames that are the same up to contexts. -/
theorem withStack (stack : CallStack (Frame S)) :
    Driver.Assigns E (d.withStack stack) (d'.withStack stack.plain) := by
  cases h with
  | loop run => exact .loop { run with stack := stack }
  | partially _ hresume => exact .partially stack hresume

/-- Drivers stay alike when a frame is pushed on both. -/
theorem push (frame : Frame S) : Driver.Assigns E (d.push frame) (d'.push frame.plain) := by
  have hpush := h.withStack (d.stack.push frame)
  rw [CallStack.plain_push, ← h.stack_eq] at hpush
  exact hpush

end Driver.Assigns

/-- What a partial evaluation leaves of a node goes on alike. -/
theorem Activation.Assigns.gives (stack : CallStack (Frame S))
    {resume resume' : Except Payload (Effect S) → Activation S σ}
    (hresume : ∀ r, Activation.Assigns E (resume r) (resume' (r.map Effect.plain)))
    (node : Effect S) :
    Activation.Assigns E (resume (.ok (State.residual stack node)))
      (resume' (.ok (State.residual stack.plain node.plain))) := by
  rw [State.residual_plain]
  exact hresume (.ok (State.residual stack node))

/-- A panic goes on on both sides in what was waiting. -/
theorem Activation.Assigns.panicking {a a' : Activation S σ} (h : Activation.Assigns E a a')
    (payload : Payload) :
    Activation.Assigns E (a.panicking payload) (a'.panicking payload) := by
  cases h with
  | node h alike => exact .node h (.panic payload)
  | outcome h alike => exact .outcome h (.panic payload)
  | switch run source restore alike => exact .switch run source restore (.panic payload)
  | owing cb alike => exact .owing cb (.panic payload)
  | thread outer outer' => exact .thread outer outer'
  | eval h e => exact .code (.panic payload)
  | value h v => exact .code (.panic payload)
  | code alike => exact .code (.panic payload)
  | tokens pending => exact .code (.panic payload)

/-! ## The two machines -/

/-- Two machines that differ in contexts, in the names of their threads and in what their hosts have
noted of contexts. -/
def Likeness.contexts (E : σ → σ → Prop) : Likeness S σ where
  host := E
  thread _ _ := True
  event event event' := event.placeless = event'.placeless
  parked _ stack stack' := stack' = stack.plain
  activation _ := Activation.Assigns E

/-- Two bridges are the same up to contexts if and only if they are alike. -/
theorem Bridge.eq_plain_iff {i : Nat} {b b' : Bridge S} :
    b' = b.plain ↔ (Likeness.contexts E).Bridges i b b' := by
  constructor
  · rintro rfl
    exact ⟨rfl, rfl, rfl, rfl, rfl⟩
  · rintro ⟨hconnection, hterminal, hstack, harmed, hepochs⟩
    cases b'
    cases b
    simp_all [Likeness.contexts, Bridge.plain]

/-- Two worlds are the same up to contexts if and only if they are alike. -/
theorem World.assigns_iff : World.Assigns E w w' ↔ (Likeness.contexts E).Worlds w w' := by
  refine ⟨fun h => ⟨h.host, h.connections.symm, fun i => ?_, h.classifier.symm, trivial⟩,
    fun h => ⟨h.host, h.connections.symm, ?_, h.classifier.symm⟩⟩
  · rw [h.bridges, Array.getElem?_map]
    cases w.bridges[i]? with
    | none => exact .none
    | some b => exact .some (Bridge.eq_plain_iff.mp rfl)
  · refine Array.ext_getElem? fun i => ?_
    have hrel := h.bridges i
    rw [Array.getElem?_map]
    generalize w.bridges[i]? = b, w'.bridges[i]? = b' at hrel ⊢
    cases hrel with
    | none => rfl
    | some hb => exact congrArg some (Bridge.eq_plain_iff.mpr hb)

/-- Two stacks are the same up to contexts if and only if they are alike. -/
theorem Activation.forall_assigns_iff :
    List.Forall₂ (Activation.Assigns E) rest rest' ↔
      (Likeness.contexts E).Controls rest rest' :=
  Likeness.forall_iff_controls fun _ _ _ => Iff.rfl

/-- Two states are the same up to contexts if and only if they are alike. -/
theorem State.assigns_iff {s s' : State S σ} :
    State.Assigns E s s' ↔ (Likeness.contexts E).States s s' := by
  constructor
  · rintro (⟨world, work, waiting⟩ | world | ⟨world, payload⟩)
    · exact .running (World.assigns_iff.mp world) work (Activation.forall_assigns_iff.mp waiting)
    · exact .returned (World.assigns_iff.mp world)
    · exact .unwound (World.assigns_iff.mp world) payload
  · rintro (⟨world, work, waiting⟩ | world | ⟨world, payload⟩)
    · exact .running (World.assigns_iff.mpr world) work (Activation.forall_assigns_iff.mpr waiting)
    · exact .returned (World.assigns_iff.mpr world)
    · exact .unwound (World.assigns_iff.mpr world) payload

/-- What the engine reports to the two hosts and starts for them is the same up to contexts. -/
theorem Program.Assigns.kept (hP : P.Assigns E P') : (Likeness.contexts E).Kept P P' where
  observe hevent hs := hP.observe _ _ _ _ hevent hs
  same_event _ := rfl
  resumed := by
    rintro _ stack _ rfl epoch
    rw [CallStack.length_plain]
    rfl
  suspended := by
    rintro _ stack _ rfl epoch
    rw [CallStack.length_plain]
    rfl
  deferred := by
    rintro _ stack _ rfl name epoch
    rw [CallStack.length_plain]
    rfl
  same_thread _ := trivial
  emptied _ := rfl
  panicking h payload := h.panicking payload
  taken := by
    rintro i stack _ rfl n c o
    have heval := Activation.Assigns.eval (E := E) (.loop ⟨c, stack, .bridge i⟩) (.ofOutcome o)
    rwa [Effect.plain_ofOutcome] at heval
  terminal _ k o := .code (hP.terminal k o)
  token _ k := .code (hP.token k)
  task _ k := .code (hP.task k)
  executor _ k task := .code (hP.executor k task)
  body _ b cb := .owing cb (hP.bodyWith b cb)
  tokens _ pending := .tokens pending
  bottom _ _ := .thread _ _

namespace World.Assigns

/-- Both hosts note the same event, up to contexts. -/
theorem report (hw : World.Assigns E w w') (hP : P.Assigns E P') {event event' : TraceEvent}
    (h : event.placeless = event'.placeless) :
    World.Assigns E (w.report P event) (w'.report P' event') :=
  World.assigns_iff.mpr ((World.assigns_iff.mp hw).report hP.kept h)

/-- That a thread could not be spawned is reported on the left only. -/
theorem refused (hw : World.Assigns E w w') (hP : P.Assigns E P') (name : String) :
    World.Assigns E (w.report P (.spawnRefused name)) w' :=
  ⟨hP.refused name _ _ hw.host, hw.connections, hw.bridges, hw.classifier⟩

/-- The name of the thread does not matter. -/
theorem withThread (hw : World.Assigns E w w') (thread thread' : String) :
    World.Assigns E { w with thread := thread } { w' with thread := thread' } :=
  ⟨hw.host, hw.connections, hw.bridges, hw.classifier⟩

/-- A query that has to do with neither the host nor the thread is answered alike. -/
theorem answer (hw : World.Assigns E w w') {q : Query S σ} (hq : q.Placeless) :
    World.Assigns E (w.answer q).1 (w'.answer q).1 ∧ (w'.answer q).2 = (w.answer q).2 := by
  have himpersonal : q.Impersonal := by cases q <;> trivial
  have hthread : q ≠ .threadName := by
    rintro rfl
    exact hq
  obtain ⟨hworld, hanswer⟩ :=
    (World.assigns_iff.mp hw).answer himpersonal fun hname => absurd hname hthread
  exact ⟨World.assigns_iff.mpr hworld, hanswer.symm⟩

/-- Both sides park in the same bridge and hand the same callback out. -/
theorem arm (hw : World.Assigns E w w') (run : Loop S) :
    World.Assigns E (w.arm run).1 (w'.arm run.plain).1 ∧
      (w'.arm run.plain).2 = (w.arm run).2 := by
  have harm : (Likeness.contexts E).Worlds (w.arm run).1 (w'.arm run.plain).1 ∧
      (w.arm run).2 = (w'.arm run.plain).2 := (World.assigns_iff.mp hw).arm rfl rfl rfl
  exact ⟨World.assigns_iff.mpr harm.1, harm.2.symm⟩

/-- The bridge of a run follows it on both sides. -/
theorem followSwitch (hw : World.Assigns E w w') (run : Loop S) (new : Connection) :
    World.Assigns E (w.followSwitch run new) (w'.followSwitch run.plain new) :=
  World.assigns_iff.mpr ((World.assigns_iff.mp hw).followSwitch rfl rfl new)

end World.Assigns

/-! ## What an activation does -/

namespace State

/-- What a step comes to on both sides: states that are the same up to contexts, or a deferred
body that has been given to another thread on the left and runs at once on the right. -/
inductive Moves (E : σ → σ → Prop) (rest rest' : List (Activation S σ)) :
    State S σ → State S σ → Prop
  | alike {s s' : State S σ} (h : State.Assigns E s s') : Moves E rest rest' s s'
  | hops {w w' : World S σ} (world : World.Assigns E w w') (cb : Callback)
      {code code' : Code S σ Unit} (alike : code.Assigns E id code') (outer : String) :
      Moves E rest rest' (.running w (.owing cb code) (.thread outer :: rest))
        (.running w' (.owing cb code') rest')

section

variable (hP : P.Assigns E P') (hw : World.Assigns E w w')
  (hrest : List.Forall₂ (Activation.Assigns E) rest rest')

include hw hrest

/-- The activations below are resumed alike. -/
theorem assigns_resume : State.Assigns E (resume w rest) (resume w' rest') :=
  State.assigns_iff.mpr (Likeness.Kept.resume (World.assigns_iff.mp hw)
    (Activation.forall_assigns_iff.mp hrest))

include hP

/-- Stacks that are the same up to contexts are unwound alike. -/
theorem assigns_unwind (payload : Payload) :
    State.Assigns E (unwind w payload rest) (unwind w' payload rest') :=
  State.assigns_iff.mpr (hP.kept.unwind (World.assigns_iff.mp hw)
    (Activation.forall_assigns_iff.mp hrest) payload)

/-- Both sides survive the panic of guarded code, or neither does. -/
theorem assigns_contain {recovered recovered' : World S σ → Failure → State S σ}
    (h : ∀ w w' e, World.Assigns E w w' → State.Assigns E (recovered w e) (recovered' w' e))
    (payload : Payload) :
    State.Assigns E (contain P w payload recovered rest)
      (contain P' w' payload recovered' rest') :=
  State.assigns_iff.mpr (hP.kept.contain (World.assigns_iff.mp hw)
    (Activation.forall_assigns_iff.mp hrest) payload fun w w' e hw =>
      State.assigns_iff.mp (h w w' e (World.assigns_iff.mpr hw)))

/-- A completion takes the same run up on both sides, or is ignored on both. -/
theorem assigns_complete (cb : Callback) (o : Outcome) :
    State.Assigns E (complete P w cb o rest) (complete P' w' cb o rest') :=
  State.assigns_iff.mpr (hP.kept.complete (World.assigns_iff.mp hw)
    (Activation.forall_assigns_iff.mp hrest) cb o)

/-- A loop ends alike on both sides. -/
theorem assigns_finish (run : Loop S) (o : Outcome) :
    State.Assigns E (finish P w run o rest) (finish P' w' run.plain o rest') :=
  State.assigns_iff.mpr (hP.kept.finish (World.assigns_iff.mp hw)
    (Activation.forall_assigns_iff.mp hrest) rfl o)

/-- A task is run alike. -/
theorem assigns_runTask (task : Task S) :
    State.Assigns E (runTask P w task rest) (runTask P' w' task rest') :=
  State.assigns_iff.mpr (hP.kept.runTask (World.assigns_iff.mp hw)
    (Activation.forall_assigns_iff.mp hrest) task)

/-- A task that code of the host gives to a context runs on the same one on both sides. -/
theorem assigns_submit (context : Context S.Executor) (task : Task S) :
    State.Assigns E (submit P w context task rest) (submit P' w' context task rest') :=
  State.assigns_iff.mpr (hP.kept.submit (World.assigns_iff.mp hw)
    (Activation.forall_assigns_iff.mp hrest) context task)

/-- A command does the same on both sides. -/
theorem assigns_begin (c : Command S) :
    State.Assigns E (begin P w c rest) (begin P' w' c.plain rest') := by
  cases c with
  | run e c terminal => exact .running hw (.eval (.loop ⟨c, .empty, .terminal terminal⟩) e) hrest
  | _ =>
      exact State.assigns_iff.mpr (hP.kept.begin_of_ne_run (World.assigns_iff.mp hw)
        (Activation.forall_assigns_iff.mp hrest) _ (by simp))

/-- One step of code that is alike: it ends on both sides, or it goes on on both. -/
theorem assigns_advance {α β : Type} {f : α → β} {code : Code S σ α} {code' : Code S σ β}
    (alike : code.Assigns E f code') {wrap : Code S σ α → Activation S σ}
    {wrap' : Code S σ β → Activation S σ}
    (hwrap : ∀ c c', c.Assigns E f c' → Activation.Assigns E (wrap c) (wrap' c'))
    {finish : α → State S σ} {finish' : β → State S σ} {escape escape' : Payload → State S σ}
    (hfinish : ∀ a, State.Assigns E (finish a) (finish' (f a)))
    (hescape : ∀ payload, State.Assigns E (escape payload) (escape' payload)) :
    State.Assigns E (advance P w rest wrap finish escape code)
      (advance P' w' rest' wrap' finish' escape' code') := by
  cases alike with
  | done a => exact hfinish a
  | panic payload => exact hescape payload
  | host h => exact .running hw (hwrap _ _ (h _ _ hw.host)) hrest
  | modifyHost hg h =>
      exact .running ⟨hg _ _ hw.host, hw.connections, hw.bridges, hw.classifier⟩ (hwrap _ _ h) hrest
  | query hq h =>
      obtain ⟨hworld, hanswer⟩ := hw.answer hq
      simp only [advance, hanswer]
      exact .running hworld (hwrap _ _ (h _)) hrest
  | command c h => exact assigns_begin hP hw (.cons (hwrap _ _ h) hrest) c
  | step e h =>
      refine .running hw (.eval (.partially .empty fun r => ?_) e) hrest
      cases r with
      | ok residual => exact hwrap _ _ (h residual)
      | error payload => exact hwrap _ _ (.panic payload)

/-! ### Loops -/

omit hrest in
/-- Both runs are suspended alike. -/
theorem assigns_suspend (run : Loop S)
    {start start' : Connection → Callback → List (Activation S σ)}
    (hstart : ∀ c cb, List.Forall₂ (Activation.Assigns E) (start c cb ++ rest)
      (start' c cb ++ rest')) :
    State.Assigns E (suspend P w run start rest) (suspend P' w' run.plain start' rest') := by
  refine State.assigns_iff.mpr (hP.kept.suspend (World.assigns_iff.mp hw) ?_ ?_ ?_ fun c cb =>
    Activation.forall_assigns_iff.mp (hstart c cb))
  all_goals rfl

/-- A deferred body may be given to another thread on the left only. -/
theorem moves_suspendOn (run : Loop S) (context : Context S.Executor) (b : Body S) :
    Moves E rest rest' (suspendOn P w run context b rest)
      (suspendOn P' w' run.plain context.plain b rest') := by
  obtain ⟨hworld, hcb⟩ := hw.arm run
  have hlength : run.plain.stack.length = run.stack.length := CallStack.length_plain run.stack
  simp only [suspendOn, hcb, hlength]
  have hreported : ∀ context' : Context S.Executor, World.Assigns E
      ((w.arm run).1.report P
        (.suspendedDeferred context.name (w.arm run).2.epoch run.stack.length))
      ((w'.arm run.plain).1.report P'
        (.suspendedDeferred context'.name (w.arm run).2.epoch run.stack.length)) :=
    fun _ => hworld.report hP rfl
  cases context with
  | immediate => exact .alike (assigns_submit hP (hreported _) hrest .immediate _)
  | hosted name executor => exact .alike (assigns_submit hP (hreported _) hrest (.hosted _ _) _)
  | pool name worker =>
      exact .hops ((hreported .immediate).withThread worker _) _ (hP.bodyWith b _) _
  | newThread name spawns =>
      cases hname : Context.threadNameFault? name with
      | some message =>
          have hplain : (Context.newThread name spawns : Context S.Executor).plain =
              .newThread name spawns := by
            simp only [Context.plain, hname]
          rw [hplain]
          exact .alike (assigns_submit hP (hreported _) hrest (.newThread name spawns) _)
      | none =>
          have hplain : (Context.newThread name spawns : Context S.Executor).plain =
              .immediate := by
            simp only [Context.plain, hname]
          rw [hplain]
          simp only [submit, hname]
          cases spawns with
          | false =>
              rw [if_neg Bool.false_ne_true]
              exact .alike (assigns_runTask hP ((hreported .immediate).refused hP name) hrest _)
          | true =>
              exact .hops ((hreported .immediate).withThread name _) _ (hP.bodyWith b _) _

/-- A driver in front of a failure. -/
theorem assigns_reduce_fail {d d' : Driver S σ} (hd : Driver.Assigns E d d') (e : Failure) :
    State.Assigns E (reduce P w d (.fail e) rest) (reduce P' w' d' (.fail e) rest') := by
  simp only [reduce, hd.stack_eq, CallStack.findErrorHandler_plain]
  cases d.stack.findErrorHandler with
  | mk frame below =>
      cases frame with
      | some frame => exact .running hw (.node (hd.withStack below) (hP.recover frame e)) hrest
      | none =>
          cases hd with
          | loop run => exact assigns_finish hP hw hrest { run with stack := below } _
          | partially stack hresume => exact .running hw (hresume (.ok (.fail e))) hrest

/-- A driver with a value. -/
theorem assigns_value {d d' : Driver S σ} (hd : Driver.Assigns E d d') (v : Value) :
    State.Assigns E (value P w d v rest) (value P' w' d' v rest') := by
  simp only [value, hd.stack_eq, CallStack.popNext_plain]
  cases d.stack.popNext with
  | mk frame below =>
      cases frame with
      | some frame => exact .running hw (.node (hd.withStack below) (hP.apply frame v)) hrest
      | none =>
          cases hd with
          | loop run => exact assigns_finish hP hw hrest { run with stack := below } _
          | partially stack hresume => exact .running hw (hresume (.ok (.pure v))) hrest

/-- Both drivers take the same node apart alike. -/
theorem moves_reduce {d d' : Driver S σ} (hd : Driver.Assigns E d d') (node : Effect S) :
    Moves E rest rest' (reduce P w d node rest) (reduce P' w' d' node.plain rest') := by
  cases node with
  | pure v => exact .alike (.running hw (.value hd v) hrest)
  | fail e => exact .alike (assigns_reduce_fail hP hw hrest hd e)
  | suspend k => exact .alike (.running hw (.node hd (hP.thunk k)) hrest)
  | delay k => exact .alike (.running hw (.outcome hd (hP.delay k)) hrest)
  | bind source frame => exact .alike (.running hw (.eval (hd.push frame) source) hrest)
  | map source f => exact .alike (.running hw (.eval (hd.push (.map f)) source) hrest)
  | continueOn context source =>
      exact .alike (.running hw (.eval hd (.bind source (.bind (.shift context)))) hrest)
  | async k =>
      cases hd with
      | loop run =>
          have hstart : ∀ c cb, List.Forall₂ (Activation.Assigns E)
              ([.owing cb (P.registration k c cb)] ++ rest)
              ([.owing cb (P'.registration k c cb)] ++ rest') :=
            fun c cb => .cons (.owing cb (hP.registration k c cb)) hrest
          exact .alike (assigns_suspend hP hw run hstart)
      | partially stack hresume =>
          exact .alike (.running hw (.gives stack hresume (.async k)) hrest)
  | parked inner stack' =>
      cases hd with
      | loop run =>
          have hstart : ∀ c cb, List.Forall₂ (Activation.Assigns E)
              ([.eval (.loop ⟨c, stack', .terminal (.complete cb)⟩) inner,
                .owing cb (.done ())] ++ rest)
              ([.eval (.loop ⟨c, stack'.plain, .terminal (.complete cb)⟩) inner.plain,
                .owing cb (.done ())] ++ rest') :=
            fun c cb => .cons (.eval (.loop ⟨c, stack', .terminal (.complete cb)⟩) inner)
              (.cons (.owing cb (.done ())) hrest)
          exact .alike (assigns_suspend hP hw run hstart)
      | partially stack hresume =>
          exact .alike (.running hw (.gives stack hresume (.parked inner stack')) hrest)
  | deferred context b =>
      cases hd with
      | loop run => exact moves_suspendOn hP hw hrest run context b
      | partially stack hresume =>
          exact .alike (.running hw (.gives stack hresume (.deferred context b)) hrest)
  | switchConnection source modify restore =>
      cases hd with
      | loop run =>
          exact .alike (.running hw (.switch run source restore (hP.modifyWith modify _)) hrest)
      | partially stack hresume =>
          exact .alike (.running hw
            (.gives stack hresume (.switchConnection source modify restore)) hrest)

/-- A run loop looks at its connection first, on both sides. -/
theorem moves_eval {d d' : Driver S σ} (hd : Driver.Assigns E d d') (node : Effect S) :
    Moves E rest rest' (eval P w d node rest) (eval P' w' d' node.plain rest') := by
  cases hd with
  | partially stack hresume => exact moves_reduce hP hw hrest (.partially stack hresume) node
  | loop run =>
      have hlength : run.plain.stack.length = run.stack.length := CallStack.length_plain run.stack
      have hconnection : run.plain.connection = run.connection := rfl
      simp only [eval, hconnection, hw.connections, hlength]
      split
      · exact .alike (assigns_finish hP (hw.report hP rfl) hrest run _)
      · exact moves_reduce hP hw hrest (.loop run) node

omit hP in
/-- The connection that has been chosen is the same on both sides. -/
theorem assigns_switched (run : Loop S) (source : Effect S) (restore : Option (Restorer S))
    (new : Connection) :
    State.Assigns E (switched w run source restore new rest)
      (switched w' run.plain source.plain restore new rest') := by
  cases restore with
  | none =>
      exact .running (hw.followSwitch run new) (.eval (.loop { run with connection := new }) source)
        hrest
  | some r =>
      exact .running (hw.followSwitch run new)
        (.eval (.loop { run with connection := new }) (.bind source (.restore run.connection r)))
        hrest

/-- A panic within a loop is met alike. -/
theorem assigns_panicIn {d d' : Driver S σ} (hd : Driver.Assigns E d d') (payload : Payload) :
    State.Assigns E (panicIn P w d payload rest) (panicIn P' w' d' payload rest') := by
  cases hd with
  | loop run =>
      exact assigns_contain hP hw hrest
        (fun w w' e hw => .running hw (.eval (.loop run) (.fail e)) hrest) payload
  | partially stack hresume =>
      simp only [panicIn, hw.classifier]
      split
      · exact .running (hw.report hP rfl) (.eval (.partially stack hresume) (.fail _)) hrest
      · exact .running hw (hresume (.error payload)) hrest

/-! ### A step -/

/-- A step of an activation, up to contexts. -/
theorem moves_work {top top' : Activation S σ} (h : Activation.Assigns E top top') :
    Moves E rest rest' (work P w rest top) (work P' w' rest' top') := by
  cases h with
  | eval hd node => exact moves_eval hP hw hrest hd node
  | value hd v => exact .alike (assigns_value hP hw hrest hd v)
  | node hd alike =>
      exact .alike (assigns_advance hP hw hrest alike (fun _ _ h => .node hd h)
        (fun node => .running hw (.eval hd node) hrest) (assigns_panicIn hP hw hrest hd))
  | outcome hd alike =>
      refine .alike (assigns_advance hP hw hrest alike (fun _ _ h => .outcome hd h)
        (fun o => ?_) (assigns_panicIn hP hw hrest hd))
      cases o with
      | ok v => exact .running hw (.value hd v) hrest
      | error e => exact .running hw (.eval hd (.fail e)) hrest
  | switch run source restore alike =>
      exact .alike (assigns_advance hP hw hrest alike
        (fun _ _ h => .switch run source restore h) (assigns_switched hw hrest run source restore)
        (assigns_panicIn hP hw hrest (.loop run)))
  | owing cb alike =>
      exact .alike (assigns_advance hP hw hrest alike (fun _ _ h => .owing cb h)
        (fun _ => assigns_resume hw hrest)
        (assigns_contain hP hw hrest fun w w' e hw => assigns_complete hP hw hrest cb (.error e)))
  | code alike =>
      exact .alike (assigns_advance hP hw hrest alike (fun _ _ h => .code h)
        (fun _ => assigns_resume hw hrest) (assigns_unwind hP hw hrest))
  | tokens pending =>
      cases pending with
      | nil => exact .alike (assigns_resume hw hrest)
      | cons token pending =>
          exact .alike (.running hw (.code (hP.token token)) (.cons (.tokens pending) hrest))
  | thread outer outer' => exact .alike (assigns_resume (hw.withThread outer outer') hrest)

end

end State

end Trampoline
