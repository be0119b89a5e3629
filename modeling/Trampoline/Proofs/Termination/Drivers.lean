import Trampoline.Proofs.Partial.Prelude
import Trampoline.Proofs.Termination.WellFounded

/-!
# Drivers come to an end

A loop and a partial evaluation take descriptions apart in the same way.  If the node in front
of a driver and all pending frames are well-founded, the driver comes to an end after so many
steps, whatever the world is like: to an exit that no frame takes, to a boundary, or to a panic
that it does not survive.

No measure of the frames alone decreases, for a frame may come back with a node of any size.
So a stack of frames is known by what becomes of an exit that is given to it (`State.Exits`),
and a node by what becomes of it in front of any such stack (`State.Closes`); the proof is by
induction on the description.

Main definitions and results:

- Definition `Activation.Ends`: a driver that comes to its end with the next step.
- Definition `State.Finishes`: a state from which a driver comes to its end.
- Definitions `State.Exits`, `State.Closes`: frames and nodes for which it does.
- Theorem `Effect.WellFounded.closes`, `State.exits_of_wellFounded`: well-founded nodes and
  frames are such.
- Theorem `State.finishes`: a driver with well-founded descriptions comes to its end.
-/

namespace Trampoline

variable {S : Closures} {σ : Type}

/-! ## The end of a driver -/

/-- The driver that an activation is the work of. -/
def Activation.driver? : Activation S σ → Option (Driver S σ)
  | .eval d _ | .value d _ | .node d _ | .outcome d _ => some d
  | .switch run _ _ _ => some (.loop run)
  | _ => none

/-- The work of a loop. -/
theorem Activation.loop?_of_driver? {a : Activation S σ} {run : Loop S}
    (h : a.driver? = some (.loop run)) : a.loop? = some run := by
  cases a with
  | switch run' source restore code => cases h; rfl
  | _ => cases h <;> rfl

/-- Two loops that deliver in one place, or two partial evaluations on behalf of one code. -/
def Driver.Like : Driver S σ → Driver S σ → Prop
  | .loop run, .loop run' => run.outlet = run'.outlet
  | .partially _ resume, .partially _ resume' => resume = resume'
  | _, _ => False

/-- A driver delivers where it delivers. -/
theorem Driver.Like.refl (d : Driver S σ) : d.Like d := by
  cases d <;> rfl

/-- The frames of a driver do not matter to where it delivers. -/
@[simp]
theorem Driver.like_withStack {d d₀ : Driver S σ} {stack : CallStack (Frame S)} :
    (d.withStack stack).Like d₀ ↔ d.Like d₀ := by
  cases d <;> cases d₀ <;> rfl

/-- The connection of a loop does not matter to where it delivers. -/
@[simp]
theorem Driver.like_connection {run : Loop S} {d₀ : Driver S σ} {new : Connection} :
    (Driver.loop { run with connection := new }).Like d₀ ↔ (Driver.loop run).Like d₀ := by
  cases d₀ <;> rfl

/-- A pushed frame does not matter to where a driver delivers. -/
@[simp]
theorem Driver.like_push {d d₀ : Driver S σ} {frame : Frame S} :
    (d.push frame).Like d₀ ↔ d.Like d₀ :=
  Driver.like_withStack

/-- A driver has the frames that it is given. -/
@[simp]
theorem Driver.stack_withStack (d : Driver S σ) (stack : CallStack (Frame S)) :
    (d.withStack stack).stack = stack := by
  cases d <;> rfl

/-- A pushed frame is on top. -/
@[simp]
theorem Driver.toList_stack_push (d : Driver S σ) (frame : Frame S) :
    (d.push frame).stack.toList = frame :: d.stack.toList := by
  simp [Driver.push]

/-- A driver comes to its end with the next step. -/
inductive Activation.Ends (w : World S σ) : Activation S σ → Prop
  /-- The loop finds its connection canceled. -/
  | canceled {run : Loop S} {node : Effect S}
      (h : w.connections.isCanceled run.connection = true) : Ends w (.eval (.loop run) node)
  /-- No frame takes the failure. -/
  | fails {d : Driver S σ} {e : Failure} (h : (d.stack.takeFor (.error e)).1 = none) :
      Ends w (.eval d (.fail e))
  /-- No frame takes the value. -/
  | yields {d : Driver S σ} {v : Value} (h : (d.stack.takeFor (.ok v)).1 = none) :
      Ends w (.value d v)
  /-- It is in front of a boundary. -/
  | boundary {d : Driver S σ} {node : Effect S} (h : node.Suspends) : Ends w (.eval d node)
  /-- A partial evaluation is in front of a region. -/
  | region {stack : CallStack (Frame S)} {resume : Except Payload (Effect S) → Activation S σ}
      {source : Effect S} {modify : Modifier S} {restore : Option (Restorer S)} :
      Ends w (.eval (.partially stack resume) (.switchConnection source modify restore))
  /-- Its code has panicked, and the panic is fatal. -/
  | panics {α : Type} {h : Holder S σ α} {payload : Payload}
      (hfatal : w.classifier payload = false) : Ends w (h.wrap (.panic payload))

namespace State

variable (P : Program S σ) (d₀ : Driver S σ) (rest : List (Activation S σ))

/-- If the state can be reached, then the driver that goes on with the same as `d₀` comes to
its end after so many steps, in its place. -/
def Finishes (s : State S σ) : Prop :=
  Reachable P s → ∃ n w act d, State.run P n s = .running w act rest ∧
    act.driver? = some d ∧ d.Like d₀ ∧ act.Ends w

/-- Whichever of the frames takes an exit, with the frames below it pending, the driver comes
to its end. -/
def Exits (frames : List (Frame S)) : Prop :=
  ∀ above frame below o, frames = above ++ frame :: below → frame.takes o = true →
    ∀ d, d.Like d₀ → d.stack.toList = below → ∀ w,
      Finishes P d₀ rest (.running w (.node d (P.resolve frame o)) rest)

/-- In front of this node, with these frames pending, the driver comes to its end. -/
def Closes (frames : List (Frame S)) (e : Effect S) : Prop :=
  ∀ d, d.Like d₀ → d.stack.toList = frames → ∀ w,
    Finishes P d₀ rest (.running w (.eval d e) rest)

variable {P d₀ rest}

namespace Finishes

/-- What comes to an end after some steps comes to an end. -/
theorem of_run {s : State S σ} (n : Nat) (h : Finishes P d₀ rest (State.run P n s)) :
    Finishes P d₀ rest s := by
  intro hreachable
  obtain ⟨k, w, act, d, hrun, hends⟩ := h (hreachable.run n)
  exact ⟨n + k, w, act, d, by rw [State.run_add, hrun], hends⟩

/-- What comes to an end after a step comes to an end. -/
theorem of_next {s : State S σ} (h : Finishes P d₀ rest (s.next P)) : Finishes P d₀ rest s := by
  refine of_run 1 ?_
  rw [run_succ]
  exact h

/-- A driver that ends with the next step comes to its end. -/
theorem now {w : World S σ} {act : Activation S σ} {d : Driver S σ} (hd : act.driver? = some d)
    (like : d.Like d₀) (ends : act.Ends w) : Finishes P d₀ rest (.running w act rest) :=
  fun _ => ⟨0, w, act, d, rfl, hd, like, ends⟩

end Finishes

variable {d : Driver S σ} {w : World S σ}

/-- A driver in front of a node ends there, or takes the node apart. -/
theorem Finishes.eval {node : Effect S} (like : d.Like d₀)
    (h : Finishes P d₀ rest (reduce P w d node rest)) :
    Finishes P d₀ rest (.running w (.eval d node) rest) := by
  cases d with
  | partially stack resume => exact .of_next h
  | loop run =>
      cases hc : w.connections.isCanceled run.connection with
      | true => exact .now rfl like (.canceled hc)
      | false =>
          refine .of_next ?_
          simpa only [next, work, State.eval, hc, Bool.false_eq_true, if_false] using h

/-- A value is taken by a frame, or by none. -/
theorem Finishes.value (hx : Exits P d₀ rest d.stack.toList) (like : d.Like d₀) (v : Value) :
    Finishes P d₀ rest (.running w (.value d v) rest) := by
  cases htake : d.stack.takeFor (.ok v) with
  | mk frame stack =>
      cases frame with
      | none => exact .now rfl like (.yields (by rw [htake]))
      | some frame =>
          have hframes := htake
          rw [CallStack.takeFor_eq_takeFirst] at hframes
          obtain ⟨above, hsplit, -, htakes⟩ := CallStack.takeFirst_some hframes
          have hpop : d.stack.popNext = (some frame, stack) := htake
          refine .of_next ?_
          simp only [next, work, State.value, hpop]
          exact hx above frame stack.toList (.ok v) hsplit htakes _ (Driver.like_withStack.mpr like)
            (by simp) w

/-- So is a failure. -/
theorem Finishes.fail (hx : Exits P d₀ rest d.stack.toList) (like : d.Like d₀) (e : Failure) :
    Finishes P d₀ rest (.running w (.eval d (.fail e)) rest) := by
  cases htake : d.stack.takeFor (.error e) with
  | mk frame stack =>
      cases frame with
      | none => exact .now rfl like (.fails (by rw [htake]))
      | some frame =>
          have hframes := htake
          rw [CallStack.takeFor_eq_takeFirst] at hframes
          obtain ⟨above, hsplit, -, htakes⟩ := CallStack.takeFirst_some hframes
          have hfind : d.stack.findErrorHandler = (some frame, stack) := htake
          refine .eval like ?_
          simp only [reduce, hfind]
          exact hx above frame stack.toList (.error e) hsplit htakes _
            (Driver.like_withStack.mpr like) (by simp) w

/-- An outcome is an exit. -/
theorem Finishes.ofOutcome (hx : Exits P d₀ rest d.stack.toList) (like : d.Like d₀)
    (o : Outcome) : Finishes P d₀ rest (.running w (.eval d (.ofOutcome o)) rest) := by
  cases o with
  | ok v => exact .eval like (.value hx like v)
  | error e => exact .fail hx like e

/-- A panic is a failure, or the end. -/
theorem Finishes.panic (hx : Exits P d₀ rest d.stack.toList) (like : d.Like d₀) {α : Type}
    {h : Holder S σ α} (payload : Payload)
    (hd : (h.wrap (.panic payload) : Activation S σ).driver? = some d) :
    Finishes P d₀ rest (.running w (h.wrap (.panic payload)) rest) := by
  cases hc : w.classifier payload with
  | false => exact .now hd like (.panics hc)
  | true =>
      have hcontained : Finishes P d₀ rest (panicIn P w d payload rest) := by
        cases d with
        | loop run =>
            simp only [panicIn, contain, hc, if_true]
            exact .fail hx like _
        | partially stack resume =>
            simp only [panicIn, hc, if_true]
            exact .fail hx like _
      refine .of_next ?_
      cases h <;> cases hd <;> exact hcontained

/-- Code that terminates comes back with a result, or panics. -/
theorem Finishes.code {α β : Type} {code : Code S σ α} (ht : code.Terminates P)
    (f : α → Code S σ β) (h : Holder S σ β)
    (hdone : ∀ w a, code.CanReturn a → Finishes P d₀ rest (.running w (h.wrap (f a)) rest))
    (hpanic : ∀ w payload, Finishes P d₀ rest (.running w (h.wrap (.panic payload)) rest)) :
    Finishes P d₀ rest (.running w (h.wrap (code.bind f)) rest) := by
  intro hreachable
  obtain ⟨n, w', ⟨a, ha, hrun⟩ | ⟨payload, hrun⟩⟩ := ht f h w rest hreachable
  · exact Finishes.of_run n (hrun ▸ hdone w' a ha) hreachable
  · exact Finishes.of_run n (hrun ▸ hpanic w' payload) hreachable

/-- Code that yields a node terminates, and each node that it yields comes to an end. -/
theorem Finishes.node {code : Code S σ (Effect S)} (like : d.Like d₀)
    (hx : Exits P d₀ rest d.stack.toList) (ht : code.Terminates P)
    (h : ∀ e, code.CanReturn e → Closes P d₀ rest d.stack.toList e) :
    Finishes P d₀ rest (.running w (.node d code) rest) := by
  have hcode : Finishes P d₀ rest (.running w ((Holder.node d).wrap (code.bind .done)) rest) :=
    .code ht .done (.node d) (fun w e he => .of_next (h e he d like rfl w))
      fun w payload => .panic hx like payload rfl
  rwa [Code.bind_done] at hcode

/-- Code that yields a value terminates, and the value is an exit. -/
theorem Finishes.mapped {code : Code S σ Value} (like : d.Like d₀)
    (hx : Exits P d₀ rest d.stack.toList) (ht : code.Terminates P) :
    Finishes P d₀ rest (.running w (.node d (code.bind fun v => .done (.pure v))) rest) :=
  .code ht _ (.node d) (fun _ v _ => .of_next (.eval like (.value hx like v)))
    fun _ payload => .panic hx like payload rfl

/-- The code that chooses a connection terminates. -/
theorem Finishes.switch {run : Loop S} {source : Effect S} {restore : Option (Restorer S)}
    {m : Modifier S} (like : (Driver.loop run : Driver S σ).Like d₀)
    (hx : Exits P d₀ rest run.stack.toList) (ht : ∀ q, m.Asks q → q.Terminates P)
    (h : ∀ w new, Finishes P d₀ rest (switched w run source restore new rest)) :
    Finishes P d₀ rest
      (.running w (.switch run source restore (P.modifyWith m run.connection)) rest) := by
  have hcode : ∀ {code : Code S σ Connection}, code.Terminates P →
      Finishes P d₀ rest (.running w (.switch run source restore code) rest) := by
    intro code hcode
    have hbind : Finishes P d₀ rest
        (.running w ((Holder.switch run source restore).wrap (code.bind .done)) rest) :=
      .code hcode .done (.switch run source restore) (fun w new _ => .of_next (h w new))
        fun w payload => .panic (d := .loop run) hx like payload rfl
    rwa [Code.bind_done] at hbind
  refine hcode ?_
  cases m with
  | user k => exact ht (.modify k run.connection) ⟨_, rfl⟩
  | uncancelable => exact Code.terminates_done P _
  | restoring exit old r =>
      cases r with
      | user k => exact ht (.restore k exit old run.connection) ⟨_, rfl⟩
      | old => exact Code.terminates_done P _

/-- A region whose code terminates, and whose source comes to an end on any connection. -/
theorem Closes.switchConnection {frames : List (Frame S)} {source : Effect S} {m : Modifier S}
    {restore : Option (Restorer S)} (hx : Exits P d₀ rest frames)
    (ht : ∀ q, m.Asks q → q.Terminates P)
    (h : ∀ run : Loop S, (Driver.loop run : Driver S σ).Like d₀ → run.stack.toList = frames →
      ∀ w new, Finishes P d₀ rest (switched w run source restore new rest)) :
    Closes P d₀ rest frames (.switchConnection source m restore) := by
  intro d like hframes w
  cases d with
  | partially stack resume => exact .now rfl like .region
  | loop run =>
      have hstack : run.stack.toList = frames := hframes
      exact .eval like (.switch like (hstack ▸ hx) ht (h run like hstack))

/-! ## Frames -/

/-- A frame whose code terminates, and comes back only with nodes that come to an end in front
of the frames below it. -/
theorem Exits.cons {frames : List (Frame S)} {frame : Frame S} (hx : Exits P d₀ rest frames)
    (ht : ∀ q, frame.Asks q → q.Terminates P)
    (h : ∀ q a e, frame.Asks q → q.Yields P a → q.node? a = some e → Closes P d₀ rest frames e) :
    Exits P d₀ rest (frame :: frames) := by
  intro above frame' below o hsplit htakes d like hbelow w
  cases above with
  | cons f above =>
      rw [List.cons_append, List.cons.injEq] at hsplit
      exact hx above frame' below o hsplit.2 htakes d like hbelow w
  | nil =>
      rw [List.nil_append, List.cons.injEq] at hsplit
      obtain ⟨rfl, rfl⟩ := hsplit
      have hexits : Exits P d₀ rest d.stack.toList := hbelow ▸ hx
      have hbinder : ∀ {f : Binder S} {v : Value},
          (∀ q, f.question? v = some q → frame.Asks q) →
            Finishes P d₀ rest (.running w (.node d (P.bindWith f v)) rest) := by
        intro f v hf
        cases f with
        | user k =>
            refine .node like hexits (ht _ (hf _ rfl)) fun e he => ?_
            exact hbelow ▸ h (.bind k v) (.ok e) e (hf _ rfl) he rfl
        | pure => exact .of_next (.eval like (.value hexits like v))
        | shift context => exact .of_next (.now rfl like (.boundary trivial))
      have hrecovery : ∀ {f : Recovery S} {e : Failure},
          (∀ q, f.question? e = some q → frame.Asks q) →
            Finishes P d₀ rest (.running w (.node d (P.recoverWith f e)) rest) := by
        intro f e hf
        cases f with
        | user k =>
            refine .node like hexits (ht _ (hf _ rfl)) fun e' he' => ?_
            exact hbelow ▸ h (.handler k e) (.ok e') e' (hf _ rfl) he' rfl
        | rescue k => exact .mapped like hexits (ht (.rescue k e) (hf _ rfl))
        | reify => exact .of_next (.eval like (.value hexits like _))
      have hrestore : ∀ {old : Connection} {r : Restorer S},
          (∀ q, r.Asks q → frame.Asks q) → Finishes P d₀ rest (.running w (.node d
            (.done (.switchConnection (.ofOutcome o) (.restoring o old r) none))) rest) := by
        intro old r hr
        refine .of_next (Closes.switchConnection hexits (fun q hq => ht q (hr q ⟨o, old, hq⟩))
          (fun run like' hstack w new => ?_) d like rfl w)
        exact .ofOutcome (d := .loop { run with connection := new }) (hstack ▸ hexits)
          (Driver.like_connection.mpr like') o
      cases o with
      | ok v =>
          cases frame with
          | bind f => exact hbinder fun q hq => ⟨.ok v, hq⟩
          | map k => exact .mapped like hexits (ht (.map k v) ⟨.ok v, rfl⟩)
          | handle f => cases htakes
          | fold f g => exact hbinder fun q hq => ⟨.ok v, hq⟩
          | restore old r => exact hrestore fun q hq => hq
      | error e =>
          cases frame with
          | bind f => cases htakes
          | map k => cases htakes
          | handle f => exact hrecovery fun q hq => ⟨.error e, hq⟩
          | fold f g => exact hrecovery fun q hq => ⟨.error e, hq⟩
          | restore old r => exact hrestore fun q hq => hq

/-- Where no frame is pending, none takes an exit. -/
theorem exits_nil : Exits P d₀ rest [] := by
  intro above frame below o hsplit
  simp at hsplit

/-! ## Well-founded descriptions -/

/-- A driver in front of a well-founded node comes to its end if it does with each exit of the
node. -/
theorem closes_of_wellFounded {e : Effect S} (he : e.WellFounded P) {frames : List (Frame S)}
    (hx : Exits P d₀ rest frames) : Closes P d₀ rest frames e := by
  induction he generalizing frames with
  | @intro e hsource terminates returns ihs ihr =>
      intro d like hframes w
      have hexits : Exits P d₀ rest d.stack.toList := hframes ▸ hx
      -- The frame of the node waits for the source, on top of the frames that wait already.
      have hpush : ∀ {source : Effect S} (frame : Frame S), e.source? = some source →
          (∀ q, frame.Asks q → e.Asks q) → ∀ d : Driver S σ, d.Like d₀ →
            d.stack.toList = frames → ∀ w,
              Finishes P d₀ rest (.running w (.eval (d.push frame) source) rest) := by
        intro source frame hs hasks d like hframes w
        refine ihs source hs (hx.cons (fun q hq => terminates q (hasks q hq))
          fun q a e' hq ha he' => ihr q a e' (hasks q hq) ha he' hx) _
          (Driver.like_push.mpr like) (by simp [hframes]) w
      cases e with
      | pure v => exact .eval like (.value hexits like v)
      | fail e => exact .fail hexits like e
      | suspend k =>
          refine .eval like (.node like hexits (terminates (.thunk k) rfl) fun e he => ?_)
          exact ihr (.thunk k) (.ok e) e rfl he rfl hexits
      | delay k =>
          have hcode : Finishes P d₀ rest
              (.running w ((Holder.outcome d).wrap ((P.delay k).bind .done)) rest) := by
            refine .code (terminates (.delay k) rfl) .done (.outcome d) (fun w o _ => .of_next ?_)
              fun w payload => .panic hexits like payload rfl
            cases o with
            | ok v => exact .value hexits like v
            | error e => exact .fail hexits like e
          rw [Code.bind_done] at hcode
          exact .eval like hcode
      | async k => exact .now rfl like (.boundary trivial)
      | parked node stack => exact .now rfl like (.boundary trivial)
      | deferred context b => exact .now rfl like (.boundary trivial)
      | bind source frame => exact .eval like (hpush frame rfl (fun q hq => hq) d like hframes w)
      | map source f =>
          exact .eval like (hpush (.map f) rfl (fun q hq => hq) d like hframes w)
      | continueOn context source =>
          refine .eval like (.eval like (hpush _ rfl (fun q hq => ?_) d like hframes w))
          exact absurd hq fun ⟨o, ho⟩ => by cases o <;> cases ho
      | switchConnection source modify restore =>
          refine Closes.switchConnection hx (fun q hq => terminates q (.inl hq))
            (fun run like' hstack w new => ?_) d like hframes w
          have hlike : (Driver.loop { run with connection := new } : Driver S σ).Like d₀ :=
            Driver.like_connection.mpr like'
          cases restore with
          | none => exact ihs source rfl hx _ hlike hstack _
          | some r =>
              exact .eval hlike (hpush (.restore run.connection r) rfl
                (fun q hq => .inr ⟨r, rfl, hq⟩) _ hlike hstack _)

/-- A driver in front of well-founded frames comes to its end with each exit. -/
theorem exits_of_wellFounded {frames : List (Frame S)}
    (hframes : ∀ frame ∈ frames, frame.WellFounded P) : Exits P d₀ rest frames := by
  induction frames with
  | nil => exact exits_nil
  | cons frame frames ih =>
      rw [List.forall_mem_cons] at hframes
      exact (ih hframes.2).cons hframes.1.terminates fun q a e hq ha he =>
        closes_of_wellFounded (hframes.1.returns q a e hq ha he) (ih hframes.2)

/-- A driver that has nothing but well-founded descriptions before it comes to its end. -/
theorem finishes {node : Effect S} (hnode : node.WellFounded P)
    (hframes : ∀ frame ∈ d.stack.toList, frame.WellFounded P) :
    Finishes P d rest (.running w (.eval d node) rest) :=
  closes_of_wellFounded hnode (exits_of_wellFounded hframes) d (.refl d) rfl w

end State

end Trampoline
