import Trampoline.Proofs.Machine.Locality
import Trampoline.Proofs.Machine.Place

/-!
# Calls that no panic leaves

The engine guards the code of the host wherever it runs it for an effect: if the installed
rule says that a panic may be survived, the panic ends there.  So a call of the engine from
outside returns, whatever the closures of the effect do, if no fatal panic comes up in it and
the code that the engine does not guard, that of terminals and of contexts, lets no panic out.

A call is looked at with nothing below it.  By `State.next_onto`, what waits below a call
makes no difference to it.

Main definitions and results:

- Definitions `Call`, `Call.enter`: the calls from outside.
- Definition `State.NeverUnwinds`: no panic leaves a state.
- Definition `PanicsContained`: what a call asks of the code that it runs.
- Definitions `State.StepContained`, `State.isContained`: states that do what a call asks, whatever
  call it is, and a test for them.
- Definition `Activation.Catches`: an activation at the bottom of a call that lets no panic
  out that may be survived.
- Theorem `Call.neverUnwinds`: no panic leaves a call that has what it asks.
-/

namespace Trampoline

variable {S : Closures} {σ : Type}

/-! ## Calls -/

/-- What may be called from outside. -/
inductive Call (S : Closures) where
  | run (e : Effect S) (c : Connection) (terminal : Terminal S)
  | complete (cb : Callback) (o : Outcome)
  | step (e : Effect S)

/-- What takes the place of a step that was made from outside: with the effect that is left,
its caller is done, and a panic is the caller's. -/
def Call.stepped : Except Payload (Effect S) → Activation S σ
  | .ok _ => .code (.done ())
  | .error payload => .code (.panic payload)

/-- The state in which a call begins, with nothing below it. -/
def Call.enter (P : Program S σ) (w : World S σ) : Call S → State S σ
  | run e c terminal => .begin P w (.run e c terminal) []
  | complete cb o => .begin P w (.complete cb o) []
  | step e => .running w (.eval (.partially .empty stepped) e) []

/-- A command of code makes the call on top of the code. -/
theorem Call.enter_command (P : Program S σ) (w : World S σ) {α : Type} (h : Holder S σ α)
    (next : Unit → Code S σ α) (rest : List (Activation S σ)) :
    (∀ e c terminal, State.work P w rest (h.wrap (.command (.run e c terminal) next)) =
        ((Call.run e c terminal).enter P w).onto (h.wrap (next ()) :: rest)) ∧
      ∀ cb o, State.work P w rest (h.wrap (.command (.complete cb o) next)) =
        ((Call.complete cb o).enter P w).onto (h.wrap (next ()) :: rest) := by
  constructor
  · intro e c terminal
    rw [State.work_wrap]
    rfl
  · intro cb o
    rw [State.work_wrap]
    exact (State.complete_onto P w [] _ cb o).symm

namespace State

/-- No panic ever leaves the lowest activation of a state. -/
def NeverUnwinds (P : Program S σ) (s : State S σ) : Prop :=
  ∀ n w payload, run P n s ≠ unwound w payload

variable {P : Program S σ}

/-- What no panic leaves, no panic leaves after a step. -/
theorem NeverUnwinds.next {s : State S σ} (h : NeverUnwinds P s) : NeverUnwinds P (s.next P) := by
  intro n w payload
  rw [← run_succ]
  exact h (n + 1) w payload

end State

/-- What the code that runs in a call does at some moment of the call, as far as the call
depends on it: at the bottom of the call, guarded code panics only in ways that a run
survives, the code of a terminal or of a context that is about to start lets no panic out,
and a new thread has a name that a thread may have. -/
structure PanicsContained (P : Program S σ) (s : State S σ) : Prop where
  survives : ∀ {α : Type} (h : Holder S σ α) {w : World S σ} {payload : Payload},
    s = .running w (h.wrap (.panic payload)) [] → h.wrap (.panic payload) ≠ .code (.panic payload) →
      w.classifier payload = true
  terminal : ∀ {w : World S σ} {k : S.Terminal} {o : Outcome},
    s = .running w (.code (P.terminal k o)) [] → s.NeverUnwinds P
  executor : ∀ {w : World S σ} {x : S.Executor} {task : Task S},
    s = .running w (.code (P.executor x task)) [] → s.NeverUnwinds P
  named : ∀ {w : World S σ} {run : Loop S} {name : String} {spawns : Bool} {b : Body S},
    s = .running w (.eval (.loop run) (.deferred (.newThread name spawns) b)) [] →
      Context.threadNameFault? name = none

/-- A call in which something waits asks for nothing, nor does one that has come to its end. -/
theorem PanicsContained.of_ne {P : Program S σ} {s : State S σ}
    (h : ∀ w top, s ≠ .running w top []) : PanicsContained P s where
  survives := fun _ _ _ hs => absurd hs (h _ _)
  terminal := fun hs => absurd hs (h _ _)
  executor := fun hs => absurd hs (h _ _)
  named := fun hs => absurd hs (h _ _)

/-! ## States whose steps let no panic out -/

namespace State

variable {P : Program S σ} {s : State S σ}

/-- What a state does next is what a call asks, in whatever call it is the lowest. -/
def StepContained (P : Program S σ) (s : State S σ) : Prop :=
  ∀ w top rest, s = running w top rest → PanicsContained P (running w top [])

/-- What a state does next is what the call asks whose lowest activation is on top. -/
theorem StepContained.panicsContained (h : s.StepContained P) : PanicsContained P s := by
  by_cases hs : ∃ w top, s = running w top []
  · obtain ⟨w, top, rfl⟩ := hs
    exact h w top [] rfl
  · exact .of_ne fun w top h => hs ⟨w, top, h⟩

/-- A machine has come to its end without a panic. -/
def hasReturned : State S σ → Bool
  | returned _ => true
  | _ => false

/-- No panic leaves what returns. -/
theorem neverUnwinds_of_hasReturned {n : Nat} (h : (run P n s).hasReturned = true) :
    s.NeverUnwinds P := by
  intro m w' payload hm
  have hended : (run P n s).activations = [] := by
    generalize run P n s = s' at h
    cases s' with
    | running w top rest => cases h
    | returned w => rfl
    | unwound w payload => rfl
  rcases Nat.le_total m n with hle | hle
  · obtain ⟨k, rfl⟩ := Nat.exists_eq_add_of_le hle
    rw [run_add, hm, run_of_ended P rfl] at h
    cases h
  · obtain ⟨k, rfl⟩ := Nat.exists_eq_add_of_le hle
    rw [run_add, run_of_ended P hended] at hm
    rw [hm] at h
    cases h

end State

/-- A test for the activation on top of such a state.  Code on its own has to return within so many
steps. -/
def Activation.isContained (P : Program S σ) (fuel : Nat) (w : World S σ) : Activation S σ → Bool
  | .node _ (.panic payload) | .outcome _ (.panic payload) | .switch _ _ _ (.panic payload)
  | .owing _ (.panic payload) => w.classifier payload
  | .eval (.loop _) (.deferred (.newThread name _) _) => (Context.threadNameFault? name).isNone
  | .code c => (State.run P fuel (.running w (.code c) [])).hasReturned
  | _ => true

/-- A test for states whose next step lets no panic out. -/
def State.isContained (P : Program S σ) (fuel : Nat) : State S σ → Bool
  | running w top _ => top.isContained P fuel w
  | _ => true

/-- The states that pass the test are such states. -/
theorem State.contained_of_isContained {P : Program S σ} {fuel : Nat} {s : State S σ}
    (h : s.isContained P fuel = true) : s.StepContained P := by
  rintro w top rest rfl
  have htop : top.isContained P fuel w = true := h
  have hnever : ∀ code, top = .code code → NeverUnwinds P (running w top []) := by
    rintro code rfl
    exact neverUnwinds_of_hasReturned htop
  refine ⟨fun holder w' payload hs hcode => ?_, fun hs => ?_, fun hs => ?_, fun hs => ?_⟩
  · cases hs
    cases holder with
    | code => exact absurd rfl hcode
    | node d => exact htop
    | outcome d => exact htop
    | switch run source restore => exact htop
    | owing cb => exact htop
  · cases hs
    exact hnever _ rfl
  · cases hs
    exact hnever _ rfl
  · cases hs
    exact Option.isNone_iff_eq_none.mp htop

/-! ## Activations that catch panics -/

namespace Activation

/-- An activation lets no panic out that may be survived: it is guarded, or it is a partial
evaluation in front of what is, or the one that was asked for from outside. -/
def Catches : Activation S σ → Prop
  | .eval (.partially _ resume) _ => resume = Call.stepped ∨ ∀ r, (resume r).Catches
  | .value (.partially _ resume) _ => resume = Call.stepped ∨ ∀ r, (resume r).Catches
  | .node (.partially _ resume) _ => resume = Call.stepped ∨ ∀ r, (resume r).Catches
  | .outcome (.partially _ resume) _ => resume = Call.stepped ∨ ∀ r, (resume r).Catches
  | .code _ | .tokens _ => False
  | _ => True

/-- A partial evaluation catches what the activation behind it catches. -/
theorem catches_iff_of_behind? {a : Activation S σ}
    {resume : Except Payload (Effect S) → Activation S σ} (h : a.behind? = some resume) :
    a.Catches ↔ resume = Call.stepped ∨ ∀ r, (resume r).Catches := by
  cases a with
  | eval d n => cases d <;> cases h; rw [Catches]
  | value d v => cases d <;> cases h; rw [Catches]
  | node d code => cases d <;> cases h; rw [Catches]
  | outcome d code => cases d <;> cases h; rw [Catches]
  | _ => cases h

/-- The work of a loop is guarded. -/
theorem catches_of_loop? {a : Activation S σ} {run : Loop S} (h : a.loop? = some run) :
    a.Catches := by
  cases a with
  | eval d n => cases d <;> cases h; trivial
  | value d v => cases d <;> cases h; trivial
  | node d code => cases d <;> cases h; trivial
  | outcome d code => cases d <;> cases h; trivial
  | switch run source restore code => trivial
  | _ => cases h

/-- What catches panics is no code on its own. -/
theorem Catches.ne_code {a : Activation S σ} (h : a.Catches) (code : Code S σ Unit) :
    a ≠ .code code := by
  rintro rfl
  exact h

/-- An activation catches panics however far its code has come. -/
theorem Catches.wrap {α : Type} {h : Holder S σ α} {code : Code S σ α} (hc : (h.wrap code).Catches)
    (code' : Code S σ α) : (h.wrap code').Catches := by
  cases h with
  | node d => cases d <;> exact hc
  | outcome d => cases d <;> exact hc
  | switch run source restore => trivial
  | owing cb => trivial
  | code => exact hc

/-- Code with a panic from above is still guarded. -/
theorem Catches.panicking {a : Activation S σ} (h : a.Catches)
    (hw : a.Waits ∨ ∃ outer, a = .thread outer) (payload : Payload) :
    (a.panicking payload).Catches := by
  rcases hw with hw | ⟨outer, rfl⟩
  · cases a with
    | node d code => exact h.wrap (h := .node d) _
    | outcome d code => exact h.wrap (h := .outcome d) _
    | switch run source restore code => trivial
    | owing cb code => trivial
    | code code => exact h
    | _ => exact hw.elim
  · trivial

end Activation

/-! ## Steps of a call -/

/-- Where a call may be: it has returned, what is lowest in it catches panics, or code of the
host is about to start, or to end, in that place. -/
inductive Handled (P : Program S σ) : State S σ → Prop
  | returned (w : World S σ) : Handled P (.returned w)
  | caught {s : State S σ} {above : List (Activation S σ)} {a : Activation S σ}
      (place : s.activations = above ++ [a]) (catches : a.Catches)
      (waits : above = [] ∨ a.Waits ∨ ∃ outer, a = .thread outer) : Handled P s
  | terminal (w : World S σ) (k : S.Terminal) (o : Outcome) :
      Handled P (.running w (.code (P.terminal k o)) [])
  | executor (w : World S σ) (x : S.Executor) (task : Task S) :
      Handled P (.running w (.code (P.executor x task)) [])
  | stepped (w : World S σ) : Handled P (.running w (.code (.done ())) [])

namespace Handled

variable {P : Program S σ} {w : World S σ}

/-- What catches panics is alone. -/
theorem alone {a : Activation S σ} (h : a.Catches) : Handled P (.running w a []) :=
  .caught (show _ = [] ++ [a] from rfl) h (.inl rfl)

theorem loop {run : Loop S} {a : Activation S σ} (h : a.loop? = some run) :
    Handled P (.running w a []) :=
  alone (Activation.catches_of_loop? h)

theorem complete (cb : Callback) (o : Outcome) : Handled P (.complete P w cb o []) := by
  unfold State.complete
  repeat' split
  all_goals first
    | exact loop rfl
    | exact .returned _

theorem deliver (t : Terminal S) (o : Outcome) : Handled P (.deliver P w t o []) := by
  cases t with
  | user k => exact .terminal w k o
  | complete cb => exact complete cb o

theorem finish (run : Loop S) (o : Outcome) : Handled P (.finish P w run o []) := by
  unfold State.finish
  repeat' split
  all_goals first
    | exact deliver _ o
    | exact .returned _

/-- A body that is submitted is guarded, on whatever thread, and the code of a context runs
on its own. -/
theorem submit {context : Context S.Executor} (cb : Callback) (b : Body S)
    (hname : ∀ name spawns, context = .newThread name spawns →
      Context.threadNameFault? name = none) :
    Handled P (.submit P w context (.body cb b) []) := by
  have hthread : ∀ thread, Handled P (.runTaskOn P w thread (.body cb b) []) := fun thread =>
    .caught (show _ = [.owing cb (P.bodyWith b cb)] ++ [.thread w.thread] from rfl) trivial
      (.inr (.inr ⟨_, rfl⟩))
  cases context with
  | immediate => exact alone trivial
  | newThread name spawns =>
      simp only [State.submit, hname name spawns rfl]
      split
      · exact hthread name
      · exact alone trivial
  | pool name worker => exact hthread worker
  | hosted name executor => exact .executor w executor _

theorem reduce {run : Loop S} {node : Effect S}
    (hname : ∀ name spawns b, node = .deferred (.newThread name spawns) b →
      Context.threadNameFault? name = none) :
    Handled P (.reduce P w (.loop run) node []) := by
  cases node with
  | fail e =>
      simp only [State.reduce]
      split
      · exact loop rfl
      · exact finish _ _
  | async k => exact alone trivial
  | parked inner stack =>
      exact .caught (show _ = [_] ++ [.owing _ (.done ())] from rfl) trivial (.inr (.inl trivial))
  | deferred context b => exact submit _ b fun name spawns hc => hname name spawns b (hc ▸ rfl)
  | _ => exact loop rfl

/-- What guarded code asks for comes on top of it, and a panic of that is one of the code. -/
theorem ask {α : Type} {h : Holder S σ α} {code : Code S σ α} (hc : (h.wrap code).Catches)
    (hdone : ∀ a, code ≠ .done a) (hpanic : ∀ payload, code ≠ .panic payload) :
    Handled P (.work P w [] (h.wrap code)) := by
  rw [State.work_wrap]
  cases code with
  | done a => exact absurd rfl (hdone a)
  | panic payload => exact absurd rfl (hpanic payload)
  | query q next => exact alone (hc.wrap _)
  | command c next =>
      have honto : State.begin P w c [h.wrap (next ())] =
          (State.begin P w c []).onto [h.wrap (next ())] := by
        simp
      simp only [State.advance]
      rw [honto]
      cases State.begin P w c [] with
      | running w' top rest =>
          exact .caught (show _ = (top :: rest) ++ [h.wrap (next ())] from rfl) (hc.wrap _)
            (.inr (.inl (by simp)))
      | returned w' => exact alone (hc.wrap _)
      | unwound w' payload =>
          exact alone ((hc.wrap (next ())).panicking (.inl (by simp)) payload)
  | step e next =>
      refine alone (.inr fun r => ?_)
      cases r with
      | ok residual => exact hc.wrap _
      | error payload => exact hc.wrap _

/-- Guarded code on its way to a result or to a panic. -/
theorem wrap {α : Type} {h : Holder S σ α} {code : Code S σ α} (hc : (h.wrap code).Catches)
    (hfinish : ∀ a, Handled P (h.finish w [] a))
    (hescape : ∀ payload, code = .panic payload → Handled P (h.escape P w [] payload)) :
    Handled P (.work P w [] (h.wrap code)) := by
  cases code with
  | done a =>
      rw [State.work_wrap]
      exact hfinish a
  | panic payload =>
      rw [State.work_wrap]
      exact hescape payload rfl
  | _ => exact ask hc (by simp) (by simp)

/-- The panic of a closure that a run survives. -/
theorem panicIn (run : Loop S) {payload : Payload} (h : w.classifier payload = true) :
    Handled P (.panicIn P w (.loop run) payload []) := by
  simp only [State.panicIn, State.contain, h, if_true]
  exact loop rfl

/-- What stands in view at the bottom of a call, and catches panics. -/
theorem work_of_view {top : Activation S σ} (hcontained : PanicsContained P (.running w top []))
    (hc : top.Catches) (hb : top.behind? = none) : Handled P (.work P w [] top) := by
  cases top with
  | eval d node =>
      cases d with
      | partially stack resume => cases hb
      | loop run =>
          simp only [State.work, State.eval]
          split
          · exact finish run _
          · exact reduce fun name spawns b hnode => hcontained.named (by rw [hnode])
  | value d v =>
      cases d with
      | partially stack resume => cases hb
      | loop run =>
          simp only [State.work, State.value]
          split
          · exact loop rfl
          · exact finish _ _
  | node d code =>
      cases d with
      | partially stack resume => cases hb
      | loop run =>
          refine wrap (h := .node (.loop run)) hc (fun e => loop rfl) fun payload hp => ?_
          subst hp
          exact panicIn run (hcontained.survives (.node (.loop run)) rfl (hc.ne_code _))
  | outcome d code =>
      cases d with
      | partially stack resume => cases hb
      | loop run =>
          refine wrap (h := .outcome (.loop run)) hc (fun o => ?_) fun payload hp => ?_
          · cases o <;> exact loop rfl
          · subst hp
            exact panicIn run (hcontained.survives (.outcome (.loop run)) rfl (hc.ne_code _))
  | switch run source restore code =>
      refine wrap (h := .switch run source restore) hc (fun new => ?_) fun payload hp => ?_
      · cases restore <;> exact loop rfl
      · subst hp
        exact panicIn run (hcontained.survives (.switch run source restore) rfl (hc.ne_code _))
  | owing cb code =>
      refine wrap (h := .owing cb) hc (fun _ => .returned w) fun payload hp => ?_
      subst hp
      simp only [Holder.escape, State.contain, hcontained.survives (.owing cb) rfl (hc.ne_code _),
        if_true]
      exact complete cb _
  | thread outer => exact .returned _
  | code code => exact hc.elim
  | tokens pending => exact hc.elim

/-- What is lowest in a call, and catches panics, lets none out in its work. -/
theorem work {top : Activation S σ} (hcontained : PanicsContained P (.running w top []))
    (hc : top.Catches) : Handled P (.work P w [] top) := by
  cases hb : top.behind? with
  | none => exact work_of_view hcontained hc hb
  | some resume =>
      have hstep : StepsAside P w [] resume top (State.work P w [] top) := State.work_behind P hb
      have hbehind := (Activation.catches_iff_of_behind? hb).mp hc
      generalize State.work P w [] top = s at hstep ⊢
      cases hstep with
      | goes bridges h => exact alone ((Activation.catches_iff_of_behind? h).mpr hbehind)
      | gives residual =>
          rcases hbehind with rfl | hbehind
          · exact .stepped w
          · exact alone (hbehind _)
      | raises h fatal =>
          -- Nothing but a fatal panic would leave a partial evaluation.
          have hsurvives := hcontained.survives h rfl (hc.ne_code _)
          rw [fatal] at hsurvives
          cases hsurvives
      | asks h code hdone hpanic => exact ask hc hdone hpanic

/-- A step of a call leaves it in hand, or in the hands of code that lets no panic out. -/
theorem next {s : State S σ} (h : Handled P s) (hcontained : PanicsContained P s) :
    Handled P (s.next P) ∨ (s.next P).NeverUnwinds P := by
  cases h with
  | returned w => exact .inl (.returned w)
  | terminal w k o => exact .inr (hcontained.terminal rfl).next
  | executor w x task => exact .inr (hcontained.executor rfl).next
  | stepped w => exact .inl (.returned w)
  | @caught s above a place catches waits =>
      refine .inl ?_
      cases s with
      | returned w => simp [State.activations] at place
      | unwound w payload => simp [State.activations] at place
      | running w top rest =>
          rw [State.activations_running] at place
          cases above with
          | nil =>
              rw [List.nil_append, List.cons.injEq] at place
              obtain ⟨rfl, rfl⟩ := place
              exact work hcontained catches
          | cons b above =>
              rw [List.cons_append, List.cons.injEq] at place
              obtain ⟨rfl, rfl⟩ := place
              have hwaits : a.Waits ∨ ∃ outer, a = .thread outer := by simpa using waits
              have honto : State.next P (.running w top (above ++ [a])) =
                  (State.work P w [] top).onto (above ++ [a]) := by
                simp [State.next]
              rw [honto]
              cases State.work P w [] top with
              | running w' top' new =>
                  exact .caught (show _ = (top' :: (new ++ above)) ++ [a] by simp) catches
                    (.inr hwaits)
              | returned w' =>
                  exact .caught (State.activations_resume w' (above ++ [a])) catches (.inr hwaits)
              | unwound w' payload =>
                  cases above with
                  | nil => exact alone (catches.panicking hwaits payload)
                  | cons b above =>
                      exact .caught (show _ = (b.panicking payload :: above) ++ [a] from rfl)
                        catches (.inr hwaits)

/-- No panic has left a call that is in hand. -/
theorem ne_unwound (h : Handled P (.unwound w payload)) : False := by
  cases h with
  | caught place catches waits => simp [State.activations] at place

end Handled

/-- A call begins in hand. -/
theorem Call.handled (P : Program S σ) (w : World S σ) (call : Call S) :
    Handled P (call.enter P w) := by
  cases call with
  | run e c terminal => exact .loop rfl
  | complete cb o => exact .complete cb o
  | step e => exact .alone (.inl rfl)

/-- No panic leaves a call if whatever it runs contains its panics. -/
theorem Call.neverUnwinds {P : Program S σ} {w : World S σ} {call : Call S}
    (hcontained : ∀ n, PanicsContained P (State.run P n (call.enter P w))) :
    (call.enter P w).NeverUnwinds P := by
  have hinvariant : ∀ n, Handled P (State.run P n (call.enter P w)) ∨
      (State.run P n (call.enter P w)).NeverUnwinds P := by
    intro n
    induction n with
    | zero => exact .inl (call.handled P w)
    | succ n ih =>
        rw [State.run_succ']
        rcases ih with hhandled | hnever
        · exact hhandled.next (hcontained n)
        · exact .inr hnever.next
  intro n w' payload hunwound
  rcases hinvariant n with hhandled | hnever
  · rw [hunwound] at hhandled
    exact hhandled.ne_unwound
  · exact hnever 0 w' payload hunwound

end Trampoline
