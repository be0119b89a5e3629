import Trampoline.Proofs.Run.Serving

/-!
# Regions of connections

An effect whose connection changes only by regions gives the connection back: whatever it
comes to, it exits under the connection under which it has been met.  Which regions there
may be, which answers the surroundings may give, and which connections may be active, is
said of the surroundings.

Main definitions and results:

- Definitions `Effect.Regional`, `Effect.SwitchesOnly`: the regions of an effect and of what
  its code comes back with.
- Definition `Surroundings`: what is known of where an evaluation takes place.
- Definition `Course.Settles`: an evaluation that exits under a given connection.
- Theorem `Proceeds.settles`: it stays one.
-/

namespace Trampoline

variable {S : Closures} {σ : Type}

/-! ## The regions of an effect -/

section

variable (D : (q : Question S) → q.Answer → Prop) (R : Modifier S → Restorer S → Prop)
  (X : Effect S → Prop)

/-- The code of a binder comes back with certain effects only. -/
def Binder.Regional : Binder S → Prop
  | .user k => ∀ v e, D (.bind k v) (.ok e) → X e
  | .pure | .shift _ => True

/-- The code of a recovery comes back with certain effects only. -/
def Recovery.Regional : Recovery S → Prop
  | .user k => ∀ f e, D (.handler k f) (.ok e) → X e
  | .rescue _ | .reify => True

/-- A frame ends no region, and its code comes back with certain effects only. -/
def Frame.Regional : Frame S → Prop
  | .bind f => f.Regional D X
  | .map _ => True
  | .handle h => h.Regional D X
  | .fold f h => f.Regional D X ∧ h.Regional D X
  | .restore _ _ => False

/-- All connection switches in an effect are whole regions of a certain kind, and its code
comes back with certain effects only. -/
def Effect.Regional : Effect S → Prop
  | .suspend k => ∀ e, D (.thunk k) (.ok e) → X e
  | .bind source frame => source.Regional ∧ frame.Regional D X
  | .map source _ | .continueOn _ source => source.Regional
  | .switchConnection source m r => source.Regional ∧ ∃ r', r = some r' ∧ R m r'
  | .pure _ | .fail _ | .delay _ | .async _ | .parked _ _ | .deferred _ _ => True

end

/-- The only connection switches of an effect, also of the effects that its code comes back
with, are regions of a certain kind. -/
def Effect.SwitchesOnly (P : Program S σ) (R : Modifier S → Restorer S → Prop)
    (e : Effect S) : Prop :=
  ∃ X : Effect S → Prop, X e ∧ ∀ e', X e' → e'.Regional (Question.Yields P) R X

section

variable {D D' : (q : Question S) → q.Answer → Prop} {R : Modifier S → Restorer S → Prop}
  {X : Effect S → Prop}

theorem Binder.Regional.mono (hD : ∀ q a, D' q a → D q a) {f : Binder S} (h : f.Regional D X) :
    f.Regional D' X := by
  cases f with
  | user k => exact fun v e he => h v e (hD _ _ he)
  | pure => trivial
  | shift context => trivial

theorem Recovery.Regional.mono (hD : ∀ q a, D' q a → D q a) {r : Recovery S}
    (h : r.Regional D X) : r.Regional D' X := by
  cases r with
  | user k => exact fun f e he => h f e (hD _ _ he)
  | rescue k => trivial
  | reify => trivial

theorem Frame.Regional.mono (hD : ∀ q a, D' q a → D q a) {frame : Frame S}
    (h : frame.Regional D X) : frame.Regional D' X := by
  cases frame with
  | bind f => exact Binder.Regional.mono hD h
  | map k => trivial
  | handle r => exact Recovery.Regional.mono hD h
  | fold f r => exact ⟨Binder.Regional.mono hD h.1, Recovery.Regional.mono hD h.2⟩
  | restore old r => exact h

/-- Fewer answers leave fewer effects to come back with. -/
theorem Effect.Regional.mono (hD : ∀ q a, D' q a → D q a) {e : Effect S}
    (h : e.Regional D R X) : e.Regional D' R X := by
  induction e with
  | suspend k => exact fun e he => h e (hD _ _ he)
  | bind source frame ih => exact ⟨ih h.1, h.2.mono hD⟩
  | map source f ih => exact ih h
  | continueOn context source ih => exact ih h
  | switchConnection source m r ih => exact ⟨ih h.1, h.2⟩
  | _ => trivial

end

/-! ## Surroundings -/

/-- With these answers, a restorer chooses the connection from before its region. -/
def Restorer.GivesBack (D : (q : Question S) → q.Answer → Prop) (r : Restorer S) : Prop :=
  r = .old ∨ ∃ k, r = .user k ∧ ∀ exit old c a, D (.restore k exit old c) a → a = .ok old

/-- What is known of the surroundings of an evaluation: the answers that they may give, the
connections that may be active, and the regions that may be met. -/
structure Surroundings (S : Closures) where
  answers : (q : Question S) → q.Answer → Prop
  active : Connection → Prop
  region : Modifier S → Restorer S → Prop
  /-- No active connection has been canceled. -/
  looks : ∀ c, active c → ¬answers (.canceled c) true
  /-- A region begins on a connection that may be active. -/
  begins : ∀ m r, region m r → m = .uncancelable ∧ active .uncancelable ∨
    ∃ k, m = .user k ∧ ∀ c new, answers (.modify k c) (.ok new) → active new
  /-- A region gives the connection back that was active before it. -/
  ends : ∀ m r, region m r → r.GivesBack answers

namespace Surroundings

variable (G : Surroundings S) (X : Effect S → Prop)

/-- A look at a connection that may be active does not find it canceled. -/
theorem look_eq_false {c : Connection} (hc : G.active c) {canceled : Bool}
    (h : G.answers (.canceled c) canceled) : canceled = false := by
  cases canceled with
  | false => rfl
  | true => exact absurd h (G.looks c hc)

/-- An effect that is met under one connection and exits under another: both are the same
but at the two ends of a region. -/
inductive Leaves (c : Connection) : Connection → Effect S → Prop
  | plain {e : Effect S} (h : e.Regional G.answers G.region X) : Leaves c c e
  | entered {c' : Connection} {source : Effect S} {r : Restorer S}
      (h : source.Regional G.answers G.region X) (back : r.GivesBack G.answers) (old : G.active c) :
      Leaves c c' (.bind source (.restore c r))
  | leaving {c' : Connection} {r : Restorer S} (o : Outcome) (back : r.GivesBack G.answers)
      (old : G.active c) : Leaves c c' (.switchConnection (.ofOutcome o) (.restoring o c r) none)

/-- A frame that takes an exit under one connection and exits under another. -/
inductive Passes (c : Connection) : Connection → Frame S → Prop
  | plain {frame : Frame S} (h : frame.Regional G.answers X) : Passes c c frame
  | ends {c' : Connection} {r : Restorer S} (back : r.GivesBack G.answers) (old : G.active c) :
      Passes c c' (.restore c r)

end Surroundings

/-- With the answers that the surroundings give, an evaluation exits under a connection, if it
exits. -/
def Course.Settles (G : Surroundings S) (X : Effect S → Prop) : Course S → Connection → Prop
  | exit c' _, c => c' = c ∧ G.active c
  | abort, _ => False
  | ask q next, c => ∀ a, G.answers q a → (next a).Settles G X c
  | eval c' e, c => G.active c' ∧ G.Leaves X c c' e
  | seq m frame, c => ∃ c', m.Settles G X c' ∧ G.Passes X c c' frame

section

variable {G : Surroundings S} {X : Effect S → Prop} {c c' : Connection}

namespace Course

/-- What code comes back with settles. -/
theorem settles_node (hX : ∀ e, X e → e.Regional G.answers G.region X) (hc : G.active c)
    {r : Except Failure (Effect S)} (h : ∀ e, r = .ok e → X e) : (node c r).Settles G X c := by
  cases r with
  | ok e => exact ⟨hc, .plain (hX e (h e rfl))⟩
  | error e => exact ⟨hc, .plain trivial⟩

theorem settles_completion (hc : G.active c) (o : Outcome) :
    (completion c o : Course S).Settles G X c := by
  cases o <;> exact ⟨hc, .plain trivial⟩

theorem settles_result (hc : G.active c) (o : Outcome) :
    (result c o : Course S).Settles G X c := by
  cases o with
  | ok v => exact ⟨rfl, hc⟩
  | error e => exact ⟨hc, .plain trivial⟩

end Course

/-- A binder settles under its connection. -/
theorem Binder.Regional.settles (hX : ∀ e, X e → e.Regional G.answers G.region X)
    (hc : G.active c) {f : Binder S} (h : f.Regional G.answers X) (v : Value) :
    (f.move c v).Settles G X c := by
  cases f with
  | user k =>
      intro a ha
      refine Course.settles_node hX hc ?_
      rintro e rfl
      exact h v e ha
  | pure => exact ⟨hc, .plain trivial⟩
  | shift context => exact ⟨hc, .plain trivial⟩

theorem Recovery.Regional.settles (hX : ∀ e, X e → e.Regional G.answers G.region X)
    (hc : G.active c) {r : Recovery S} (h : r.Regional G.answers X) (f : Failure) :
    (r.move c f).Settles G X c := by
  cases r with
  | user k =>
      intro a ha
      refine Course.settles_node hX hc ?_
      rintro e rfl
      exact h f e ha
  | rescue k => exact fun a _ => Course.settles_completion hc a
  | reify => exact ⟨hc, .plain trivial⟩

/-- A region settles under the connection from before it. -/
theorem Surroundings.settles_region (hc : G.active c) {m : Modifier S} {r : Restorer S}
    (hregion : G.region m r) {source : Effect S} (h : source.Regional G.answers G.region X) :
    (m.choose c (.region source (some r) c)).Settles G X c := by
  have hentered : ∀ new, G.active new →
      (Course.region source (some r) c new).Settles G X c := by
    intro new hnew
    exact ⟨hnew, .entered h (G.ends m r hregion) hc⟩
  rcases G.begins m r hregion with ⟨rfl, hactive⟩ | ⟨k, rfl, hactive⟩
  · exact hentered _ hactive
  · intro a ha
    cases a with
    | ok new => exact hentered new (hactive c new ha)
    | error e => exact ⟨hc, .plain trivial⟩

/-- The end of a region settles under the connection from before it. -/
theorem Restorer.GivesBack.settles {r : Restorer S} (h : r.GivesBack G.answers) (hc : G.active c)
    (o : Outcome) (c' : Connection) :
    (r.choose o c c' (.region (.ofOutcome o) none c')).Settles G X c := by
  have hleft : (Course.region (.ofOutcome o) none c' c : Course S).Settles G X c := by
    cases o <;> exact ⟨hc, .plain trivial⟩
  rcases h with rfl | ⟨k, rfl, hold⟩
  · exact hleft
  · intro a ha
    rw [hold o c c' a ha]
    exact hleft

/-- A node settles as it is said to leave. -/
theorem Surroundings.Leaves.settles (hX : ∀ e, X e → e.Regional G.answers G.region X)
    (hc : G.active c') {e : Effect S} (h : G.Leaves X c c' e) : (e.move c').Settles G X c := by
  cases h with
  | entered h back old => exact ⟨c', ⟨hc, .plain h⟩, .ends back old⟩
  | leaving o back old => exact back.settles old o c'
  | plain h =>
      cases e with
      | pure v => exact ⟨rfl, hc⟩
      | fail e => exact ⟨rfl, hc⟩
      | suspend k =>
          intro a ha
          refine Course.settles_node hX hc ?_
          rintro e rfl
          exact h e ha
      | delay k => exact fun a _ => Course.settles_result hc a
      | async k => exact fun a _ => Course.settles_completion hc a
      | parked node stack => exact fun a _ => Course.settles_completion hc a
      | deferred context b => exact fun a _ => Course.settles_completion hc a
      | bind source frame => exact ⟨c, ⟨hc, .plain h.1⟩, .plain h.2⟩
      | map source f => exact ⟨c, ⟨hc, .plain h⟩, .plain trivial⟩
      | continueOn context source => exact ⟨hc, .plain ⟨h, trivial⟩⟩
      | switchConnection source m r =>
          obtain ⟨hsource, r', rfl, hregion⟩ := h
          exact Surroundings.settles_region hc hregion hsource

/-- A frame settles as it is said to pass an exit. -/
theorem Surroundings.Passes.settles (hX : ∀ e, X e → e.Regional G.answers G.region X)
    (hc : G.active c') {frame : Frame S} (h : G.Passes X c c' frame) (o : Outcome) :
    (frame.move c' o).Settles G X c := by
  cases h with
  | ends back old => exact ⟨hc, .leaving o back old⟩
  | plain h =>
      cases frame with
      | bind f =>
          cases o with
          | ok v => exact Binder.Regional.settles hX hc h v
          | error e => exact ⟨rfl, hc⟩
      | map k =>
          cases o with
          | ok v => exact fun a _ => Course.settles_completion hc a
          | error e => exact ⟨rfl, hc⟩
      | handle r =>
          cases o with
          | ok v => exact ⟨rfl, hc⟩
          | error e => exact Recovery.Regional.settles hX hc h e
      | fold f r =>
          cases o with
          | ok v => exact Binder.Regional.settles hX hc h.1 v
          | error e => exact Recovery.Regional.settles hX hc h.2 e
      | restore old r => exact h.elim

namespace Course

/-- An evaluation exits under the connection under which it settles. -/
theorem Settles.exited {m : Course S} (h : m.Settles G X c) {o : Outcome}
    (hm : m.head = .exited c' o) : c' = c ∧ G.active c := by
  cases m with
  | exit c'' o' =>
      cases hm
      exact h
  | seq m frame =>
      simp only [head] at hm
      cases hh : m.head <;> simp [hh] at hm
  | _ => cases hm

/-- An evaluation that settles is not aborted. -/
theorem Settles.not_aborted {m : Course S} (h : m.Settles G X c) : m.head ≠ .aborted := by
  induction m generalizing c with
  | abort => exact h.elim
  | seq m frame ih =>
      obtain ⟨c', hm, -⟩ := h
      have hne := ih hm
      simp only [head]
      cases hh : m.head <;> simp_all
  | _ => simp [head]

/-- An evaluation that goes on without a question settles as before. -/
theorem Settles.goes (hX : ∀ e, X e → e.Regional G.answers G.region X) {m n : Course S}
    (h : m.Settles G X c) (hm : m.head = .goes n) : n.Settles G X c := by
  induction m generalizing n c with
  | seq m frame ih =>
      obtain ⟨c', hsource, hframe⟩ := h
      simp only [head] at hm
      cases hh : m.head with
      | exited c'' o =>
          simp only [hh, Head.goes.injEq] at hm
          obtain ⟨rfl, hactive⟩ := hsource.exited hh
          exact hm ▸ hframe.settles hX hactive o
      | goes m' =>
          simp only [hh, Head.goes.injEq] at hm
          exact hm ▸ ⟨c', ih hsource hh, hframe⟩
      | aborted => simp [hh] at hm
      | asks q next => simp [hh] at hm
  | _ => cases hm

/-- An evaluation that has been given an answer settles as before. -/
theorem Settles.answered (hX : ∀ e, X e → e.Regional G.answers G.region X) {m : Course S}
    (h : m.Settles G X c) {q : Question S} {next : q.Answer → Course S}
    (hm : m.head = .asks q next) {a : q.Answer} (ha : G.answers q a) :
    (next a).Settles G X c := by
  induction m generalizing q c with
  | ask q' next' _ =>
      cases hm
      exact h a ha
  | eval c' e =>
      cases hm
      obtain rfl := G.look_eq_false h.1 ha
      exact h.2.settles hX h.1
  | seq m frame ih =>
      obtain ⟨c', hsource, hframe⟩ := h
      simp only [head] at hm
      cases hh : m.head with
      | asks q' next' =>
          simp only [hh] at hm
          cases hm
          exact ⟨c', ih hsource hh ha, hframe⟩
      | exited c'' o => simp [hh] at hm
      | aborted => simp [hh] at hm
      | goes m' => simp [hh] at hm
  | _ => cases hm

end Course

/-- With the answers that the surroundings give, an evaluation keeps its connection. -/
theorem Proceeds.settles (hX : ∀ e, X e → e.Regional G.answers G.region X) {m n : Course S}
    {xs : List (Exchange S)} (h : Proceeds m xs n) (hm : m.Settles G X c)
    (answers : ∀ x ∈ xs, G.answers x.question x.answer) : n.Settles G X c := by
  induction h with
  | refl m => exact hm
  | goes hhead _ ih => exact ih (hm.goes hX hhead) answers
  | answered hhead _ ih =>
      have hanswer := answers _ List.mem_cons_self
      exact ih (hm.answered hX hhead hanswer) fun x hx => answers x (List.mem_cons_of_mem _ hx)

end

end Trampoline
