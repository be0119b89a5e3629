import Trampoline.Proofs.Run.Answers

/-!
# Well-founded descriptions

A description is well-founded if the code that it names terminates, whatever it is given, and
comes back only with descriptions that are well-founded themselves.  Then all that a run of it
has before it, at any moment, is well-founded: the node in front and the frames that wait.

Main definitions and results:

- Definition `Code.Terminates`: code that comes to its end wherever it is run.
- Definitions `Frame.Asks`, `Effect.Asks`: the questions whose code a frame or a node names.
- Definitions `Effect.WellFounded`, `Frame.WellFounded`: well-founded descriptions.
- Definition `Course.WellFounded`, theorem `Proceeds.wellFounded`: an evaluation of
  well-founded descriptions stays one.
-/

namespace Trampoline

variable {S : Closures} {σ : Type}

/-! ## Code that terminates -/

/-- Wherever the code is run, and whatever goes on with its result, the machine comes to the
end of it: it comes back with a result that it can return, or it panics. -/
def Code.Terminates (P : Program S σ) {α : Type} (code : Code S σ α) : Prop :=
  ∀ {β : Type} (f : α → Code S σ β) (h : Holder S σ β) (w : World S σ)
    (rest : List (Activation S σ)), State.Reachable P (.running w (h.wrap (code.bind f)) rest) →
    ∃ n w', (∃ a, code.CanReturn a ∧
        State.run P n (.running w (h.wrap (code.bind f)) rest) = .running w' (h.wrap (f a)) rest) ∨
      ∃ payload, State.run P n (.running w (h.wrap (code.bind f)) rest) =
        .running w' (h.wrap (.panic payload)) rest

/-- Code that has its result has come to its end. -/
theorem Code.terminates_done (P : Program S σ) {α : Type} (a : α) :
    (Code.done a : Code S σ α).Terminates P :=
  fun _ _ w _ _ => ⟨0, w, .inl ⟨a, .done a, rfl⟩⟩

/-- The code that works on a question terminates.  Nothing is said of questions whose answer is
no result of code. -/
def Question.Terminates (P : Program S σ) : Question S → Prop
  | thunk k => (P.thunk k).Terminates P
  | delay k => (P.delay k).Terminates P
  | bind k v => (P.bind k v).Terminates P
  | map k v => (P.map k v).Terminates P
  | handler k e => (P.handler k e).Terminates P
  | rescue k e => (P.rescue k e).Terminates P
  | modify k c => (P.modify k c).Terminates P
  | restore k exit old c => (P.restore k exit old c).Terminates P
  | canceled _ | async _ _ | parked _ _ _ | deferred _ _ _ => True

/-- The description in an answer. -/
def Question.node? : (q : Question S) → q.Answer → Option (Effect S)
  | thunk _, a | bind _ _, a | handler _ _, a => a.toOption
  | _, _ => none

/-! ## What a description names -/

/-- The questions whose code a modifier names. -/
def Modifier.Asks (m : Modifier S) (q : Question S) : Prop :=
  ∃ c, m.question? c = some q

/-- The questions whose code a restorer names. -/
def Restorer.Asks (r : Restorer S) (q : Question S) : Prop :=
  ∃ exit old, (Modifier.restoring exit old r).Asks q

/-- The questions whose code a frame names. -/
def Frame.Asks (frame : Frame S) (q : Question S) : Prop :=
  match frame with
  | .restore _ r => r.Asks q
  | _ => ∃ o, frame.question? o = some q

/-- The questions whose code a node names, but for those of its source. -/
def Effect.Asks : Effect S → Question S → Prop
  | .suspend k, q => q = .thunk k
  | .delay k, q => q = .delay k
  | .bind _ frame, q => frame.Asks q
  | .map _ f, q => (Frame.map f).Asks q
  | .switchConnection _ modify restore, q => modify.Asks q ∨ ∃ r ∈ restore, r.Asks q
  | _, _ => False

/-- A well-founded description: its source is one, its code terminates, and all descriptions
with which its code may come back are well-founded. -/
inductive Effect.WellFounded (P : Program S σ) : Effect S → Prop
  | intro {e : Effect S} (source : ∀ e', e.source? = some e' → WellFounded P e')
      (terminates : ∀ q, e.Asks q → q.Terminates P)
      (returns : ∀ q a e', e.Asks q → q.Yields P a → q.node? a = some e' → WellFounded P e') :
      WellFounded P e

/-- A frame whose code terminates and comes back with well-founded descriptions only. -/
structure Frame.WellFounded (P : Program S σ) (frame : Frame S) : Prop where
  terminates : ∀ q, frame.Asks q → q.Terminates P
  returns : ∀ q a e', frame.Asks q → q.Yields P a → q.node? a = some e' → e'.WellFounded P

namespace Effect.WellFounded

variable {P : Program S σ}

/-- A node that names no code and has no source. -/
theorem leaf {e : Effect S} (source : e.source? = none) (asks : ∀ q, ¬e.Asks q) :
    e.WellFounded P :=
  .intro (fun e' he => by simp [source] at he) (fun q hq => (asks q hq).elim)
    fun q _ _ hq => (asks q hq).elim

/-- A value is well-founded. -/
theorem pure (v : Value) : (Effect.pure v : Effect S).WellFounded P :=
  leaf rfl fun _ => id

/-- A failure is well-founded. -/
theorem fail (e : Failure) : (Effect.fail e : Effect S).WellFounded P :=
  leaf rfl fun _ => id

/-- An outcome is well-founded as a node. -/
theorem ofOutcome (o : Outcome) : (Effect.ofOutcome o : Effect S).WellFounded P := by
  cases o with
  | ok v => exact pure v
  | error e => exact fail e

/-- A source and a frame. -/
theorem bind {source : Effect S} {frame : Frame S} (hs : source.WellFounded P)
    (hf : frame.WellFounded P) : (Effect.bind source frame).WellFounded P :=
  .intro (fun e' he => by cases he; exact hs) hf.terminates hf.returns

/-- The source of a well-founded node is well-founded. -/
theorem source {e e' : Effect S} (h : e.WellFounded P) (he : e.source? = some e') :
    e'.WellFounded P := by
  cases h with
  | intro source terminates returns => exact source e' he

/-- The code that a well-founded node names terminates. -/
theorem terminates {e : Effect S} (h : e.WellFounded P) {q : Question S} (hq : e.Asks q) :
    q.Terminates P := by
  cases h with
  | intro source terminates returns => exact terminates q hq

/-- The nodes that the code of a well-founded node returns are well-founded. -/
theorem returns {e e' : Effect S} (h : e.WellFounded P) {q : Question S} {a : q.Answer}
    (hq : e.Asks q) (ha : q.Yields P a) (he : q.node? a = some e') : e'.WellFounded P := by
  cases h with
  | intro source terminates returns => exact returns q a e' hq ha he

/-- The frame of a node is well-founded. -/
theorem frame {source : Effect S} {frame : Frame S} (h : (Effect.bind source frame).WellFounded P) :
    frame.WellFounded P :=
  ⟨fun _ hq => h.terminates hq, fun _ _ _ hq ha he => h.returns hq ha he⟩

/-- The frame of a map is well-founded. -/
theorem frame_map {source : Effect S} {f : S.Map} (h : (Effect.map source f).WellFounded P) :
    (Frame.map f).WellFounded P :=
  ⟨fun _ hq => h.terminates hq, fun _ _ _ hq ha he => h.returns hq ha he⟩

end Effect.WellFounded

/-- The frame that ends a region is well-founded. -/
theorem Effect.WellFounded.frame_restore {P : Program S σ} {source : Effect S} {m : Modifier S}
    {r : Restorer S} (h : (Effect.switchConnection source m (some r)).WellFounded P)
    (old : Connection) : (Frame.restore old r).WellFounded P :=
  ⟨fun _ hq => h.terminates (.inr ⟨r, rfl, hq⟩),
    fun _ _ _ hq ha he => h.returns (.inr ⟨r, rfl, hq⟩) ha he⟩

/-- The node that the end of a region becomes is well-founded. -/
theorem Frame.WellFounded.restoring {P : Program S σ} {old : Connection} {r : Restorer S}
    (h : (Frame.restore old r).WellFounded P) (o : Outcome) :
    (Effect.switchConnection (.ofOutcome o) (.restoring o old r) none).WellFounded P := by
  have hasks : ∀ {q}, (Effect.switchConnection (.ofOutcome o) (.restoring o old r) none).Asks q →
      (Frame.restore old r).Asks q := by
    rintro q (hq | ⟨r', hr', -⟩)
    · exact ⟨o, old, hq⟩
    · cases hr'
  refine .intro (fun e' he => ?_) (fun q hq => h.terminates q (hasks hq))
    fun q a e' hq => h.returns q a e' (hasks hq)
  cases he
  exact .ofOutcome o

/-! ## Evaluations of well-founded descriptions -/

/-- All nodes and frames of an evaluation are well-founded, whatever the code of its questions
comes back with. -/
def Course.WellFounded (P : Program S σ) : Course S → Prop
  | exit _ _ | abort => True
  | ask q next => ∀ a, q.Yields P a → (next a).WellFounded P
  | eval _ e => e.WellFounded P
  | seq m frame => m.WellFounded P ∧ frame.WellFounded P

namespace Course

variable {P : Program S σ} {c : Connection}

/-- An evaluation is well-founded within frames if and only if it is and the frames are. -/
theorem wellFounded_within (m : Course S) (frames : List (Frame S)) :
    (m.within frames).WellFounded P ↔
      m.WellFounded P ∧ ∀ frame ∈ frames, frame.WellFounded P := by
  induction frames generalizing m with
  | nil => simp
  | cons frame frames ih =>
      rw [within_cons, ih, List.forall_mem_cons, ← and_assoc]
      rfl

/-- What code has come back with is well-founded if it is a well-founded node or a failure. -/
theorem wellFounded_node {r : Except Failure (Effect S)}
    (h : ∀ e, r = .ok e → e.WellFounded P) : (node c r).WellFounded P := by
  cases r with
  | ok e => exact h e rfl
  | error e => exact .fail e

/-- A completion is well-founded. -/
theorem wellFounded_completion (o : Outcome) : (completion c o : Course S).WellFounded P :=
  Effect.WellFounded.ofOutcome o

/-- A result is well-founded. -/
theorem wellFounded_result (o : Outcome) : (result c o : Course S).WellFounded P := by
  cases o with
  | ok v => trivial
  | error e => exact Effect.WellFounded.fail e

/-- A switch to a chosen connection is well-founded if what follows it is. -/
theorem wellFounded_connection {next : Connection → Course S}
    (h : ∀ new, (next new).WellFounded P) (r : Except Failure Connection) :
    (connection c next r).WellFounded P := by
  cases r with
  | ok new => exact h new
  | error e => exact Effect.WellFounded.fail e

end Course

section

variable {P : Program S σ}

/-- The choice of a connection is well-founded if what follows it is. -/
theorem Modifier.wellFounded_choose (m : Modifier S) (c : Connection)
    {next : Connection → Course S} (h : ∀ new, (next new).WellFounded P) :
    (m.choose c next).WellFounded P := by
  cases m with
  | user k => exact fun a _ => Course.wellFounded_connection h a
  | uncancelable => exact h _
  | restoring exit old r =>
      cases r with
      | user k => exact fun a _ => Course.wellFounded_connection h a
      | old => exact h _

/-- A well-founded frame goes on with well-founded descriptions. -/
theorem Frame.WellFounded.move {frame : Frame S} (h : frame.WellFounded P) (c : Connection)
    (o : Outcome) : (frame.move c o).WellFounded P := by
  have hbinder : ∀ {f : Binder S} {v : Value}, (∀ q, f.question? v = some q → frame.Asks q) →
      (f.move c v).WellFounded P := by
    intro f v hf
    cases f with
    | user k =>
        intro a ha
        refine Course.wellFounded_node fun e he => h.returns (.bind k v) a e (hf _ rfl) ha ?_
        rw [he]
        rfl
    | pure => exact Effect.WellFounded.pure v
    | shift context => exact Effect.WellFounded.leaf rfl fun _ => id
  have hrecovery : ∀ {f : Recovery S} {e : Failure}, (∀ q, f.question? e = some q →
      frame.Asks q) → (f.move c e).WellFounded P := by
    intro f e hf
    cases f with
    | user k =>
        intro a ha
        refine Course.wellFounded_node fun e' he => h.returns (.handler k e) a e' (hf _ rfl) ha ?_
        rw [he]
        rfl
    | rescue k => exact fun a _ => Course.wellFounded_completion a
    | reify => exact Effect.WellFounded.pure _
  cases frame with
  | bind f => cases o with
    | ok v => exact hbinder fun q hq => ⟨.ok v, hq⟩
    | error e => trivial
  | map k => cases o with
    | ok v => exact fun a _ => Course.wellFounded_completion a
    | error e => trivial
  | handle f => cases o with
    | ok v => trivial
    | error e => exact hrecovery fun q hq => ⟨.error e, hq⟩
  | fold f g => cases o with
    | ok v => exact hbinder fun q hq => ⟨.ok v, hq⟩
    | error e => exact hrecovery fun q hq => ⟨.error e, hq⟩
  | restore old r => cases o <;> exact h.restoring _

/-- The frame of a chain of contexts names no code. -/
theorem Frame.wellFounded_shift (context : Context S.Executor) :
    (Frame.bind (.shift context) : Frame S).WellFounded P := by
  have hasks : ∀ q, ¬(Frame.bind (.shift context) : Frame S).Asks q := by
    rintro q ⟨o, ho⟩
    cases o <;> cases ho
  exact ⟨fun q hq => (hasks q hq).elim, fun q _ _ hq => (hasks q hq).elim⟩

/-- A well-founded node goes on with well-founded descriptions. -/
theorem Effect.WellFounded.move {e : Effect S} (h : e.WellFounded P) (c : Connection) :
    (e.move c).WellFounded P := by
  cases e with
  | pure v => trivial
  | fail e => trivial
  | suspend k =>
      intro a ha
      refine Course.wellFounded_node fun e he => h.returns (q := .thunk k) rfl ha ?_
      rw [he]
      rfl
  | delay k => exact fun a _ => Course.wellFounded_result a
  | async k => exact fun a _ => Course.wellFounded_completion a
  | parked node stack => exact fun a _ => Course.wellFounded_completion a
  | deferred context b => exact fun a _ => Course.wellFounded_completion a
  | bind source frame => exact ⟨h.source rfl, h.frame⟩
  | map source f => exact ⟨h.source rfl, h.frame_map⟩
  | continueOn context source => exact .bind (h.source rfl) (Frame.wellFounded_shift context)
  | switchConnection source modify restore =>
      refine modify.wellFounded_choose c fun new => ?_
      cases restore with
      | none => exact h.source rfl
      | some r => exact .bind (h.source rfl) (h.frame_restore c)

/-- What an evaluation of well-founded descriptions does without a question. -/
theorem Course.WellFounded.goes {m n : Course S} (h : m.WellFounded P) (hm : m.head = .goes n) :
    n.WellFounded P := by
  induction m generalizing n with
  | exit c o => cases hm
  | abort => cases hm
  | ask q next _ => cases hm
  | eval c e => cases hm
  | seq m frame ih =>
      cases hh : m.head with
      | aborted => simp [head, hh] at hm
      | asks q next => simp [head, hh] at hm
      | exited c o =>
          rw [head_seq_exited hh] at hm
          cases hm
          exact h.2.move c o
      | goes m' =>
          rw [head_seq_goes hh] at hm
          cases hm
          exact ⟨ih h.1 hh, h.2⟩

/-- What it does with an answer that the code of its question may come back with. -/
theorem Course.WellFounded.answered {m : Course S} (h : m.WellFounded P) {q : Question S}
    {next : q.Answer → Course S} (hm : m.head = .asks q next) {a : q.Answer}
    (ha : q.Yields P a) : (next a).WellFounded P := by
  induction m generalizing next with
  | exit c o => cases hm
  | abort => cases hm
  | ask q next _ =>
      cases hm
      exact h a ha
  | eval c e =>
      cases hm
      cases a with
      | true => trivial
      | false => exact Effect.WellFounded.move h c
  | seq m frame ih =>
      cases hh : m.head with
      | aborted => simp [head, hh] at hm
      | exited c o => simp [head, hh] at hm
      | goes m' => simp [head, hh] at hm
      | asks q' next' =>
          rw [head_seq_asks hh] at hm
          cases hm
          exact ⟨ih h.1 hh, h.2⟩

/-- An evaluation of well-founded descriptions stays one. -/
theorem Proceeds.wellFounded {m n : Course S} {xs : List (Exchange S)} (h : Proceeds m xs n)
    (hm : m.WellFounded P) (answers : ∀ x ∈ xs, x.question.Yields P x.answer) :
    n.WellFounded P := by
  induction h with
  | refl m => exact hm
  | goes hhead _ ih => exact ih (hm.goes hhead) answers
  | answered hhead _ ih =>
      rw [List.forall_mem_cons] at answers
      exact ih (hm.answered hhead answers.1) answers.2

end

end Trampoline
