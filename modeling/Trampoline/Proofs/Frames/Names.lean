import Trampoline.Proofs.Run.Transparency

/-!
# The closures of an effect

The host's code is held by the nodes and frames of a description, each closure by one of them.  A
run is given closures: those of its effect and of the frames that it starts with, and those in the
effects that its code comes back with.  It uses a closure when it asks the question that starts its
code, or when it gives away what a partial evaluation has left, to a run of its own.  What it has
used, with what it has not, is what it was given: so each closure is used once at most.

Main definitions and results:

- Definition `Closures.Name`, `Effect.names`, `Frame.names`: the closures in a description.
- Definitions `Question.names`, `Question.given`: the closures that a question uses, and those that
  come with the answer.
- Definition `Course.Keeps`: an evaluation uses no other closures than these.
- Theorem `Proceeds.keeps`: what an evaluation uses and what is left is what it was given.
- Theorem `Tracks.conserves`: so it is for a run.
-/

namespace Trampoline

variable {S : Closures} {σ : Type}

/-- A closure in a description, with its use. -/
inductive Closures.Name (S : Closures) where
  | thunk (k : S.Thunk)
  | delay (k : S.Delay)
  | registration (k : S.Registration)
  | body (k : S.Body)
  | bind (k : S.Bind)
  | map (k : S.Map)
  | handler (k : S.Handler)
  | rescue (k : S.Rescue)
  | modify (k : S.Modify)
  | restore (k : S.Restore)

/-! ## The closures of a description -/

/-- The closures of a continuation. -/
def Binder.names : Binder S → List S.Name
  | user k => [.bind k]
  | pure | shift _ => []

/-- The closures of a handler. -/
def Recovery.names : Recovery S → List S.Name
  | user k => [.handler k]
  | rescue k => [.rescue k]
  | reify => []

/-- The closures that restore a connection. -/
def Restorer.names : Restorer S → List S.Name
  | user k => [.restore k]
  | old => []

/-- The closures that choose a connection. -/
def Modifier.names : Modifier S → List S.Name
  | user k => [.modify k]
  | uncancelable => []
  | restoring _ _ r => r.names

/-- The closures of a body. -/
def Body.names : Body S → List S.Name
  | user k => [.body k]
  | succeed _ => []

/-- The closures in a frame. -/
def Frame.names : Frame S → List S.Name
  | bind f => f.names
  | map k => [.map k]
  | handle h => h.names
  | fold f h => f.names ++ h.names
  | restore _ r => r.names

/-- The closures in a description. -/
def Effect.names : Effect S → List S.Name
  | pure _ | fail _ => []
  | suspend k => [.thunk k]
  | delay k => [.delay k]
  | async k => [.registration k]
  | parked node stack => node.names ++ stack.toList.flatMap Frame.names
  | deferred _ b => b.names
  | bind source frame => source.names ++ frame.names
  | map source f => source.names ++ [.map f]
  | continueOn _ source => source.names
  | switchConnection source modify restore =>
    modify.names ++ (source.names ++ (restore.map Restorer.names).getD [])

/-- An outcome as a node uses no closure. -/
@[simp]
theorem Effect.names_ofOutcome (o : Outcome) : (Effect.ofOutcome o : Effect S).names = [] := by
  cases o <;> rfl

namespace Question

/-- The closures that a question uses. -/
def names : Question S → List S.Name
  | canceled _ => []
  | thunk k => [.thunk k]
  | delay k => [.delay k]
  | bind k _ => [.bind k]
  | map k _ => [.map k]
  | handler k _ => [.handler k]
  | rescue k _ => [.rescue k]
  | modify k _ => [.modify k]
  | restore k _ _ _ => [.restore k]
  | async k _ => [.registration k]
  | parked node stack _ => node.names ++ stack.toList.flatMap Frame.names
  | deferred _ b _ => b.names

/-- The closures that come with an answer. -/
def given : (q : Question S) → q.Answer → List S.Name
  | thunk _, .ok e | bind _ _, .ok e | handler _ _, .ok e => e.names
  | _, _ => []

end Question

/-! ## The closures of an evaluation -/

namespace Course

/-- An evaluation uses no other closures than these, and those that come with its answers. -/
def Keeps : Course S → List S.Name → Prop
  | exit _ _, _ | abort, _ => True
  | ask q next, ns => ∃ rest, ns.Perm (q.names ++ rest) ∧ ∀ a, (next a).Keeps (rest ++ q.given a)
  | eval _ e, ns => ∃ rest, ns.Perm (e.names ++ rest)
  | seq m frame, ns => ∃ ms, ns.Perm (ms ++ frame.names) ∧ m.Keeps ms

/-- In which order they are listed makes no difference. -/
theorem Keeps.perm {m : Course S} {ns ns' : List S.Name} (h : m.Keeps ns) (hp : ns.Perm ns') :
    m.Keeps ns' := by
  cases m with
  | exit c o => trivial
  | abort => trivial
  | ask q next =>
      obtain ⟨rest, hns, hnext⟩ := h
      exact ⟨rest, hp.symm.trans hns, hnext⟩
  | eval c e =>
      obtain ⟨rest, hns⟩ := h
      exact ⟨rest, hp.symm.trans hns⟩
  | seq m frame =>
      obtain ⟨ms, hns, hm⟩ := h
      exact ⟨ms, hp.symm.trans hns, hm⟩

/-- What code has come back with keeps the closures of the node. -/
theorem keeps_node (c : Connection) (r : Except Failure (Effect S)) (rest : List S.Name) :
    (node c r).Keeps (rest ++ match r with
      | .ok e => e.names
      | .error _ => []) := by
  cases r with
  | ok e => exact ⟨rest, List.perm_append_comm⟩
  | error e => exact ⟨_, .refl _⟩

/-- A completion uses no closure. -/
theorem keeps_completion (c : Connection) (o : Outcome) (ns : List S.Name) :
    (completion c o : Course S).Keeps ns :=
  ⟨ns, by simp⟩

/-- A result uses no closure. -/
theorem keeps_result (c : Connection) (o : Outcome) (ns : List S.Name) :
    (result c o : Course S).Keeps ns := by
  cases o with
  | ok v => trivial
  | error e => exact ⟨ns, .refl _⟩

/-- A region is gone on with by its source and the frame that ends it. -/
theorem keeps_region (source : Effect S) (restore : Option (Restorer S)) (old new : Connection)
    {ns rest : List S.Name}
    (h : ns.Perm (source.names ++ (restore.map Restorer.names).getD [] ++ rest)) :
    (region source restore old new).Keeps ns := by
  cases restore with
  | none => exact ⟨rest, by simpa using h⟩
  | some r => exact ⟨rest, h⟩

end Course

/-- A binder uses its closure, and what it goes on with comes with the answer. -/
theorem Binder.keeps_move (f : Binder S) (c : Connection) (v : Value) (rest : List S.Name) :
    (f.move c v).Keeps (f.names ++ rest) := by
  cases f with
  | user k =>
      refine ⟨rest, .refl _, fun a => ?_⟩
      cases a <;> exact Course.keeps_node c _ rest
  | pure => exact ⟨rest, .refl _⟩
  | shift context => exact ⟨rest, .refl _⟩

/-- A handler is asked with its closures. -/
theorem Recovery.keeps_move (h : Recovery S) (c : Connection) (e : Failure)
    (rest : List S.Name) : (h.move c e).Keeps (h.names ++ rest) := by
  cases h with
  | user k =>
      refine ⟨rest, .refl _, fun a => ?_⟩
      cases a <;> exact Course.keeps_node c _ rest
  | rescue k => exact ⟨rest, .refl _, fun a => Course.keeps_completion c a _⟩
  | reify => exact ⟨rest, .refl _⟩

/-- A frame that is given an exit uses its closures at most. -/
theorem Frame.keeps_move (frame : Frame S) (c : Connection) (o : Outcome) (rest : List S.Name) :
    (frame.move c o).Keeps (frame.names ++ rest) := by
  cases frame with
  | bind f => cases o with
    | ok v => exact f.keeps_move c v rest
    | error e => trivial
  | map k => cases o with
    | ok v => exact ⟨rest, .refl _, fun a => Course.keeps_completion c a _⟩
    | error e => trivial
  | handle h => cases o with
    | ok v => trivial
    | error e => exact h.keeps_move c e rest
  | fold f h => cases o with
    | ok v =>
        refine (f.keeps_move c v (h.names ++ rest)).perm ?_
        simp [names]
    | error e =>
        refine (h.keeps_move c e (f.names ++ rest)).perm ?_
        simp only [names, ← List.append_assoc]
        exact List.perm_append_comm.append_right rest
  | restore old r => exact ⟨rest, by simp [names, Effect.names, Modifier.names]⟩

/-- The choice of a connection uses its closure, and goes on with the region. -/
theorem Modifier.keeps_choose (m : Modifier S) (c old : Connection) (source : Effect S)
    (restore : Option (Restorer S)) (rest : List S.Name) :
    (m.choose c (.region source restore old)).Keeps
      ((Effect.switchConnection source m restore).names ++ rest) := by
  have hregion : ∀ r : Except Failure Connection,
      (Course.connection c (.region source restore old) r).Keeps
        (source.names ++ ((restore.map Restorer.names).getD [] ++ rest)) := by
    intro r
    cases r with
    | ok new =>
        have hns : (source.names ++ ((restore.map Restorer.names).getD [] ++ rest)).Perm
            (source.names ++ (restore.map Restorer.names).getD [] ++ rest) := by simp
        exact Course.keeps_region source restore old new hns
    | error e => exact ⟨_, .refl _⟩
  have hasks : ∀ {q : Question S} {name : S.Name}, q.names = [name] → ∀ next : q.Answer → Course S,
      (∀ a, (next a).Keeps (source.names ++ ((restore.map Restorer.names).getD [] ++ rest) ++
        q.given a)) →
      (Course.ask q next).Keeps (name :: (source.names ++
        ((restore.map Restorer.names).getD [] ++ rest))) := by
    intro q name hq next hnext
    exact ⟨_, by rw [hq]; exact .refl _, hnext⟩
  have hnames : (Effect.switchConnection source m restore).names ++ rest =
      m.names ++ (source.names ++ ((restore.map Restorer.names).getD [] ++ rest)) := by
    simp [Effect.names]
  rw [hnames]
  cases m with
  | user k =>
      refine hasks (q := .modify k c) rfl _ fun a => ?_
      exact (hregion a).perm (by simp [Question.given])
  | uncancelable => exact hregion (.ok .uncancelable)
  | restoring exit before r =>
      cases r with
      | user k =>
          refine hasks (q := .restore k exit before c) rfl _ fun a => ?_
          exact (hregion a).perm (by simp [Question.given])
      | old => exact hregion (.ok before)

/-- A node uses its closures at most. -/
theorem Effect.keeps_move (e : Effect S) (c : Connection) (rest : List S.Name) :
    (e.move c).Keeps (e.names ++ rest) := by
  cases e with
  | pure v => trivial
  | fail e => trivial
  | suspend k =>
      refine ⟨rest, .refl _, fun a => ?_⟩
      cases a <;> exact Course.keeps_node c _ rest
  | delay k => exact ⟨rest, .refl _, fun a => Course.keeps_result c a _⟩
  | async k => exact ⟨rest, .refl _, fun a => Course.keeps_completion c a _⟩
  | parked node stack => exact ⟨rest, .refl _, fun a => Course.keeps_completion c a _⟩
  | deferred context b => exact ⟨rest, .refl _, fun a => Course.keeps_completion c a _⟩
  | bind source frame =>
      refine ⟨source.names ++ rest, ?_, rest, .refl _⟩
      simp only [names, List.append_assoc]
      exact List.perm_append_comm.append_left _
  | map source f =>
      refine ⟨source.names ++ rest, ?_, rest, .refl _⟩
      simp only [names, List.append_assoc]
      exact List.perm_append_comm.append_left _
  | continueOn context source => exact ⟨rest, by simp [names, Frame.names, Binder.names]⟩
  | switchConnection source modify restore => exact modify.keeps_choose c c source restore rest

namespace Course

/-- Without a question, an evaluation keeps what it has. -/
theorem Keeps.goes {m n : Course S} {ns : List S.Name} (h : m.Keeps ns) (hm : m.head = .goes n) :
    n.Keeps ns := by
  induction m generalizing n ns with
  | seq m frame ih =>
      obtain ⟨ms, hns, hsource⟩ := h
      simp only [head] at hm
      cases hh : m.head with
      | exited c o =>
          simp only [hh, Head.goes.injEq] at hm
          subst hm
          exact (frame.keeps_move c o ms).perm (List.perm_append_comm.trans hns.symm)
      | goes m' =>
          simp only [hh, Head.goes.injEq] at hm
          subst hm
          exact ⟨ms, hns, ih hsource hh⟩
      | aborted => simp [hh] at hm
      | asks q next => simp [hh] at hm
  | _ => cases hm

/-- An evaluation that asks uses the closures of the question, and goes on with those that come
with the answer. -/
theorem Keeps.asks {m : Course S} {ns : List S.Name} (h : m.Keeps ns) {q : Question S}
    {next : q.Answer → Course S} (hm : m.head = .asks q next) :
    ∃ rest, ns.Perm (q.names ++ rest) ∧ ∀ a, (next a).Keeps (rest ++ q.given a) := by
  induction m generalizing q ns with
  | ask q' next' _ =>
      cases hm
      exact h
  | eval c e =>
      cases hm
      obtain ⟨rest, hns⟩ := h
      refine ⟨ns, .refl _, fun a => ?_⟩
      cases a with
      | true => trivial
      | false => exact (e.keeps_move c rest).perm (hns.symm.trans (by simp [Question.given]))
  | seq m frame ih =>
      obtain ⟨ms, hns, hsource⟩ := h
      simp only [head] at hm
      cases hh : m.head with
      | asks q' next' =>
          simp only [hh] at hm
          cases hm
          obtain ⟨rest, hms, hnext⟩ := ih hsource hh
          refine ⟨rest ++ frame.names, ?_, fun a => ⟨rest ++ q.given a, ?_, hnext a⟩⟩
          · exact hns.trans ((hms.append_right _).trans (by simp))
          · simp only [List.append_assoc]
            exact List.perm_append_comm.append_left rest
      | exited c o => simp [hh] at hm
      | aborted => simp [hh] at hm
      | goes m' => simp [hh] at hm
  | _ => cases hm

/-- The frames that wait for an evaluation keep their closures. -/
theorem keeps_within {m : Course S} {ns : List S.Name} (h : m.Keeps ns)
    (frames : List (Frame S)) : (m.within frames).Keeps (ns ++ frames.flatMap Frame.names) := by
  induction frames generalizing m ns with
  | nil => simpa using h
  | cons frame frames ih =>
      have hseq : (seq m frame).Keeps (ns ++ frame.names) := ⟨ns, .refl _, h⟩
      simpa using ih hseq

end Course

/-- What an evaluation uses, and what is left, is what it was given. -/
theorem Proceeds.keeps {m n : Course S} {xs : List (Exchange S)} {ns : List S.Name}
    (h : Proceeds m xs n) (hm : m.Keeps ns) :
    ∃ rest, n.Keeps rest ∧ (ns ++ xs.flatMap fun x => x.question.given x.answer).Perm
      ((xs.flatMap fun x => x.question.names) ++ rest) := by
  induction h generalizing ns with
  | refl m => exact ⟨ns, hm, by simp⟩
  | goes hhead _ ih => exact ih (hm.goes hhead)
  | @answered m n q next a xs hhead _ ih =>
      obtain ⟨ms, hns, hnext⟩ := hm.asks hhead
      obtain ⟨rest, hrest, hperm⟩ := ih (hnext a)
      refine ⟨rest, hrest, ?_⟩
      simp only [List.flatMap_cons, List.append_assoc] at hperm ⊢
      exact (hns.append_right _).trans (by simpa using hperm.append_left q.names)

/-! ## The closures of a run -/

/-- The closures that a run starts with. -/
def Origin.names (r : Origin S) : List S.Name :=
  r.effect.names ++ r.stack.toList.flatMap Frame.names

namespace Story

/-- The closures that have come to a run with answers. -/
def given (st : Story S) : List S.Name :=
  st.exchanges.flatMap fun x => x.question.given x.answer

/-- The closures that a run has used. -/
def used (st : Story S) : List S.Name :=
  (st.exchanges.flatMap fun x => x.question.names) ++ st.pending.toList.flatMap Question.names

end Story

/-- A run uses each closure that it was given once at most. -/
theorem Tracks.conserves {P : Program S σ} {r : Origin S} {s : State S σ} {st : Story S}
    (h : Tracks P r s st) : ∃ unused, (r.names ++ st.given).Perm (st.used ++ unused) := by
  have hkeeps : r.course.Keeps r.names :=
    Course.keeps_within (m := .eval r.connection r.effect) ⟨[], by simp⟩ r.stack.toList
  obtain ⟨n, hn, rests⟩ := h.rests
  obtain ⟨rest, hrest, hperm⟩ := hn.keeps hkeeps
  unfold Story.used Story.given
  cases hq : st.pending with
  | none => exact ⟨rest, by simpa using hperm⟩
  | some q =>
      obtain ⟨next, hnext⟩ := rests.pending q hq
      obtain ⟨unused, hunused, -⟩ := hrest.asks hnext
      exact ⟨unused, hperm.trans (by simpa using hunused.append_left _)⟩

end Trampoline
