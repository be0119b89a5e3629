import Trampoline.Proofs.Laws.Alike
import Trampoline.Proofs.Machine.Quiet
import Trampoline.Proofs.Run.Frames

/-!
# The two sides of a law of sequential composition

A law of sequential composition says that two effects mean the same.  Run in the same place,
they bring the machine into states that differ in little: the run on the left has certain
frames pending where the run on the right has others, in its loop, behind partial evaluations,
or in its bridge.  Everything else is the same, up to what the host has noted of the numbers of
frames.

Main definitions and results:

- Definition `Law`: the laws, with the effects that they equate.
- Definitions `Law.Swaps`, `Law.Stacks`: the frames on both sides.
- Theorem `Law.Swaps.awaiting`: which frames take an exit on both sides.
- Definitions `Activation.SameUpTo`, `World.SameUpTo`, `State.SameUpTo`: the states on both sides.
-/

namespace Trampoline

variable {S : Closures} {σ : Type}

/-! ## The laws -/

/-- The laws of sequential composition, with the closures that they speak of. -/
inductive Law (P : Program S σ) where
  /-- Closures compose: `fg` goes on with `g` after the effect that `f` makes. -/
  | assoc (f g fg : S.Bind)
      (h : ∀ v, P.bind fg v = (P.bind f v).bind fun e => .done (e.flatMap g))
  /-- A value goes to the closure that follows it: `t` does what `f` does with it. -/
  | leftUnit (x : Value) (f : S.Bind) (t : S.Thunk) (h : P.thunk t = P.bind f x)
  /-- A value is mapped: `b` makes a node of what `f` makes of it. -/
  | mapped (f : S.Map) (b : S.Bind)
      (h : ∀ v, P.bind b v = (P.map f v).bind fun w => .done (.pure w))
  /-- A value is the result: `k` makes a node of it. -/
  | rightUnit (k : S.Bind) (h : ∀ v, P.bind k v = .done (.pure v))

namespace Law

variable {P : Program S σ}

/-- The left side of a law about an effect. -/
def left (m : Effect S) : Law P → Effect S
  | assoc f g _ _ => (m.flatMap f).flatMap g
  | leftUnit x f _ _ => (Effect.pure x).flatMap f
  | mapped f _ _ => .map m f
  | rightUnit k _ => m.flatMap k

/-- The right side. -/
def right (m : Effect S) : Law P → Effect S
  | assoc _ _ fg _ => m.flatMap fg
  | leftUnit _ _ t _ => .suspend t
  | mapped _ b _ => m.flatMap b
  | rightUnit _ _ => m

/-- The frames that wait for the effect on the left. -/
def leftFrames : Law P → List (Frame S)
  | assoc f g _ _ => [.bind (.user f), .bind (.user g)]
  | leftUnit _ _ _ _ => []
  | mapped f _ _ => [.map f]
  | rightUnit k _ => [.bind (.user k)]

/-- The frames that wait for it on the right. -/
def rightFrames : Law P → List (Frame S)
  | assoc _ _ fg _ => [.bind (.user fg)]
  | leftUnit _ _ _ _ => []
  | mapped _ b _ => [.bind (.user b)]
  | rightUnit _ _ => []

/-- The closure for which a frame waits on the left while the right side has none yet. -/
def late? : Law P → Option S.Bind
  | assoc _ g _ _ => some g
  | _ => none

/-- The frames of the law stand somewhere among the pending frames, which are the same apart
from them. -/
inductive Swaps (law : Law P) : List (Frame S) → List (Frame S) → Prop
  | here (frames : List (Frame S)) :
      Swaps law (law.leftFrames ++ frames) (law.rightFrames ++ frames)
  | push (frame : Frame S) {l l' : List (Frame S)} (h : Swaps law l l') :
      Swaps law (frame :: l) (frame :: l')

/-- Two stacks have the same frames, or, if that is allowed, the frames of a law are swapped. -/
def Stacks (law : Law P) (allowed : Prop) (stack stack' : CallStack (Frame S)) : Prop :=
  stack.toList = stack'.toList ∨ allowed ∧ law.Swaps stack.toList stack'.toList

/-- Each stack may be on both sides of a law. -/
theorem Stacks.refl (law : Law P) (allowed : Prop) (stack : CallStack (Frame S)) :
    law.Stacks allowed stack stack :=
  .inl rfl

/-- The sides of a law may differ more. -/
theorem Stacks.mono {law : Law P} {allowed allowed' : Prop} {stack stack' : CallStack (Frame S)}
    (h : law.Stacks allowed stack stack') (ha : allowed → allowed') :
    law.Stacks allowed' stack stack' :=
  h.imp_right fun hs => ⟨ha hs.1, hs.2⟩

/-- The same frame may be pushed on both sides. -/
theorem Stacks.push {law : Law P} {allowed : Prop} {stack stack' : CallStack (Frame S)}
    (h : law.Stacks allowed stack stack') (frame : Frame S) :
    law.Stacks allowed (stack.push frame) (stack'.push frame) := by
  rcases h with hsame | ⟨ha, hs⟩
  · exact .inl (by simp [hsame])
  · exact .inr ⟨ha, by simpa using hs.push frame⟩

end Law

/-! ## The frames that take an exit -/

/-- The frames from the first one that takes an exit. -/
def awaiting (o : Outcome) (frames : List (Frame S)) : List (Frame S) :=
  frames.dropWhile fun frame => !frame.takes o

/-- A frame that takes an exit is awaited on top. -/
theorem awaiting_cons_of_takes {o : Outcome} {frame : Frame S} (h : frame.takes o = true)
    (frames : List (Frame S)) : awaiting o (frame :: frames) = frame :: frames := by
  simp [awaiting, h]

/-- A frame that takes no such exit is not awaited. -/
theorem awaiting_cons_of_not_takes {o : Outcome} {frame : Frame S} (h : frame.takes o = false)
    (frames : List (Frame S)) : awaiting o (frame :: frames) = awaiting o frames := by
  simp [awaiting, h]

/-- The first of the frames that await an exit awaits it. -/
theorem awaiting_awaiting (o : Outcome) (frames : List (Frame S)) :
    awaiting o (awaiting o frames) = awaiting o frames := by
  induction frames with
  | nil => rfl
  | cons frame frames ih =>
      cases htakes : frame.takes o with
      | true => rw [awaiting_cons_of_takes htakes, awaiting_cons_of_takes htakes]
      | false => rw [awaiting_cons_of_not_takes htakes, ih]

/-- A loop finds the first frame that takes an exit. -/
theorem CallStack.takeFor_cases (stack : CallStack (Frame S)) (o : Outcome) :
    (awaiting o stack.toList = [] ∧ ∃ below, stack.takeFor o = (none, below)) ∨
      ∃ frame below, awaiting o stack.toList = frame :: below.toList ∧
        stack.takeFor o = (some frame, below) := by
  have hpass : ∀ dropped frames : List (Frame S), (∀ f ∈ dropped, f.takes o = false) →
      awaiting o (dropped ++ frames) = awaiting o frames := by
    intro dropped frames h
    induction dropped with
    | nil => rfl
    | cons f dropped ih =>
        rw [List.cons_append, awaiting_cons_of_not_takes (h f (by simp)),
          ih fun f' hf' => h f' (by simp [hf'])]
  cases htake : stack.takeFor o with
  | mk frame below =>
      have hfirst := htake
      rw [takeFor_eq_takeFirst] at hfirst
      cases frame with
      | none =>
          refine .inl ⟨?_, below, rfl⟩
          have hnone := hpass stack.toList [] (takeFirst_none hfirst)
          rwa [List.append_nil] at hnone
      | some frame =>
          obtain ⟨dropped, hstack, hdropped, htakes⟩ := takeFirst_some hfirst
          refine .inr ⟨frame, below, ?_, rfl⟩
          rw [hstack, hpass _ _ hdropped, awaiting_cons_of_takes htakes]

/-- A loop takes the first of the frames that await an exit and keeps the others. -/
theorem CallStack.takeFor_of_awaiting {stack : CallStack (Frame S)} {o : Outcome} {frame : Frame S}
    {frames : List (Frame S)} (h : awaiting o stack.toList = frame :: frames) :
    ∃ below, stack.takeFor o = (some frame, below) ∧ below.toList = frames := by
  rcases stack.takeFor_cases o with ⟨hnil, -⟩ | ⟨frame', below, hcons, htake⟩
  · rw [hnil] at h
    cases h
  · rw [hcons, List.cons.injEq] at h
    obtain ⟨rfl, hbelow⟩ := h
    exact ⟨below, htake, hbelow⟩

/-- What two loops find for an exit. -/
inductive Finds (A : CallStack (Frame S) → CallStack (Frame S) → Prop) :
    Option (Frame S) × CallStack (Frame S) → Option (Frame S) × CallStack (Frame S) → Prop
  /-- Neither finds a frame. -/
  | none (below below' : CallStack (Frame S)) : Finds A (none, below) (none, below')
  /-- Both find the same frame. -/
  | same (frame : Frame S) {below below' : CallStack (Frame S)} (h : A below below') :
      Finds A (some frame, below) (some frame, below')

/-- The stacks below may be related more loosely. -/
theorem Finds.mono {A A' : CallStack (Frame S) → CallStack (Frame S) → Prop}
    (h : ∀ stack stack', A stack stack' → A' stack stack')
    {x x' : Option (Frame S) × CallStack (Frame S)} (hx : Finds A x x') : Finds A' x x' := by
  cases hx with
  | none below below' => exact .none below below'
  | same frame hb => exact .same frame (h _ _ hb)

/-- Where the same frames await an exit, both loops find the same. -/
theorem finds_of_awaiting_eq {o : Outcome} {stack stack' : CallStack (Frame S)}
    (h : awaiting o stack.toList = awaiting o stack'.toList) :
    Finds (fun below below' => below.toList = below'.toList) (stack.takeFor o)
      (stack'.takeFor o) := by
  rcases stack.takeFor_cases o with ⟨hnil, below, htake⟩ | ⟨frame, below, hcons, htake⟩
  · rcases stack'.takeFor_cases o with ⟨-, below', htake'⟩ | ⟨frame', below', hcons', -⟩
    · rw [htake, htake']
      exact .none below below'
    · rw [hnil, hcons'] at h
      cases h
  · rcases stack'.takeFor_cases o with ⟨hnil', -⟩ | ⟨frame', below', hcons', htake'⟩
    · rw [hcons, hnil'] at h
      cases h
    · rw [hcons, hcons', List.cons.injEq] at h
      obtain ⟨rfl, hbelow⟩ := h
      rw [htake, htake']
      exact .same frame hbelow

namespace Law

variable {P : Program S σ} {law : Law P}

/-- The frames of a law take values only. -/
theorem awaiting_error (law : Law P) (e : Failure) (frames : List (Frame S)) :
    awaiting (.error e) (law.leftFrames ++ frames) =
      awaiting (.error e) (law.rightFrames ++ frames) := by
  cases law <;> rfl

/-- The frames that take an exit where the frames of a law are swapped: they are the same, or
the first one is and the others are swapped, or a value has come to the frames of the law. -/
theorem Swaps.awaiting {l l' : List (Frame S)} (h : law.Swaps l l') (o : Outcome) :
    Trampoline.awaiting o l = Trampoline.awaiting o l' ∨
      (∃ frame k k', Trampoline.awaiting o l = frame :: k ∧
        Trampoline.awaiting o l' = frame :: k' ∧ law.Swaps k k') ∨
      ∃ v frames, o = .ok v ∧ Trampoline.awaiting o l = law.leftFrames ++ frames ∧
        Trampoline.awaiting o l' = Trampoline.awaiting o (law.rightFrames ++ frames) := by
  induction h with
  | here frames =>
      cases o with
      | error e => exact .inl (law.awaiting_error e frames)
      | ok v =>
          cases law with
          | leftUnit x f t h => exact .inl rfl
          | assoc f g fg h => exact .inr (.inr ⟨v, frames, rfl, rfl, rfl⟩)
          | mapped f b h => exact .inr (.inr ⟨v, frames, rfl, rfl, rfl⟩)
          | rightUnit k h => exact .inr (.inr ⟨v, frames, rfl, rfl, rfl⟩)
  | @push frame l l' h ih =>
      cases htakes : frame.takes o with
      | true =>
          exact .inr (.inl ⟨frame, l, l', awaiting_cons_of_takes htakes l,
            awaiting_cons_of_takes htakes l', h⟩)
      | false =>
          rw [awaiting_cons_of_not_takes htakes, awaiting_cons_of_not_takes htakes]
          exact ih

/-- For an exit, both loops find the same, unless a value has come to the frames of the law. -/
theorem Stacks.finds {allowed : Prop} {stack stack' : CallStack (Frame S)}
    (h : law.Stacks allowed stack stack') (o : Outcome) :
    Finds (law.Stacks allowed) (stack.takeFor o) (stack'.takeFor o) ∨
      allowed ∧ ∃ v frames, o = .ok v ∧
        Trampoline.awaiting o stack.toList = law.leftFrames ++ frames ∧
        Trampoline.awaiting o stack'.toList =
          Trampoline.awaiting o (law.rightFrames ++ frames) := by
  have hsame : ∀ {o : Outcome}, Trampoline.awaiting o stack.toList =
      Trampoline.awaiting o stack'.toList →
      Finds (law.Stacks allowed) (stack.takeFor o) (stack'.takeFor o) := fun heq =>
    (finds_of_awaiting_eq heq).mono fun _ _ hb => .inl hb
  rcases h with hlist | ⟨ha, hs⟩
  · exact .inl (hsame (congrArg (Trampoline.awaiting o) hlist))
  · rcases hs.awaiting o with heq | ⟨frame, k, k', hk, hk', hswaps⟩ | hvalue
    · exact .inl (hsame heq)
    · obtain ⟨below, htake, rfl⟩ := CallStack.takeFor_of_awaiting hk
      obtain ⟨below', htake', rfl⟩ := CallStack.takeFor_of_awaiting hk'
      rw [htake, htake']
      exact .inl (.same frame (.inr ⟨ha, hswaps⟩))
    · exact .inr ⟨ha, hvalue⟩

/-- A failure goes past the frames of a law. -/
theorem Stacks.finds_error {allowed : Prop} {stack stack' : CallStack (Frame S)}
    (h : law.Stacks allowed stack stack') (e : Failure) :
    Finds (law.Stacks allowed) (stack.takeFor (.error e)) (stack'.takeFor (.error e)) := by
  rcases h.finds (.error e) with hfinds | ⟨-, v, frames, hv, -⟩
  · exact hfinds
  · cases hv

end Law

/-! ## SameUpTo -/

/-- Two loops of one run, on either side of a law.  Only some loops may differ: those whose
outlet is one of the run that the law is about. -/
structure Loop.SameUpTo {P : Program S σ} (law : Law P) (mine : Outlet S → Prop)
    (run run' : Loop S) : Prop where
  connection : run.connection = run'.connection
  outlet : run.outlet = run'.outlet
  stack : law.Stacks (mine run.outlet) run.stack run'.stack

/-- Two loops of that run, where the left one has a frame for a closure that the right one will
have only later. -/
structure Loop.Late {P : Program S σ} (law : Law P) (mine : Outlet S → Prop) (g : S.Bind)
    (run run' : Loop S) : Prop where
  late : law.late? = some g
  connection : run.connection = run'.connection
  outlet : run.outlet = run'.outlet
  mine : mine run.outlet
  stack : run.stack.toList = .bind (.user g) :: run'.stack.toList

section

variable {P : Program S σ} (law : Law P) (E : σ → σ → Prop) (mine : Outlet S → Prop)

mutual

/-- Two drivers, on either side of a law. -/
inductive Driver.SameUpTo : Driver S σ → Driver S σ → Prop
  | loop {run run' : Loop S} (h : run.SameUpTo law mine run') :
      Driver.SameUpTo (.loop run) (.loop run')
  | partially (stack : CallStack (Frame S))
      {resume resume' : Except Payload (Effect S) → Activation S σ}
      (h : ∀ r, Activation.SameUpTo (resume r) (resume' r)) :
      Driver.SameUpTo (.partially stack resume) (.partially stack resume')

/-- What waits for the results of code, on either side of a law. -/
inductive Holder.SameUpTo : {α : Type} → Holder S σ α → Holder S σ α → Prop
  | node {d d' : Driver S σ} (h : Driver.SameUpTo d d') : Holder.SameUpTo (.node d) (.node d')
  | outcome {d d' : Driver S σ} (h : Driver.SameUpTo d d') :
      Holder.SameUpTo (.outcome d) (.outcome d')
  | switch {run run' : Loop S} (h : run.SameUpTo law mine run') (source : Effect S)
      (restore : Option (Restorer S)) :
      Holder.SameUpTo (.switch run source restore) (.switch run' source restore)
  | owing (cb : Callback) : Holder.SameUpTo (.owing cb) (.owing cb)
  | code : Holder.SameUpTo .code .code

/-- Two activations, on either side of a law. -/
inductive Activation.SameUpTo : Activation S σ → Activation S σ → Prop
  | eval {d d' : Driver S σ} (h : Driver.SameUpTo d d') (e : Effect S) :
      Activation.SameUpTo (.eval d e) (.eval d' e)
  | value {d d' : Driver S σ} (h : Driver.SameUpTo d d') (v : Value) :
      Activation.SameUpTo (.value d v) (.value d' v)
  | holds {α : Type} {h h' : Holder S σ α} {code code' : Code S σ α} (holder : Holder.SameUpTo h h')
      (alike : code.Alike E Eq code') : Activation.SameUpTo (h.wrap code) (h'.wrap code')
  /-- The code on the left makes a node, the code on the right one with a closure to follow. -/
  | wraps {run run' : Loop S} {g : S.Bind} {code code' : Code S σ (Effect S)}
      (late : run.Late law mine g run')
      (alike : code.Alike E (fun e e' => e' = e.flatMap g) code') :
      Activation.SameUpTo (.node (.loop run) code) (.node (.loop run') code')
  /-- That code has panicked. -/
  | fails {run run' : Loop S} {g : S.Bind} (late : run.Late law mine g run') (e : Failure) :
      Activation.SameUpTo (.eval (.loop run) (.fail e)) (.eval (.loop run') (.fail e))
  | tokens (pending : List S.Token) : Activation.SameUpTo (.tokens pending) (.tokens pending)
  | thread (outer : String) : Activation.SameUpTo (.thread outer) (.thread outer)

end

end

/-- More loops may differ. -/
theorem Loop.SameUpTo.mono {P : Program S σ} {law : Law P} {mine mine' : Outlet S → Prop}
    {run run' : Loop S} (h : run.SameUpTo law mine run') (hm : ∀ o, mine o → mine' o) :
    run.SameUpTo law mine' run' :=
  ⟨h.connection, h.outlet, h.stack.mono (hm _)⟩

/-- More loops may be late. -/
theorem Loop.Late.mono {P : Program S σ} {law : Law P} {mine mine' : Outlet S → Prop} {g : S.Bind}
    {run run' : Loop S} (h : run.Late law mine g run') (hm : ∀ o, mine o → mine' o) :
    run.Late law mine' g run' :=
  ⟨h.late, h.connection, h.outlet, hm _ h.mine, h.stack⟩

section

variable {P : Program S σ} {law : Law P} {E : σ → σ → Prop} {mine mine' : Outlet S → Prop}

mutual

/-- More loops may differ. -/
theorem Driver.SameUpTo.mono (hm : ∀ o, mine o → mine' o) {d d' : Driver S σ} :
    Driver.SameUpTo law E mine d d' → Driver.SameUpTo law E mine' d d'
  | .loop h => .loop (h.mono hm)
  | .partially stack h => .partially stack fun r => Activation.SameUpTo.mono hm (h r)

/-- More loops may differ behind a holder. -/
theorem Holder.SameUpTo.mono (hm : ∀ o, mine o → mine' o) {α : Type} {h h' : Holder S σ α} :
    Holder.SameUpTo law E mine h h' → Holder.SameUpTo law E mine' h h'
  | .node h => .node (Driver.SameUpTo.mono hm h)
  | .outcome h => .outcome (Driver.SameUpTo.mono hm h)
  | .switch h source restore => .switch (h.mono hm) source restore
  | .owing cb => .owing cb
  | .code => .code

/-- More loops may differ among activations. -/
theorem Activation.SameUpTo.mono (hm : ∀ o, mine o → mine' o) {a a' : Activation S σ} :
    Activation.SameUpTo law E mine a a' → Activation.SameUpTo law E mine' a a'
  | .eval h e => .eval (Driver.SameUpTo.mono hm h) e
  | .value h v => .value (Driver.SameUpTo.mono hm h) v
  | .holds holder alike => .holds (Holder.SameUpTo.mono hm holder) alike
  | .wraps late alike => .wraps (late.mono hm) alike
  | .fails late e => .fails (late.mono hm) e
  | .tokens pending => .tokens pending
  | .thread outer => .thread outer

end

end

/-! ## SameUpTo of states -/

/-- Where the loops of a run may be: the first one in some places of the control stack, the
later ones anywhere, as the loops of some bridges. -/
structure Seat where
  first : Nat → Prop
  bridge : Nat → Prop

/-- A loop with this outlet and so many activations below may be of the run. -/
def Seat.mine (seat : Seat) (below : Nat) : Outlet S → Prop
  | .terminal _ => seat.first below
  | .bridge i => seat.bridge i

section

variable {P : Program S σ} (law : Law P) (E : σ → σ → Prop) (seat : Seat)

/-- Two control stacks, on either side of a law. -/
inductive Activations.SameUpTo : List (Activation S σ) → List (Activation S σ) → Prop
  | nil : Activations.SameUpTo [] []
  | cons {a a' : Activation S σ} {rest rest' : List (Activation S σ)}
      (top : Activation.SameUpTo law E (seat.mine rest.length) a a')
      (waiting : Activations.SameUpTo rest rest') : Activations.SameUpTo (a :: rest) (a' :: rest')

/-- Two bridges, on either side of a law. -/
structure Bridge.SameUpTo (allowed : Prop) (b b' : Bridge S) : Prop where
  connection : b.connection = b'.connection
  terminal : b.terminal = b'.terminal
  stack : law.Stacks allowed b.stack b'.stack
  armed : b.armed = b'.armed
  epochs : b.epochs = b'.epochs

/-- Two worlds, on either side of a law. -/
structure World.SameUpTo (w w' : World S σ) : Prop where
  host : E w.host w'.host
  connections : w.connections = w'.connections
  bridges : ∀ i, Option.Rel (Bridge.SameUpTo law (seat.bridge i)) w.bridges[i]? w'.bridges[i]?
  classifier : w.classifier = w'.classifier
  thread : w.thread = w'.thread

/-- Two states of the machine, on either side of a law. -/
inductive State.SameUpTo : State S σ → State S σ → Prop
  | running {w w' : World S σ} {top top' : Activation S σ} {rest rest' : List (Activation S σ)}
      (world : World.SameUpTo law E seat w w')
      (work : Activation.SameUpTo law E (seat.mine rest.length) top top')
      (waiting : Activations.SameUpTo law E seat rest rest') :
      State.SameUpTo (.running w top rest) (.running w' top' rest')
  | returned {w w' : World S σ} (world : World.SameUpTo law E seat w w') :
      State.SameUpTo (.returned w) (.returned w')
  | unwound {w w' : World S σ} (world : World.SameUpTo law E seat w w') (payload : Payload) :
      State.SameUpTo (.unwound w payload) (.unwound w' payload)

end

section

variable {P : Program S σ} {law : Law P} {E : σ → σ → Prop} {seat seat' : Seat}

/-- Both stacks have as many activations. -/
theorem Activations.SameUpTo.length_eq {rest rest' : List (Activation S σ)}
    (h : Activations.SameUpTo law E seat rest rest') : rest.length = rest'.length := by
  induction h with
  | nil => rfl
  | cons top waiting ih => rw [List.length_cons, List.length_cons, ih]

/-- Only the places that are taken matter. -/
theorem Activations.SameUpTo.mono {rest rest' : List (Activation S σ)}
    (h : Activations.SameUpTo law E seat rest rest')
    (hfirst : ∀ n < rest.length, seat.first n → seat'.first n)
    (hbridge : ∀ i, seat.bridge i → seat'.bridge i) :
    Activations.SameUpTo law E seat' rest rest' := by
  induction h with
  | nil => exact .nil
  | @cons a a' rest rest' top waiting ih =>
      refine .cons (top.mono fun o ho => ?_)
        (ih fun n hn => hfirst n (Nat.lt_succ_of_lt hn))
      cases o with
      | terminal t => exact hfirst rest.length (Nat.lt_succ_self _) ho
      | bridge i => exact hbridge i ho

/-- More bridges may differ. -/
theorem Bridge.SameUpTo.mono {allowed allowed' : Prop} {b b' : Bridge S}
    (h : b.SameUpTo law allowed b') (ha : allowed → allowed') : b.SameUpTo law allowed' b' :=
  ⟨h.connection, h.terminal, h.stack.mono ha, h.armed, h.epochs⟩

/-- More bridges of two worlds may differ. -/
theorem World.SameUpTo.mono {w w' : World S σ} (h : World.SameUpTo law E seat w w')
    (hbridge : ∀ i, seat.bridge i → seat'.bridge i) : World.SameUpTo law E seat' w w' where
  host := h.host
  connections := h.connections
  bridges i := by
    have hrel := h.bridges i
    generalize w.bridges[i]? = b, w'.bridges[i]? = b' at hrel ⊢
    cases hrel with
    | none => exact .none
    | some hb => exact .some (hb.mono (hbridge i))
  classifier := h.classifier
  thread := h.thread

/-- The worlds of two such states are the same, up to the law. -/
theorem State.SameUpTo.world {s s' : State S σ} (h : State.SameUpTo law E seat s s') :
    World.SameUpTo law E seat s.world s'.world := by
  cases h with
  | running world work waiting => exact world
  | returned world => exact world
  | unwound world payload => exact world

end

end Trampoline
