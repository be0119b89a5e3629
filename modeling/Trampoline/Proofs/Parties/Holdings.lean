import Trampoline.Proofs.Machine.Containment
import Trampoline.Proofs.Run.Story

/-!
# Parties

Runs that have nothing to do with each other are worked on by one machine: their loops and their
code stand on one control stack, their bridges and connections are in the same tables, and the
closures of one may hold callbacks of another.  What there is belongs to parties.  A party may be a
run, with the runs that its closures start, or the code of the host that starts runs and completes
their callbacks.

A party keeps to itself if its code uses no more than what belongs to it: its part of the state of
the host, and its connections.  What happens to one party alone is a list of deeds: the steps that
are taken for it, the runs that others start for it, and the completions of its callbacks by others.

Main definitions:

- Definition `Holdings`: what belongs to whom.
- Definition `Activation.Within`: a step that uses no more than what belongs to one party.
- Definitions `Deed`, `State.undergo`, `Story.undergo`: one thing that happens to a party, and what
  it does to a machine that works for this party alone.
- Definitions `Holdings.Goes`, `Holdings.SharedRun`: the machine with the parties for which it
  works, and what happens to each.
- Definition `Holdings.Follows`: a run that is followed through that.
-/

namespace Trampoline

variable {S : Closures} {σ ι : Type}

/-- To which of some parties the parts of the state of the host, the bridges and the connections
belong.  Bridges and connections are known by the numbers that they get. -/
structure Holdings (ι σ : Type) where
  /-- What a party can have in the state of the host. -/
  Part : ι → Type
  part : (k : ι) → σ → Part k
  bridge : Nat → ι
  connection : Nat → ι

/-- A party may use a connection. -/
def Holdings.Holds (H : Holdings ι σ) (k : ι) : Connection → Prop
  | .uncancelable => True
  | .cancelable i => H.connection i = k

/-- What the engine reports is kept in no part of the state of the host. -/
def Holdings.Silent (H : Holdings ι σ) (P : Program S σ) : Prop :=
  ∀ k event x, H.part k (P.observe event x) = H.part k x

/-! ## What a party uses -/

/-- The next request of a piece of code is about what belongs to a party.  It may complete any
callback. -/
def Code.Within {α : Type} (H : Holdings ι σ) (k : ι) (x : σ) : Code S σ α → Prop
  | .query .host next => ∀ y, H.part k y = H.part k x → next y = next x
  | .query (.modifyHost f) _ =>
    (∀ y, H.part k y = H.part k x → H.part k (f y) = H.part k (f x)) ∧
      ∀ j, j ≠ k → H.part j (f x) = H.part j x
  | .query (.isCanceled c) _ | .query (.pop c) _ | .command (.cancel c) _
  | .command (.push c _) _ => H.Holds k c
  | .query (.connectionOf cb) _ => H.bridge cb.bridge = k
  | .query (.setClassifier _) _ => False
  | _ => True

/-- A step of an activation is about what belongs to a party. -/
def Activation.Within (H : Holdings ι σ) (k : ι) (x : σ) : Activation S σ → Prop
  | .eval (.loop run) _ => H.Holds k run.connection
  | .node _ c => c.Within H k x
  | .outcome _ c => c.Within H k x
  | .switch _ _ _ c => c.Within H k x
  | .owing _ c => c.Within H k x
  | .code c => c.Within H k x
  | _ => True

/-- Code is about what belongs to a party wherever it runs. -/
@[simp]
theorem Activation.within_wrap {α : Type} {H : Holdings ι σ} {k : ι} {x : σ} (h : Holder S σ α)
    (code : Code S σ α) : (h.wrap code).Within H k x ↔ code.Within H k x := by
  cases h <;> rfl

/-- The party for which an activation works that a step for a party has put on the control stack.
A loop of a run that has a bridge works for the party that has the bridge. -/
def Holdings.mark (H : Holdings ι σ) (k : ι) (a : Activation S σ) : ι :=
  match a.loop? with
  | some run =>
    match run.outlet with
    | .bridge i => H.bridge i
    | .terminal _ => k
  | none => k

/-! ## What happens to a party -/

/-- One thing that happens to a party. -/
inductive Deed (S : Closures) (σ : Type) where
  /-- A step is taken for it. -/
  | step (thread : String)
  /-- The next command of its code is carried out for another party. -/
  | skip
  /-- Another party completes one of its callbacks. -/
  | complete (thread : String) (cb : Callback) (o : Outcome)
  /-- Another party starts a run for it. -/
  | run (thread : String) (e : Effect S) (c : Connection) (terminal : Terminal S)
  /-- The host brings in code for it. -/
  | call (thread : String) (code : Code S σ Unit)
  /-- So many bridges have been made so far. -/
  | bridges (n : Nat)
  /-- So many connections have been made so far. -/
  | connections (n : Nat)

/-- A deed tells no more than how many bridges or connections there are. -/
def Deed.isNumber : Deed S σ → Bool
  | .bridges _ | .connections _ => true
  | _ => false

/-- A piece of code behind its next command. -/
def Code.skip {α : Type} : Code S σ α → Code S σ α
  | .command _ next => next ()
  | code => code

/-- An activation behind the next command of its code. -/
def Activation.skip : Activation S σ → Activation S σ
  | .node d c => .node d c.skip
  | .outcome d c => .outcome d c.skip
  | .switch run source restore c => .switch run source restore c.skip
  | .owing cb c => .owing cb c.skip
  | .code c => .code c.skip
  | a => a

/-- Code skips its next step wherever it runs. -/
@[simp]
theorem Activation.skip_wrap {α : Type} (h : Holder S σ α) (code : Code S σ α) :
    (h.wrap code).skip = h.wrap code.skip := by
  cases h <;> rfl

namespace World

/-- A world on another thread. -/
def onThread (w : World S σ) (thread : String) : World S σ :=
  { w with thread := thread }

/-- A world in which others have been given numbers of bridges, up to this one.  Their bridges wait
for nothing. -/
def skipBridges (w : World S σ) (n : Nat) : World S σ :=
  { w with bridges := w.bridges ++
      Array.replicate (n - w.bridges.size) ⟨.uncancelable, none, .empty, none, 0⟩ }

/-- A world in which others have been given numbers of connections, up to this one. -/
def skipConnections (w : World S σ) (n : Nat) : World S σ :=
  { w with connections := ⟨w.connections.states ++
      Array.replicate (n - w.connections.states.size) .fresh⟩ }

end World

namespace State

/-- A state with another world. -/
def withWorld : State S σ → World S σ → State S σ
  | running _ top rest, w => running w top rest
  | returned _, w => returned w
  | unwound _ payload, w => unwound w payload

/-- Another world below the same control stack. -/
@[simp]
theorem activations_withWorld (s : State S σ) (w : World S σ) :
    (s.withWorld w).activations = s.activations := by
  cases s <;> rfl

/-- The world that a state has been given. -/
@[simp]
theorem world_withWorld (s : State S σ) (w : World S σ) : (s.withWorld w).world = w := by
  cases s <;> rfl

/-- A state in which the activation on top is behind its next command. -/
def skip : State S σ → State S σ
  | running w top rest => running w top.skip rest
  | s => s

/-- What a deed does to a machine that works for one party. -/
def undergo (P : Program S σ) (s : State S σ) : Deed S σ → State S σ
  | .step thread => (s.withWorld (s.world.onThread thread)).next P
  | .skip => s.skip
  | .complete thread cb o => complete P (s.world.onThread thread) cb o s.activations
  | .run thread e c terminal =>
    running (s.world.onThread thread) (.eval (.loop ⟨c, .empty, .terminal terminal⟩) e)
      s.activations
  | .call thread code => running (s.world.onThread thread) (.code code) s.activations
  | .bridges n => s.withWorld (s.world.skipBridges n)
  | .connections n => s.withWorld (s.world.skipConnections n)

end State

/-- What some deeds do to a machine that works for one party. -/
def State.undergoes (P : Program S σ) (s : State S σ) (deeds : List (Deed S σ)) : State S σ :=
  deeds.foldl (State.undergo P) s

/-- What a deed adds to the story of a run. -/
def Story.undergo (depth : Nat) (s : State S σ) (st : Story S) : Deed S σ → Story S
  | .step _ => st.next depth s
  | .complete _ cb o =>
    if st.bridge = some cb.bridge ∧ s.world.isArmed cb = true then st.resume cb o else st
  | _ => st

/-- A machine that works for one party and undergoes some deeds, with the story of a run. -/
def endure (P : Program S σ) (depth : Nat) (p : State S σ × Story S) (deeds : List (Deed S σ)) :
    State S σ × Story S :=
  deeds.foldl (fun p deed => (p.1.undergo P deed, p.2.undergo depth p.1 deed)) p

/-- The machine undergoes the deeds whatever story is told of them. -/
theorem endure_fst (P : Program S σ) (depth : Nat) (p : State S σ × Story S)
    (deeds : List (Deed S σ)) : (endure P depth p deeds).1 = p.1.undergoes P deeds := by
  induction deeds generalizing p with
  | nil => rfl
  | cons deed deeds ih => exact ih _

/-! ## The machine and its parties -/

/-- Those of some activations that work for a party. -/
def ownedBy [DecidableEq ι] {α : Type} (k : ι) : List ι → List α → List α
  | j :: ls, a :: as => if j = k then a :: ownedBy k ls as else ownedBy k ls as
  | _, _ => []

section

variable [DecidableEq ι] {α : Type} {k : ι}

/-- An activation that works for a party is one of its own. -/
@[simp]
theorem ownedBy_cons_self (k : ι) (ls : List ι) (a : α) (as : List α) :
    ownedBy k (k :: ls) (a :: as) = a :: ownedBy k ls as := by
  simp [ownedBy]

/-- An activation that works for another party is left out. -/
theorem ownedBy_cons_of_ne {j : ι} (h : j ≠ k) (ls : List ι) (a : α) (as : List α) :
    ownedBy k (j :: ls) (a :: as) = ownedBy k ls as := by
  simp [ownedBy, h]

/-- The activations of a party, of two stacks above each other. -/
theorem ownedBy_append {ls : List ι} {as : List α} (h : ls.length = as.length) (ls' : List ι)
    (as' : List α) : ownedBy k (ls ++ ls') (as ++ as') = ownedBy k ls as ++ ownedBy k ls' as' := by
  induction ls generalizing as with
  | nil =>
      cases as with
      | nil => rfl
      | cons a as => cases h
  | cons j ls ih =>
      cases as with
      | nil => cases h
      | cons a as =>
          have hlength : ls.length = as.length := by simpa using h
          by_cases hj : j = k <;> simp [ownedBy, hj, ih hlength]

/-- All activations may work for one party. -/
theorem ownedBy_of_all {f : α → ι} {as : List α} (h : ∀ a ∈ as, f a = k) :
    ownedBy k (as.map f) as = as := by
  induction as with
  | nil => rfl
  | cons a as ih => simp [h a (by simp), ih fun b hb => h b (by simp [hb])]

/-- A party for which no activation works has none. -/
theorem ownedBy_of_none {f : α → ι} {as : List α} (h : ∀ a ∈ as, f a ≠ k) :
    ownedBy k (as.map f) as = [] := by
  induction as with
  | nil => rfl
  | cons a as ih =>
      rw [List.map_cons, ownedBy_cons_of_ne (h a (by simp))]
      exact ih fun b hb => h b (by simp [hb])

/-- A party has as many activations as work for it. -/
theorem length_ownedBy {ls : List ι} {as : List α} (h : ls.length = as.length) :
    (ownedBy k ls as).length = ls.count k := by
  induction ls generalizing as with
  | nil => rfl
  | cons j ls ih =>
      cases as with
      | nil => cases h
      | cons a as =>
          have hlength : ls.length = as.length := by simpa using h
          by_cases hj : j = k <;> simp [ownedBy, hj, ih hlength]

end

namespace Holdings

variable [DecidableEq ι]

/-- The numbers that a step hands out. -/
def numbers (w w' : World S σ) : List (Deed S σ) :=
  (if w.bridges.size < w'.bridges.size then [.bridges w.bridges.size] else []) ++
    if w.connections.states.size < w'.connections.states.size then
      [.connections w.connections.states.size]
    else []

/-- What happens to each party in a step that is taken for one of them.  Another party sees it if it
makes a connection for that party, or completes one of its callbacks. -/
def heard (H : Holdings ι σ) (P : Program S σ) (w : World S σ) (top : Activation S σ) (k i : ι) :
    List (Deed S σ) :=
  let w' := (State.work P w [] top).world
  if i = k then numbers w w' ++ [.step w.thread]
  else
    (if w.connections.states.size < w'.connections.states.size ∧
        H.connection w.connections.states.size = i then
      [.connections w'.connections.states.size]
    else []) ++
      match top.completion? w with
      | some (cb, o) => if H.bridge cb.bridge = i then [.complete w.thread cb o] else []
      | none => []

/-- The machine goes on, and what happens to each party in that.  The activations belong to parties,
the party of the one on top keeps to itself, and it gives no panic to others: it survives those that
come up in its closures, and the code that the engine does not guard comes back. -/
inductive Goes (H : Holdings ι σ) (P : Program S σ) :
    State S σ → List ι → State S σ → List ι → (ι → List (Deed S σ)) → Prop
  /-- A step. -/
  | works {w : World S σ} {top : Activation S σ} {rest : List (Activation S σ)} {k : ι}
      {ls : List ι} (within : top.Within H k w.host)
      (bridges : ∀ i, w.bridges.size ≤ i → i < (State.work P w [] top).world.bridges.size →
        H.bridge i = k)
      (contained : (State.running w top rest).StepContained P) :
      Goes H P (.running w top rest) (k :: ls) ((State.running w top rest).next P)
        ((State.work P w [] top).activations.map (H.mark k) ++ ls) (H.heard P w top k)
  /-- The step of code that starts a run for another party. -/
  | starts {α : Type} (h : Holder S σ α) {w : World S σ} {e : Effect S} {c : Connection}
      {terminal : Terminal S} {next : Unit → Code S σ α} {rest : List (Activation S σ)} {k j : ι}
      {ls : List ι} (other : j ≠ k)
      (contained :
        (State.running w (h.wrap (.command (.run e c terminal) next)) rest).StepContained P) :
      Goes H P (.running w (h.wrap (.command (.run e c terminal) next)) rest) (k :: ls)
        ((State.running w (h.wrap (.command (.run e c terminal) next)) rest).next P) (j :: k :: ls)
        fun i => if i = j then [.run w.thread e c terminal] else if i = k then [.skip] else []
  /-- The host brings in code, once the machine has come to its end. -/
  | again {s : State S σ} (ended : s.activations = []) (k : ι) (code : Code S σ Unit) :
      Goes H P s [] (.start s.world code) [k] fun i =>
        if i = k then [.call s.world.thread code] else []

/-- The states of a machine that works for some parties, and what has happened to each so far. -/
inductive SharedRun (H : Holdings ι σ) (P : Program S σ) (host : σ) :
    State S σ → List ι → (ι → List (Deed S σ)) → Prop
  | start (thread : String) (k : ι) (code : Code S σ Unit) :
      SharedRun H P host (.start (.initial host thread) code) [k] fun i =>
        if i = k then [.call thread code] else []
  | next {s s' : State S σ} {ls ls' : List ι} {log new : ι → List (Deed S σ)}
      (h : SharedRun H P host s ls log) (goes : H.Goes P s ls s' ls' new) :
      SharedRun H P host s' ls' fun i => log i ++ new i

/-- A run of a party that is followed from its start, with what has happened to each party before,
and since. -/
inductive Follows (H : Holdings ι σ) (P : Program S σ) (host : σ) (k : ι) (r : Origin S) :
    State S σ → List ι → Story S → (ι → List (Deed S σ)) → (ι → List (Deed S σ)) → Prop
  | start {w : World S σ} {rest : List (Activation S σ)} {ls : List ι} {log : ι → List (Deed S σ)}
      (h : SharedRun H P host (.running w r.activation rest) (k :: ls) log)
      (depth : rest.length = r.depth) :
      Follows H P host k r (.running w r.activation rest) (k :: ls) .beginning log fun _ => []
  | next {s s' : State S σ} {ls ls' : List ι} {st : Story S} {log since new : ι → List (Deed S σ)}
      (h : Follows H P host k r s ls st log since) (goes : H.Goes P s ls s' ls' new) :
      Follows H P host k r s' ls' (st.next r.depth s) log fun i => since i ++ new i

end Holdings

end Trampoline
