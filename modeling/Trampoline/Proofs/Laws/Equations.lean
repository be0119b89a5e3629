import Trampoline.Proofs.Laws.Rejoining

/-!
# The laws of sequential composition

An effect may be taken apart and put together again in other ways, and nobody can tell: closures
associate, a value goes straight to the closure that follows it, mapping is going on with a node of
what the closure makes, and going on with a node of the value is doing nothing.  This holds in the
middle of any run, on any connection, under any pending frames, whatever the effect and the
closures do: suspend, fail, panic, switch or cancel connections, or run other effects.

Only the last law has a condition: the closure on the left costs one more look at the connection,
so the connections under which the run takes its turns must not have been canceled.

Main definitions and results:

- Definition `LeadsWithin`: what the machine does, and the code that the host brings.
- Definitions `Rejoining`, `Lockstep`, theorems `Lockstep.follows_left`, `Lockstep.follows_right`:
  two machines that come together again and again follow each other.
- Definition `Law.Equates`: whatever one side comes to, the other comes to the same.
- Theorem `Law.equates`: the laws.
-/

namespace Trampoline

variable {S : Closures} {σ : Type} {P : Program S σ} {law : Law P} {E : σ → σ → Prop}

/-! ## What a run goes through -/

/-- The machine takes steps, and whenever it has come to its end, the host may bring more code that
makes nothing of the number of frames.  All states on the way are good. -/
inductive LeadsWithin (P : Program S σ) (E : σ → σ → Prop) (depth : Nat)
    (good : State S σ × Story S → Prop) (x : State S σ × Story S) :
    List (Code S σ Unit) → State S σ × Story S → Prop
  | start (hgood : good x) : LeadsWithin P E depth good x [] x
  | step {codes : List (Code S σ Unit)} {y : State S σ × Story S}
      (h : LeadsWithin P E depth good x codes y) (hgood : good (follow P depth y)) :
      LeadsWithin P E depth good x codes (follow P depth y)
  | again {codes : List (Code S σ Unit)} {y : State S σ × Story S}
      (h : LeadsWithin P E depth good x codes y) (hend : y.1.activations = [])
      {code : Code S σ Unit} (hcode : code.Alike E Eq code)
      (hgood : good (.start y.1.world code, y.2)) :
      LeadsWithin P E depth good x (codes ++ [code]) (.start y.1.world code, y.2)

/-- The connections under which a run takes its turns have not been canceled. -/
def Story.Uncanceled (st : Story S) (depth : Nat) (s : State S σ) : Prop :=
  ∀ w top rest run, s = .running w top rest → st.takesTurn depth top rest = true →
    top.loop? = some run → w.connections.isCanceled run.connection = false

/-- The states of which a law speaks: all, but for the law whose left side costs one more look at
the connection. -/
def Law.Admits (law : Law P) (depth : Nat) (x : State S σ × Story S) : Prop :=
  ∀ k hk, law = .rightUnit k hk → x.2.Uncanceled depth x.1

/-- Whatever one side comes to through states of which the law speaks, the other side comes to the
same. -/
structure Law.Equates (law : Law P) (E : σ → σ → Prop) (depth : Nat)
    (x y : State S σ × Story S) : Prop where
  forth : ∀ {codes x'}, LeadsWithin P E depth (law.Admits depth) x codes x' →
    ∃ y', LeadsWithin P E depth (fun _ => True) y codes y' ∧ law.Same E x' y'
  back : ∀ {codes y'}, LeadsWithin P E depth (law.Admits depth) y codes y' →
    ∃ x', LeadsWithin P E depth (fun _ => True) x codes x' ∧ law.Same E x' y'

namespace LeadsWithin

variable {depth : Nat} {good : State S σ × Story S → Prop} {x y : State S σ × Story S}
  {codes : List (Code S σ Unit)}

/-- A run that is followed is followed through all that it goes through. -/
theorem follows {r : Origin S} (h : LeadsWithin P E r.depth good x codes y)
    (hx : Follows P r x.1 x.2) : Follows P r y.1 y.2 := by
  induction h with
  | start hgood => exact hx
  | step h hgood ih => exact ih.next
  | again h hend hcode hgood ih => exact ih.again hend _

/-- So many steps more. -/
theorem chronicle (h : LeadsWithin P E depth (fun _ => True) x codes y) (n : Nat) :
    LeadsWithin P E depth (fun _ => True) x codes (chronicle P depth n y) := by
  induction n generalizing y with
  | zero => exact h
  | succ n ih => exact ih (h.step trivial)

end LeadsWithin

/-! ## The end of a machine -/

/-- Nothing follows the end of the machine. -/
theorem follow_of_ended (P : Program S σ) (depth : Nat) {x : State S σ × Story S}
    (h : x.1.activations = []) : follow P depth x = x := by
  obtain ⟨s, st⟩ := x
  cases s with
  | running w top rest => cases h
  | returned w => rfl
  | unwound w payload => rfl

/-! ## Coming together again -/

/-- Two machines that are followed together.  Either may take a few steps alone, after which the two
cannot be told apart; then both take one, and they are in step. -/
inductive Rejoining (P : Program S σ) (depth : Nat)
    (Same InStep : State S σ × Story S → State S σ × Story S → Prop) :
    State S σ × Story S → State S σ × Story S → Prop
  | both {x y : State S σ × Story S} (same : Same x y)
      (h : InStep (follow P depth x) (follow P depth y)) : Rejoining P depth Same InStep x y
  | left {x y : State S σ × Story S} (same : Same x y)
      (h : Rejoining P depth Same InStep (follow P depth x) y) : Rejoining P depth Same InStep x y
  | right {x y : State S σ × Story S} (same : Same x y)
      (h : Rejoining P depth Same InStep x (follow P depth y)) : Rejoining P depth Same InStep x y

namespace Rejoining

variable {depth : Nat} {Same InStep : State S σ × Story S → State S σ × Story S → Prop}
  {x y : State S σ × Story S}

/-- Sides that will be in step cannot be told apart now. -/
theorem same (h : Rejoining P depth Same InStep x y) : Same x y := by
  cases h with
  | both same h => exact same
  | left same h => exact same
  | right same h => exact same

/-- The right side can follow a step of the left side. -/
theorem forth (h : Rejoining P depth Same InStep x y) :
    (∃ n, Rejoining P depth Same InStep (follow P depth x) (chronicle P depth n y)) ∨
      ∃ n, InStep (follow P depth x) (chronicle P depth n y) := by
  induction h with
  | both same h => exact .inr ⟨1, h⟩
  | left same h ih => exact .inl ⟨0, h⟩
  | right same h ih => exact ih.imp (fun ⟨n, hn⟩ => ⟨n + 1, hn⟩) fun ⟨n, hn⟩ => ⟨n + 1, hn⟩

/-- The left side can follow a step of the right side. -/
theorem back (h : Rejoining P depth Same InStep x y) :
    (∃ n, Rejoining P depth Same InStep (chronicle P depth n x) (follow P depth y)) ∨
      ∃ n, InStep (chronicle P depth n x) (follow P depth y) := by
  induction h with
  | both same h => exact .inr ⟨1, h⟩
  | left same h ih => exact ih.imp (fun ⟨n, hn⟩ => ⟨n + 1, hn⟩) fun ⟨n, hn⟩ => ⟨n + 1, hn⟩
  | right same h ih => exact .inl ⟨0, h⟩

/-- Where the left side has come to its end, the right side comes to it too. -/
theorem ended_left (h : Rejoining P depth Same InStep x y) (hx : x.1.activations = []) :
    ∃ n, InStep x (chronicle P depth n y) := by
  induction h with
  | both same h =>
      rw [follow_of_ended P depth hx] at h
      exact ⟨1, h⟩
  | left same h ih =>
      rw [follow_of_ended P depth hx] at ih
      exact ih hx
  | right same h ih =>
      obtain ⟨n, hn⟩ := ih hx
      exact ⟨n + 1, hn⟩

/-- Where the right side has come to its end, the left side comes to be in step with it. -/
theorem ended_right (h : Rejoining P depth Same InStep x y) (hy : y.1.activations = []) :
    ∃ n, InStep (chronicle P depth n x) y := by
  induction h with
  | both same h =>
      rw [follow_of_ended P depth hy] at h
      exact ⟨1, h⟩
  | left same h ih =>
      obtain ⟨n, hn⟩ := ih hy
      exact ⟨n + 1, hn⟩
  | right same h ih =>
      rw [follow_of_ended P depth hy] at ih
      exact ih hy

end Rejoining

/-- Machines that are in step while a run is followed on the left come together again after each
step through good states, and whatever code the host brings. -/
structure Lockstep (P : Program S σ) (E : σ → σ → Prop) (r : Origin S)
    (good : State S σ × Story S → Prop)
    (Same InStep : State S σ × Story S → State S σ × Story S → Prop) : Prop where
  rejoins : ∀ {x y}, InStep x y → Follows P r x.1 x.2 → good x →
    Rejoining P r.depth Same InStep x y
  good_left : ∀ {x y}, InStep x y → good y → good x
  again : ∀ {x y} {code : Code S σ Unit}, InStep x y → code.Alike E Eq code →
    InStep (.start x.1.world code, x.2) (.start y.1.world code, y.2)
  ended_iff : ∀ {x y}, InStep x y → (x.1.activations = [] ↔ y.1.activations = [])

namespace Lockstep

variable {r : Origin S} {good : State S σ × Story S → Prop}
  {Same InStep : State S σ × Story S → State S σ × Story S → Prop}
  (hlock : Lockstep P E r good Same InStep) {x y : State S σ × Story S}
  {codes : List (Code S σ Unit)}

include hlock

/-- The right side follows the left side through all that it goes through. -/
theorem follows_left (h : Rejoining P r.depth Same InStep x y) (hx : Follows P r x.1 x.2)
    {x' : State S σ × Story S} (hleads : LeadsWithin P E r.depth good x codes x') :
    ∃ y', LeadsWithin P E r.depth (fun _ => True) y codes y' ∧
      Rejoining P r.depth Same InStep x' y' := by
  induction hleads with
  | start hgood => exact ⟨y, .start trivial, h⟩
  | step hleads hgood ih =>
      obtain ⟨y', hy', hrejoins⟩ := ih
      rcases hrejoins.forth with ⟨n, hn⟩ | ⟨n, hn⟩
      · exact ⟨_, hy'.chronicle n, hn⟩
      · exact ⟨_, hy'.chronicle n, hlock.rejoins hn (hleads.follows hx).next hgood⟩
  | again hleads hend hcode hgood ih =>
      obtain ⟨y', hy', hrejoins⟩ := ih
      obtain ⟨n, hn⟩ := hrejoins.ended_left hend
      exact ⟨_, (hy'.chronicle n).again ((hlock.ended_iff hn).mp hend) hcode trivial,
        hlock.rejoins (hlock.again hn hcode) ((hleads.follows hx).again hend _) hgood⟩

/-- The left side follows the right side. -/
theorem follows_right (h : Rejoining P r.depth Same InStep x y) (hx : Follows P r x.1 x.2)
    {y' : State S σ × Story S} (hleads : LeadsWithin P E r.depth good y codes y') :
    ∃ x', LeadsWithin P E r.depth (fun _ => True) x codes x' ∧
      Rejoining P r.depth Same InStep x' y' := by
  induction hleads with
  | start hgood => exact ⟨x, .start trivial, h⟩
  | step hleads hgood ih =>
      obtain ⟨x', hx', hrejoins⟩ := ih
      rcases hrejoins.back with ⟨n, hn⟩ | ⟨n, hn⟩
      · exact ⟨_, hx'.chronicle n, hn⟩
      · exact ⟨_, hx'.chronicle n,
          hlock.rejoins hn ((hx'.chronicle n).follows hx) (hlock.good_left hn hgood)⟩
  | again hleads hend hcode hgood ih =>
      obtain ⟨x', hx', hrejoins⟩ := ih
      obtain ⟨n, hn⟩ := hrejoins.ended_right hend
      have hended := (hlock.ended_iff hn).mpr hend
      have hagain := hlock.again hn hcode
      exact ⟨_, (hx'.chronicle n).again hended hcode trivial,
        hlock.rejoins hagain (((hx'.chronicle n).follows hx).again hended _)
          (hlock.good_left hagain hgood)⟩

end Lockstep

namespace Law

variable {s s' : State S σ} {st st' : Story S}

/-- The host may bring the same code on both sides. -/
theorem InStep.again (h : law.InStep E depth s st s' st') {code : Code S σ Unit}
    (hcode : code.Alike E Eq code) :
    law.InStep E depth (.start s.world code) st (.start s'.world code) st' :=
  ⟨.running h.state.world (.holds .code hcode) .nil, h.story⟩

/-- Sides in step come to their ends together. -/
theorem InStep.ended_iff (h : law.InStep E depth s st s' st') :
    s.activations = [] ↔ s'.activations = [] := by
  cases h.state <;> simp [State.activations]

/-- The connections of both sides are the same. -/
theorem InStep.uncanceled_of_right (h : law.InStep E depth s st s' st')
    (ho : st'.Uncanceled depth s') : st.Uncanceled depth s := by
  rintro w top rest run rfl hturn hloop
  obtain ⟨hstate, hstory⟩ := h
  cases hstate with
  | running hw htop hrest =>
      have hloops := htop.loop?
      rw [hloop] at hloops
      generalize hloop' : Activation.loop? _ = run' at hloops
      cases hloops with
      | some hrun =>
          rw [hw.connections, hrun.1]
          refine ho _ _ _ _ rfl ?_ hloop'
          rw [← hstory.takesTurn_eq htop hrest.length_eq, hturn]

variable {depth : Nat} {x y : State S σ × Story S}

/-- Sides that rejoin under a law rejoin in general. -/
theorem Rejoins.rejoining (h : law.Rejoins E depth x y) :
    Rejoining P depth (law.Same E) (fun x y => law.InStep E depth x.1 x.2 y.1 y.2) x y := by
  induction h with
  | both same h => exact .both same h
  | left same h ih => exact .left same ih
  | right same h ih => exact .right same ih

/-- Both sides of a law stay in step in the middle of a run. -/
theorem InStep.rejoins_of_follows {r : Origin S} (hP : P.Discreet E) (hf : Follows P r s st)
    (h : law.InStep E r.depth s st s' st') (hadmits : law.Admits r.depth (s, st)) :
    law.Rejoins E r.depth (s, st) (s', st') := by
  refine h.rejoins hP fun k hk hlaw w v run rest hs hturn => ⟨?_, ?_⟩
  · subst hs
    rcases hf.tracks.turn_cases with hno | ⟨run', -, -, ⟨m, -, live, -⟩ | ⟨q, next, serves, -⟩⟩
    · rw [hturn] at hno
      cases hno
    · exact live.pending
    · obtain ⟨α, holder, code, hwrap, -⟩ := serves.wrap
      cases holder <;> cases hwrap
  · exact hadmits k hk hlaw w _ _ _ hs hturn rfl

/-- Both sides of a law go on in step. -/
theorem lockstep (law : Law P) (hP : P.Discreet E) (r : Origin S) :
    Lockstep P E r (law.Admits r.depth) (law.Same E)
      fun x y => law.InStep E r.depth x.1 x.2 y.1 y.2 where
  rejoins h hf hadmits := (h.rejoins_of_follows hP hf hadmits).rejoining
  good_left h hadmits k hk hlaw := h.uncanceled_of_right (hadmits k hk hlaw)
  again h hcode := h.again hcode
  ended_iff h := h.ended_iff

end Law

/-! ## The laws -/

/-- Activations that are alike whoever looks are alike in any place. -/
theorem Activations.SameUpTo.of_all {seat : Seat} {rest : List (Activation S σ)}
    (h : ∀ a ∈ rest, Activation.SameUpTo law E (fun _ => False) a a) :
    Activations.SameUpTo law E seat rest rest := by
  induction rest with
  | nil => exact .nil
  | cons a rest ih =>
      exact .cons ((h a (by simp)).mono fun _ hno => hno.elim)
        (ih fun a' ha' => h a' (by simp [ha']))

/-- The two sides of a law mean the same wherever a run may meet them: under any pending frames, on
any connection, before and after the run has suspended.  The host may note how many frames there
were, as `E` says, but neither its code nor what waits below makes anything of it. -/
theorem Law.equates (law : Law P) (hP : P.Discreet E) {r : Origin S} {w : World S σ} {run : Loop S}
    {rest : List (Activation S σ)} {st : Story S} (m : Effect S)
    (hf : Follows P r (.running w (.eval (.loop run) (law.left m)) rest) st)
    (hturn : st.takesTurn r.depth (.eval (.loop run) (law.left m) : Activation S σ) rest = true)
    (hhost : E w.host w.host)
    (hrest : ∀ a ∈ rest, Activation.SameUpTo law E (fun _ => False) a a) :
    law.Equates E r.depth (.running w (.eval (.loop run) (law.left m)) rest, st)
      (.running w (.eval (.loop run) (law.right m)) rest, st) := by
  have hworld : World.SameUpTo law E (st.seat r.depth) w w :=
    ⟨hhost, rfl, fun i => by
      cases w.bridges[i]? with
      | none => exact .none
      | some b => exact .some ⟨rfl, rfl, .refl law _ _, rfl, rfl⟩, rfl, rfl⟩
  obtain ⟨run', hloop, hmine⟩ := Story.takesTurn_iff.mp hturn
  cases hloop
  have hturn : law.AtTurn E r.depth w rest st run w rest st run :=
    ⟨hworld, .of_all hrest, .refl law st, rfl, rfl, hmine⟩
  have hstarts := hturn.starts hP rfl m
  refine ⟨fun hleads => ?_, fun hleads => ?_⟩
  · obtain ⟨y', hy', hrejoins⟩ := (law.lockstep hP r).follows_left hstarts.rejoining hf hleads
    exact ⟨y', hy', hrejoins.same⟩
  · obtain ⟨x', hx', hrejoins⟩ := (law.lockstep hP r).follows_right hstarts.rejoining hf hleads
    exact ⟨x', hx', hrejoins.same⟩

/-! ## A small host -/

/-- What the closures of a small host do with a value. -/
inductive Chore where
  /-- Fetch another value. -/
  | fetch
  /-- Write it down. -/
  | write
  /-- Fetch another value, and write that down. -/
  | fetchAndWrite
  /-- Nothing. -/
  | keep

namespace Chore

/-- The names of a host that has nothing but chores, what they fetch, and the terminal of a run. -/
def closures : Closures where
  Thunk := Empty
  Delay := Empty
  Registration := Unit
  Body := Empty
  Bind := Chore
  Map := Empty
  Handler := Empty
  Rescue := Empty
  Modify := Empty
  Restore := Empty
  Token := Empty
  Terminal := Unit
  Task := Empty
  Executor := Empty

/-- The code of that host, whose state is what has been written down. -/
def program : Program closures (List Value) where
  thunk := nofun
  delay := nofun
  registration _ _ cb := .perform (.complete cb (.ok (.text "fetched")))
  body := nofun
  bind chore v :=
    match chore with
    | fetch => .done (.async ())
    | write => .query (.modifyHost (v :: ·)) fun _ => .done (.pure v)
    | fetchAndWrite => .done ((Effect.async ()).flatMap write)
    | keep => .done (.pure v)
  map := nofun
  handler := nofun
  rescue := nofun
  modify := nofun
  restore := nofun
  token := nofun
  terminal _ _ := .done ()
  task := nofun
  executor := nofun
  observe _ host := host

/-- To fetch and then to write is to fetch and write. -/
def fetching : Law program :=
  .assoc fetch write fetchAndWrite fun _ => rfl

/-- To keep a value is to do nothing with it. -/
def keeping : Law program :=
  .rightUnit keep fun _ => rfl

/-- A run of an effect, with the code that has started it below. -/
def origin (e : Effect closures) : Origin closures where
  effect := e
  connection := .uncancelable
  stack := .empty
  terminal := .user ()
  depth := 1

/-- The start of a run on that host. -/
def start (e : Effect closures) : State closures (List Value) × Story closures :=
  (.running (.initial [] "main") (origin e).activation [.code (.done ())], .beginning)

/-- The beginning of an effect is followed. -/
theorem follows_start (e : Effect closures) :
    Follows program (origin e) (start e).1 (start e).2 :=
  .start (.next (.start [] "main" (.perform (.run e .uncancelable (.user ()))))) rfl

/-- Nothing is noted of the number of frames. -/
theorem discreet : program.Discreet Eq :=
  Program.discreet_of_observe fun _ _ _ _ => rfl

/-- Two laws on that host, and what both sides of one of them write down. -/
theorem equates_start :
    fetching.Equates Eq 1 (start (fetching.left (.pure .null)))
        (start (fetching.right (.pure .null))) ∧
      keeping.Equates Eq 1 (start (keeping.left (.async ()))) (start (keeping.right (.async ()))) ∧
      ∀ e ∈ [fetching.left (.pure .null), fetching.right (.pure .null)],
        (chronicle program 1 20 (start e)).1.world.host = [.text "fetched"] := by
  refine ⟨fetching.equates discreet _ (follows_start _) rfl rfl fun a _ => .refl fetching _ a,
    keeping.equates discreet _ (follows_start _) rfl rfl fun a _ => .refl keeping _ a, ?_⟩
  intro e he
  rcases List.mem_pair.mp he with rfl | rfl <;> rfl

end Chore

end Trampoline
