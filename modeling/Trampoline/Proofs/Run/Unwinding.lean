import Trampoline.Proofs.Machine.Unwinding
import Trampoline.Proofs.Run.Abandonment

/-!
# Fatal panics and the runs they pass

On its way down the control stack a fatal panic passes the loops of any number of runs,
each with frames of its own: handlers, folds and restorers.  None of them is told of it.
The stories of all runs, the ones it takes away among them, show no question, no answer and
no outcome on the way.

Main definitions and results:

- Theorem `chronicle_fst`: the steps of a chronicle are those of the machine.
- Theorem `Story.next_panics`: what a fatal panic adds to the story of a run.
- Definition `PassedBy`, theorem `Follows.passedBy`: a fatal panic passes through every
  layer, and past every run.
-/

namespace Trampoline

variable {S : Closures} {σ : Type}

/-! ## Steps with their story -/

/-- The steps of a chronicle are those of the machine. -/
theorem chronicle_fst (P : Program S σ) (depth n : Nat) (p : State S σ × Story S) :
    (chronicle P depth n p).1 = State.run P n p.1 := by
  induction n generalizing p with
  | zero => rfl
  | succ n ih =>
      obtain ⟨s, st⟩ := p
      rw [State.run_succ]
      exact ih (s.next P, st.next depth s)

/-- The last of the steps of a chronicle. -/
theorem chronicle_succ (P : Program S σ) (depth n : Nat) (p : State S σ × Story S) :
    chronicle P depth (n + 1) p =
      ((chronicle P depth n p).1.next P,
        (chronicle P depth n p).2.next depth (chronicle P depth n p).1) := by
  induction n generalizing p with
  | zero => rfl
  | succ n ih =>
      obtain ⟨s, st⟩ := p
      exact ih (s.next P, st.next depth s)

/-! ## What becomes known -/

/-- The story of a run that a panic has taken away. -/
def Story.lose (st : Story S) : Story S :=
  { st with lost := true }

/-- A fatal panic of some code adds nothing to the story of a run but that the run is lost. -/
theorem Story.next_panics (st : Story S) (depth : Nat) {w : World S σ} {payload : Payload}
    (hfatal : w.classifier payload = false) {top : Activation S σ} (hp : top.Panics payload)
    (rest : List (Activation S σ)) :
    st.next depth (.running w top rest) = st ∨ st.next depth (.running w top rest) = st.lose := by
  obtain ⟨h⟩ := hp
  cases hturn : st.takesTurn depth (h.wrap (.panic payload)) rest with
  | true =>
      cases hrun : h.loop? with
      | none =>
          -- What is not the work of a loop takes no turn.
          have hnone : (h.wrap (.panic payload)).loop? = none := by
            cases h with
            | node d => cases d <;> first | rfl | cases hrun
            | outcome d => cases d <;> first | rfl | cases hrun
            | switch run source restore => cases hrun
            | owing cb => rfl
            | code => rfl
          simp [Story.takesTurn, hnone] at hturn
      | some run =>
          refine .inr ?_
          simp only [Story.next, hturn, if_true, Story.turn_wrap st w hrun, Story.heed, hfatal,
            Bool.false_eq_true, if_false]
          rfl
  | false =>
      have hnone : (h.wrap (.panic payload)).completion? w = none := by
        cases h with
        | owing cb => simp [Holder.wrap, Activation.completion?, hfatal]
        | _ => rfl
      simp [Story.next, hturn, hnone]

/-- A run that has a loop at work has delivered nothing and waits for no completion. -/
theorem Tracks.of_executing {P : Program S σ} {r : Origin S} {s : State S σ} {st : Story S}
    (h : Tracks P r s st) (hex : Executing r st s) :
    st.outcomes = [] ∧ ∀ cb, st.bridge = some cb.bridge → s.world.isArmed cb = false := by
  obtain ⟨above, act, below, hplace, hact⟩ := hex
  have hnot : ∀ i, st.bridge = some i → ¬∀ a ∈ s.activations, a.Idle i := by
    intro i hi hidle
    obtain ⟨a, ⟨run, hrun, hout⟩, hne⟩ :=
      Activation.Every.both act hact (hidle act (by simp [hplace]))
    rw [hi] at hout
    exact hne run hrun hout
  have hdisarmed : ∀ {cb : Callback}, ¬s.world.Wins cb.bridge cb → s.world.isArmed cb = false := by
    intro cb hnone
    simpa [World.Wins] using hnone
  cases h with
  | turn stands proceeds home live resumed =>
      refine ⟨live.outcomes, fun cb hcb => hdisarmed ?_⟩
      simpa [Story.bridgeIn, hcb] using home.not_wins cb
  | calling place serves waits idle proceeds home live resumed =>
      refine ⟨live.outcomes, fun cb hcb => hdisarmed ?_⟩
      simpa [Story.bridgeIn, hcb] using home.not_wins cb
  | suspended idle holds bridge parks completes proceeds live resumed =>
      exact absurd idle (hnot _ bridge)
  | delivered outcomes ending evaluates pending lost still numbered resumed =>
      refine ⟨?_, fun cb hcb => absurd (still _ hcb).idle (hnot _ hcb)⟩
      cases hb : st.bridge with
      | some i => exact absurd (still i hb).idle (hnot i hb)
      | none =>
          obtain ⟨a, ⟨run, -, hout⟩, -⟩ := Activation.Every.both act hact hact
          rw [hb] at hout
          exact hout.2.2
  | lost outcomes lost pending evaluates still numbered resumed =>
      exact ⟨outcomes, fun cb hcb => absurd (still _ hcb).idle (hnot _ hcb)⟩

/-! ## Past every run -/

/-- A panic passes through the activations `inner` in so many steps, and a run that is
followed sees nothing of it. -/
structure PassedBy (P : Program S σ) (r : Origin S) (w : World S σ) (payload : Payload)
    (inner outer : List (Activation S σ)) (s : State S σ) (st : Story S) (n : Nat) : Prop where
  /-- Nothing but panicking code comes to the top, in an unchanged world, and the panic leaves
  with the payload that it was raised with. -/
  unwinds : Unwinds P w payload inner outer s n
  /-- On the way the run asks nothing, is answered nothing, parks and delivers nothing. -/
  silent : ∀ k ≤ n, (chronicle P r.depth k (s, st)).2 = st ∨
    (chronicle P r.depth k (s, st)).2 = st.lose
  /-- If a loop of the run was at work before, and none is after, the run is lost, and nothing
  will ever bring it back or call its terminal. -/
  gone : Executing r st s → ¬Executing r st (.unwind w payload outer) →
    (chronicle P r.depth n (s, st)).2 = st.lose ∧
      ∀ s' st', Leads P r (.unwind w payload outer) st.lose s' st' →
        st' = st.lose ∧ Abandoned P r st' s'

/-- What a fatal panic adds to the story of a run while it passes through what waits. -/
theorem Unwinds.silent {P : Program S σ} {w : World S σ} {payload : Payload}
    {inner outer : List (Activation S σ)} {s : State S σ} {n : Nat}
    (h : Unwinds P w payload inner outer s n) (hfatal : w.classifier payload = false)
    (depth : Nat) (st : Story S) : ∀ k ≤ n, (chronicle P depth k (s, st)).2 = st ∨
      (chronicle P depth k (s, st)).2 = st.lose := by
  intro k hk
  induction k with
  | zero => exact .inl rfl
  | succ k ih =>
      obtain ⟨top, waiting, hp, -, hrun⟩ := h.passes k hk
      rw [chronicle_succ, chronicle_fst, hrun]
      rcases ih (Nat.le_of_succ_le hk) with hsame | hlost
      · rw [hsame]
        exact st.next_panics depth hfatal hp _
      · rw [hlost]
        exact .inr ((st.lose.next_panics depth hfatal hp _).elim id id)

/-- A fatal panic passes through every layer of what waits, and past every run. -/
theorem Follows.passedBy {P : Program S σ} {r : Origin S} {w : World S σ} {st : Story S}
    {payload : Payload} {top : Activation S σ} {inner outer : List (Activation S σ)}
    (h : Follows P r (.running w top (inner ++ outer)) st) (hp : top.Panics payload)
    (hfatal : w.classifier payload = false) (hthread : ∀ o, .thread o ∉ inner) :
    ∃ n, PassedBy P r w payload inner outer (.running w top (inner ++ outer)) st n := by
  obtain ⟨n, hn⟩ := h.reachable.unwinds hp hfatal hthread
  have hsilent := hn.silent hfatal r.depth st
  refine ⟨n, hn, hsilent, fun hbefore hafter => ?_⟩
  have hend : (Trampoline.chronicle P r.depth n (.running w top (inner ++ outer), st)).1 =
      .unwind w payload outer := by
    rw [chronicle_fst]
    exact hn.leaves
  have hfollows := h.chronicle n
  rw [hend] at hfollows
  obtain ⟨houtcomes, hdisarmed⟩ := h.tracks.of_executing hbefore
  -- What has been noted on the way decides nothing about where the run is.
  have hlost : (Trampoline.chronicle P r.depth n
      (.running w top (inner ++ outer), st)).2.lost = true := by
    rcases hsilent n (Nat.le_refl n) with hsame | hlose
    · rw [hsame] at hfollows ⊢
      refine hfollows.lost_of_idle houtcomes hafter fun cb hcb => ?_
      rw [State.world_unwind]
      exact hdisarmed cb hcb
    · rw [hlose]
      rfl
  have hstory : (Trampoline.chronicle P r.depth n
      (.running w top (inner ++ outer), st)).2 = st.lose := by
    rcases hsilent n (Nat.le_refl n) with hsame | hlose
    · rw [hsame] at hlost ⊢
      cases st
      cases hlost
      rfl
    · exact hlose
  refine ⟨hstory, fun s' st' hleads => ?_⟩
  rw [hstory] at hfollows
  obtain ⟨-, -, -, hstill⟩ := hfollows.tracks.still_of_lost rfl
  obtain ⟨rfl, -⟩ := hleads.unchanged hstill (.inr rfl)
  exact ⟨rfl, (hleads.follows hfollows).tracks.abandoned rfl⟩

/-! ## A host with runs inside of runs -/

namespace Nest

/-- The names of a host whose closures are numbered by how deep they go. -/
def closures : Closures where
  Thunk := Nat
  Delay := Empty
  Registration := Empty
  Body := Empty
  Bind := Empty
  Map := Empty
  Handler := Empty
  Rescue := Empty
  Modify := Empty
  Restore := Empty
  Token := Empty
  Terminal := Unit
  Task := Empty
  Executor := Empty

/-- The next closure, under a handler that takes any failure. -/
def handled (depth : Nat) : Effect closures :=
  .bind (.suspend depth) (.handle .reify)

/-- The code of that host: the lowest closure panics fatally, and each of the others evaluates
the next one, in a run of its own or partially. -/
def program : Program closures Unit where
  thunk := fun (depth : Nat) =>
    match depth with
    | 0 => .panic (.fatal "stop")
    | 1 => .command (.run (handled 0) .uncancelable (.user ())) fun _ => .done (.pure .null)
    | depth + 2 => .step (handled (depth + 1)) .done
  delay := nofun
  registration := nofun
  body := nofun
  bind := nofun
  map := nofun
  handler := nofun
  rescue := nofun
  modify := nofun
  restore := nofun
  token := nofun
  terminal _ _ := .done ()
  task := nofun
  executor := nofun
  observe _ host := host

/-- A run of the closure of that number, with the code that has started it below. -/
def origin (depth : Nat) : Origin closures where
  effect := handled depth
  connection := .uncancelable
  stack := .empty
  terminal := .user ()
  depth := 1

/-- So many steps of such a run, with their story. -/
def play (depth n : Nat) : State closures Unit × Story closures :=
  chronicle program 1 n
    (.running (.initial () "main") (origin depth).activation [.code (.done ())], .beginning)

/-- These are steps of a run. -/
theorem follows_play (depth n : Nat) :
    Follows program (origin depth) (play depth n).1 (play depth n).2 :=
  Follows.chronicle (.start (.next (.start () "main"
    (.perform (.run (handled depth) .uncancelable (.user ()))))) rfl) n

/-- A run inside a partial evaluation inside a run, with a handler in each: the fatal panic of
the innermost closure leaves the code that has started the outer run, which is lost. -/
theorem passedBy_two : ∃ w top a b n,
    (play 2 8).1 = .running w top ([a, b] ++ []) ∧ top.Panics (.fatal "stop") ∧
      PassedBy program (origin 2) w (.fatal "stop") [a, b] [] (.running w top ([a, b] ++ []))
        (play 2 8).2 n := by
  have hlowest : ∀ d, (Activation.node d (program.thunk (0 : Nat))).Panics (.fatal "stop") :=
    fun d => .intro (.node d)
  have hplay : ∃ w top a code, (play 2 8).1 = .running w top ([a, .code code] ++ []) ∧
      top.Panics (.fatal "stop") ∧ w.classifier = .standard ∧ a.Waits :=
    ⟨_, _, _, _, rfl, hlowest _, rfl, trivial⟩
  obtain ⟨w, top, a, code, hstate, hp, hclassifier, hwaits⟩ := hplay
  have hthread : ∀ o, .thread o ∉ [a, .code code] := by
    intro o ho
    simp only [List.mem_cons, List.not_mem_nil, or_false, reduceCtorEq] at ho
    exact (ho ▸ hwaits : Activation.Waits (.thread o))
  have hfollows := follows_play 2 8
  rw [hstate] at hfollows
  obtain ⟨n, hn⟩ := Follows.passedBy hfollows hp (by rw [hclassifier]; rfl) hthread
  exact ⟨w, top, a, _, n, hstate, hp, hn⟩

end Nest

end Trampoline
