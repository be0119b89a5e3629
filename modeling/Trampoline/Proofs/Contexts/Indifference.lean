import Trampoline.Proofs.Contexts.Erasure
import Trampoline.Proofs.Contexts.Threads

/-!
# Contexts make no difference

Two hosts give contexts of their own to the nodes of the same effects.  A deferred body then runs
at once for one host, on a thread of its own for the other, or at once again because the thread
could not be spawned, or on a worker of a pool.  Nobody can tell: the same closures are called in
the same order with the same arguments, the terminals of the runs among them with the same
outcomes, and whenever the one machine has come to its end, the other one comes to the same end.

This holds for whatever the host does: for suspensions that are completed late or twice, for
cancellations at any moment, for panics that a run survives, and for runs within runs.  The bottom
of a thread would stop a panic that the caller of the run would see otherwise, so no panic may be
fatal, and the code of terminals may let none out.

Main definitions and results:

- Definition `Plays`: what a machine goes through while the host brings code again and again.
- Definition `Plays.StepsContained`: the conditions about panics.
- Definition `Plays.Logs`: the calls of closures until a moment of a history.
- Definition `State.Concurs`: what two moments of two histories have in common.
- Theorems `Plays.beside`, `Plays.beside_of_plain`: a host and the one whose effects are plain.
- Theorems `Plays.logged`, `Plays.of_noting`: every moment has its place in a diary.
- Theorem `Program.Assigns.indifferent`: two assignments of contexts.
-/

namespace Trampoline

variable {S : Closures} {σ : Type}

/-! ## Ends -/

namespace State

namespace Assigns

variable {E : σ → σ → Prop} {s s' : State S σ}

theorem ended_iff (h : State.Assigns E s s') : s.activations = [] ↔ s'.activations = [] := by
  cases h <;> simp

/-- Both sides come to the same end. -/
theorem end?_eq (h : State.Assigns E s s') : s'.end? = s.end? := by
  cases h <;> rfl

end Assigns

end State

/-! ## Histories -/

/-- The states that a machine goes through from a world, with the pieces of code that the host has
brought until then, the latest first.  It brings more code when the machine has come to its end. -/
inductive Plays (P : Program S σ) (w : World S σ) : List (Code S σ Unit) → State S σ → Prop
  | start (code : Code S σ Unit) : Plays P w [code] (.start w code)
  | next {codes : List (Code S σ Unit)} {s : State S σ} (h : Plays P w codes s) :
      Plays P w codes (s.next P)
  | again {codes : List (Code S σ Unit)} {s : State S σ} (h : Plays P w codes s)
      (hs : s.activations = []) (code : Code S σ Unit) :
      Plays P w (code :: codes) (.start s.world code)

namespace Plays

variable {P P' : Program S σ} {E : σ → σ → Prop} {w w' : World S σ}
  {codes codes' : List (Code S σ Unit)} {s s' : State S σ}

/-- No step of a machine with these pieces of code lets a panic out of a call. -/
def StepsContained (P : Program S σ) (w : World S σ) (codes : List (Code S σ Unit)) : Prop :=
  ∀ played s, played <:+ codes → Plays P w played s → s.StepContained P

theorem StepsContained.tail {code : Code S σ Unit} (h : StepsContained P w (code :: codes)) :
    StepsContained P w codes :=
  fun played s hplayed => h played s (hplayed.trans (List.suffix_cons code codes))

/-- So many steps more. -/
theorem run (h : Plays P w codes s) (n : Nat) : Plays P w codes (State.run P n s) := by
  induction n with
  | zero => exact h
  | succ n ih =>
      rw [State.run_succ']
      exact ih.next

/-- What the one host brings the machine into, the host with plain effects does too. -/
theorem beside (h : Plays P w codes s) (hP : P.Assigns E P') (hw : World.Assigns E w w')
    (hcodes : List.Forall₂ (Code.Assigns E id) codes codes')
    (hcontained : StepsContained P w codes) :
    ∃ s', Plays P' w' codes' s' ∧ State.Beside P E s s' := by
  induction h generalizing codes' with
  | start code =>
      cases hcodes with
      | cons alike hnil =>
          cases hnil
          exact ⟨_, .start _, .flat (.running hw (.code alike) .nil)⟩
  | @next codes s h ih =>
      obtain ⟨s', hplays, hbeside⟩ := ih hcodes hcontained
      by_cases hs : s.activations = []
      · rw [State.next_of_ended P hs]
        exact ⟨s', hplays, hbeside⟩
      · rcases hbeside.next hP (hcontained codes s List.suffix_rfl h) hs with
          ⟨-, hnext⟩ | ⟨-, hnext⟩
        · exact ⟨_, hplays.next, hnext⟩
        · exact ⟨s', hplays, hnext⟩
  | again h hs code ih =>
      cases hcodes with
      | cons alike hcodes =>
          obtain ⟨s', hplays, hbeside⟩ := ih hcodes hcontained.tail
          have hs' := (hbeside.assigns_of_ended hs).ended_iff.mp hs
          exact ⟨_, hplays.again hs' _, .flat (.running hbeside.world (.code alike) .nil)⟩

/-- What the host with plain effects brings the machine into, the other one does too. -/
theorem beside_of_plain (h : Plays P' w' codes' s') (hP : P.Assigns E P')
    (hw : World.Assigns E w w') (hcodes : List.Forall₂ (Code.Assigns E id) codes codes')
    (hcontained : StepsContained P w codes) : ∃ s, Plays P w codes s ∧ State.Beside P E s s' := by
  induction h generalizing codes with
  | start code =>
      cases hcodes with
      | cons alike hnil =>
          cases hnil
          exact ⟨_, .start _, .flat (.running hw (.code alike) .nil)⟩
  | @next codes' s' h ih =>
      obtain ⟨s, hplays, hbeside⟩ := ih hcodes hcontained
      obtain ⟨n, hn, hs | ⟨-, hnext⟩⟩ := hbeside.catchesUp hP fun k =>
        hcontained codes _ List.suffix_rfl (hplays.run k)
      · rw [State.next_of_ended P' ((hn.assigns_of_ended hs).ended_iff.mp hs)]
        exact ⟨_, hplays.run n, hn⟩
      · exact ⟨_, (hplays.run n).next, hnext⟩
  | again h hs' code ih =>
      cases hcodes with
      | cons alike hcodes =>
          obtain ⟨s, hplays, hbeside⟩ := ih hcodes hcontained.tail
          obtain ⟨n, hn, hs | ⟨hrunning, -⟩⟩ := hbeside.catchesUp hP fun k =>
            hcontained.tail _ _ List.suffix_rfl (hplays.run k)
          · exact ⟨_, (hplays.run n).again hs _, .flat (.running hn.world (.code alike) .nil)⟩
          · exact absurd hs' hrunning

end Plays

/-! ## Two assignments of contexts -/

/-- What a moment in the history of a host has in common with the moment in the history of another
one that it leads to. -/
structure State.Concurs (E : σ → σ → Prop) (s s' : State S σ) : Prop where
  /-- The hosts have noted the same of all that has happened. -/
  host : E s.world.host s'.world.host
  connections : s.world.connections = s'.world.connections
  /-- The same runs wait for the same completions. -/
  bridges : s.world.bridges.map Bridge.plain = s'.world.bridges.map Bridge.plain
  classifier : s.world.classifier = s'.world.classifier
  /-- If the one machine has come to its end, the other one has come to the same. -/
  ended : ∀ outcome, s.end? = some outcome → s'.end? = some outcome

/-- What one assignment of contexts brings the machine into, another one does too. -/
theorem Plays.concurs {P P' P₀ : Program S σ} {E : σ → σ → Prop} {w w' w₀ : World S σ}
    {codes codes' codes₀ : List (Code S σ Unit)} (hE : Equivalence E) (hP : P.Assigns E P₀)
    (hP' : P'.Assigns E P₀) (hw : World.Assigns E w w₀) (hw' : World.Assigns E w' w₀)
    (hcodes : List.Forall₂ (Code.Assigns E id) codes codes₀)
    (hcodes' : List.Forall₂ (Code.Assigns E id) codes' codes₀)
    (hcontained : StepsContained P w codes)
    (hcontained' : StepsContained P' w' codes') {s : State S σ} (h : Plays P w codes s) :
    ∃ s', Plays P' w' codes' s' ∧ s.Concurs E s' := by
  obtain ⟨s₀, hplays₀, hbeside⟩ := h.beside hP hw hcodes hcontained
  obtain ⟨s', hplays', hbeside'⟩ := hplays₀.beside_of_plain hP' hw' hcodes' hcontained'
  -- Where the left side has come to its end, the right side is followed until it has too.
  obtain ⟨n, hn, hend⟩ : ∃ n, State.Beside P' E (State.run P' n s') s₀ ∧
      (s.activations = [] → (State.run P' n s').activations = []) := by
    obtain ⟨n, hn, hend | ⟨hrunning, -⟩⟩ := hbeside'.catchesUp hP' fun k =>
      hcontained' codes' _ List.suffix_rfl (hplays'.run k)
    · exact ⟨n, hn, fun _ => hend⟩
    · exact ⟨n, hn, fun hs => absurd ((hbeside.assigns_of_ended hs).ended_iff.mp hs) hrunning⟩
  have hworld := hbeside.world
  have hworld' := hn.world
  refine ⟨_, hplays'.run n, {
    host := hE.trans hworld.host (hE.symm hworld'.host)
    connections := hworld.connections.symm.trans hworld'.connections
    bridges := hworld.bridges.symm.trans hworld'.bridges
    classifier := hworld.classifier.symm.trans hworld'.classifier
    ended := fun outcome hs => ?_ }⟩
  have hended : s.activations = [] := by
    by_contra hrunning
    rw [State.end?_eq_none_iff.mpr hrunning] at hs
    cases hs
  rw [← (hn.assigns_of_ended (hend hended)).end?_eq, (hbeside.assigns_of_ended hended).end?_eq, hs]

/-! ## Calls of closures -/

namespace Plays

variable {P : Program S σ} {w : World S σ} {codes : List (Code S σ Unit)} {s : State S σ}

/-- A machine has come to a state, and a diary would have these calls of closures by then.  If a
closure has just been called, its call may be among them or not. -/
structure Logs (P : Program S σ) (w : World S σ) (codes : List (Code S σ Unit)) (s : State S σ)
    (d : List (Use S)) : Prop where
  plays : Plays P w codes s
  noted : ∃ t, Plays P.noting (w.aside []) (codes.map .aside) t ∧ State.Erases d s t

/-- Every moment of a history has its place in a diary. -/
theorem logged (h : Plays P w codes s) : ∃ d, Logs P w codes s d := by
  have hnoted : ∃ d, Plays P.noting (w.aside []) (codes.map .aside) (s.aside d) := by
    induction h with
    | start code => exact ⟨[], .start code.aside⟩
    | @next codes s h ih =>
        obtain ⟨d, hplays⟩ := ih
        obtain ⟨n, d', hsettle⟩ := (State.erases_next (P := P) (d := d) s).settle P
        exact ⟨d', hsettle ▸ hplays.next.run n⟩
    | @again codes s h hs code ih =>
        obtain ⟨d, hplays⟩ := ih
        have herases : State.Erases d s (s.aside d) := .now s
        have hstart := hplays.again (herases.ended_iff.mp hs) code.aside
        rw [herases.world] at hstart
        exact ⟨d, hstart⟩
  obtain ⟨d, hplays⟩ := hnoted
  exact ⟨d, h, _, hplays, .now s⟩

/-- Every moment of a history with a diary is one of the history without. -/
theorem of_noting {codes' : List (Code S (σ × List (Use S)) Unit)}
    {t : State S (σ × List (Use S))} (h : Plays P.noting (w.aside []) codes' t)
    (hcodes : codes' = codes.map .aside) : ∃ s d, Plays P w codes s ∧ State.Erases d s t := by
  induction h generalizing codes with
  | start code =>
      obtain ⟨code, rfl, rfl⟩ := List.map_eq_singleton_iff.mp hcodes.symm
      exact ⟨_, [], .start code, .now (.start w code)⟩
  | next h ih =>
      obtain ⟨s, d, hplays, herases⟩ := ih hcodes
      rcases herases.next (P := P) with hnext | ⟨u, hnext⟩
      · exact ⟨_, d, hplays.next, hnext⟩
      · exact ⟨s, d ++ [u], hplays, hnext ▸ .now s⟩
  | @again codes' t h ht code' ih =>
      obtain ⟨code, codes, rfl, rfl, rfl⟩ := List.map_eq_cons_iff.mp hcodes.symm
      obtain ⟨s, d, hplays, herases⟩ := ih rfl
      refine ⟨_, d, hplays.again (herases.ended_iff.mpr ht) code, ?_⟩
      rw [herases.world]
      exact .now (.start s.world code)

/-- A history with a diary lets no panic out if the one without lets none out. -/
theorem StepsContained.noting (h : StepsContained P w codes) :
    StepsContained P.noting (w.aside []) (codes.map .aside) := by
  intro played' t hplayed hplays
  obtain ⟨later, hlater⟩ := hplayed
  obtain ⟨before, played, rfl, -, rfl⟩ := List.map_eq_append_iff.mp hlater.symm
  obtain ⟨s, d, hs, herases⟩ := hplays.of_noting rfl
  exact herases.contained (h played s (List.suffix_append before played) hs)

end Plays

/-- Two hosts that bring code call the same closures with the same arguments, in the same order,
and come to the same. -/
structure Indifferent (E : σ → σ → Prop) (P P' : Program S σ) (w w' : World S σ)
    (codes codes' : List (Code S σ Unit)) : Prop where
  /-- There are calls to speak of at every moment. -/
  logged : (∀ s, Plays P w codes s → ∃ d, Plays.Logs P w codes s d) ∧
    ∀ s', Plays P' w' codes' s' → ∃ d, Plays.Logs P' w' codes' s' d
  forth : ∀ s d, Plays.Logs P w codes s d → ∃ s', Plays.Logs P' w' codes' s' d ∧ s.Concurs E s'
  back : ∀ s' d, Plays.Logs P' w' codes' s' d → ∃ s, Plays.Logs P w codes s d ∧ s'.Concurs E s

section

variable {P P' P₀ : Program S σ} {E : σ → σ → Prop} {w w' w₀ : World S σ}
  {codes codes' codes₀ : List (Code S σ Unit)}

/-- What one assignment of contexts brings the machine into, after some calls of closures, another
one brings it into after the same calls. -/
theorem Plays.Logs.concurs (hE : Equivalence E) (hP : P.Assigns E P₀) (hP' : P'.Assigns E P₀)
    (hw : World.Assigns E w w₀) (hw' : World.Assigns E w' w₀)
    (hcodes : List.Forall₂ (Code.Assigns E id) codes codes₀)
    (hcodes' : List.Forall₂ (Code.Assigns E id) codes' codes₀)
    (hcontained : Plays.StepsContained P w codes)
    (hcontained' : Plays.StepsContained P' w' codes') {s : State S σ} {d : List (Use S)}
    (h : Plays.Logs P w codes s d) : ∃ s', Plays.Logs P' w' codes' s' d ∧ s.Concurs E s' := by
  obtain ⟨hplays, t, hnoted, herases⟩ := h
  have haside : ∀ {w : World S σ}, World.Assigns E w w₀ →
      World.Assigns (Noted E) (w.aside ([] : List (Use S))) (w₀.aside []) := fun h =>
    ⟨⟨h.host, rfl⟩, h.connections, h.bridges, h.classifier⟩
  have hmap : ∀ {codes : List (Code S σ Unit)}, List.Forall₂ (Code.Assigns E id) codes codes₀ →
      List.Forall₂ (Code.Assigns (Noted E) id)
        (codes.map .aside : List (Code S (σ × List (Use S)) Unit)) (codes₀.map .aside) := by
    intro codes h
    rw [List.forall₂_map_left_iff, List.forall₂_map_right_iff]
    exact h.imp fun _ _ alike => alike.aside
  obtain ⟨t', hnoted', hconcurs⟩ := hnoted.concurs (noted_equivalence hE) hP.noting hP'.noting
    (haside hw) (haside hw') (hmap hcodes) (hmap hcodes') hcontained.noting hcontained'.noting
  obtain ⟨s', d', hplays', herases'⟩ := hnoted'.of_noting rfl
  obtain ⟨⟨hhost, huses⟩, hconnections, hbridges, hclassifier, hended⟩ := hconcurs
  rw [herases.world, herases'.world] at hhost huses hconnections hbridges hclassifier
  obtain rfl : d = d' := huses
  refine ⟨s', ⟨hplays', t', hnoted', herases'⟩, ⟨hhost, hconnections, hbridges, hclassifier,
    fun outcome hs => ?_⟩⟩
  rw [← herases'.end?_eq]
  exact hended outcome (herases.end?_eq.trans hs)

/-- Contexts make no difference to what a host does.  The hosts on both sides assign contexts to
the nodes of the same effects, in what they run and in what their closures come back with: the
current thread, threads of their own, which may be refused, and workers of pools.  No closure looks
at a context or at the name of its thread.  If no panic that a run would not survive comes up, and
no panic leaves the code of a terminal, the same closures are called with the same arguments, in
the same order, whatever code the hosts bring. -/
theorem Program.Assigns.indifferent (hE : Equivalence E) (hP : P.Assigns E P₀)
    (hP' : P'.Assigns E P₀) (hw : World.Assigns E w w₀) (hw' : World.Assigns E w' w₀)
    (hcodes : List.Forall₂ (Code.Assigns E id) codes codes₀)
    (hcodes' : List.Forall₂ (Code.Assigns E id) codes' codes₀)
    (hcontained : Plays.StepsContained P w codes)
    (hcontained' : Plays.StepsContained P' w' codes') : Indifferent E P P' w w' codes codes' where
  logged := ⟨fun _ h => h.logged, fun _ h => h.logged⟩
  forth := fun _ _ h => h.concurs hE hP hP' hw hw' hcodes hcodes' hcontained hcontained'
  back := fun _ _ h => h.concurs hE hP' hP hw' hw hcodes' hcodes hcontained' hcontained

end

/-! ## A test of histories -/

section

variable {P : Program S σ} {w : World S σ} {s : State S σ}

namespace Plays

theorem ne_nil {codes : List (Code S σ Unit)} (h : Plays P w codes s) : codes ≠ [] := by
  induction h with
  | start code => simp
  | next h ih => exact ih
  | again h hs code ih => simp

/-- With a single piece of code, a machine only takes steps. -/
theorem eq_run {code : Code S σ Unit} (h : Plays P w [code] s) :
    ∃ n, s = State.run P n (.start w code) := by
  generalize hcodes : [code] = codes at h
  induction h with
  | start code =>
      cases hcodes
      exact ⟨0, rfl⟩
  | next h ih =>
      obtain ⟨n, rfl⟩ := ih hcodes
      exact ⟨n + 1, (State.run_succ' P n _).symm⟩
  | again h hs code ih =>
      cases hcodes
      exact absurd rfl h.ne_nil

/-- A single piece of code whose states pass the test until the machine has come to its end. -/
theorem contained_of_isContained {code : Code S σ Unit} {fuel n : Nat}
    (htest : ∀ k < n, (State.run P k (.start w code)).isContained P fuel = true)
    (hend : (State.run P n (.start w code)).activations = []) : StepsContained P w [code] := by
  intro played s hplayed h
  rcases List.suffix_cons_iff.mp hplayed with rfl | hnil
  · obtain ⟨k, rfl⟩ := h.eq_run
    rcases Nat.lt_or_ge k n with hlt | hge
    · exact State.contained_of_isContained (htest k hlt)
    · obtain ⟨m, rfl⟩ := Nat.exists_eq_add_of_le hge
      rw [State.run_add, State.run_of_ended P hend]
      intro w top rest hs
      rw [hs] at hend
      cases hend
  · exact absurd (List.suffix_nil.mp hnil) h.ne_nil

end Plays

end

/-! ## A host that sends bodies around -/

/-- The deferred bodies of a small host. -/
inductive Porter where
  /-- Complete the callback. -/
  | carries
  /-- Panic. -/
  | trips

namespace Porter

/-- The names of that host: its bodies, a closure that goes on with another body, and a terminal. -/
def closures : Closures where
  Thunk := Empty
  Delay := Empty
  Registration := Empty
  Body := Porter
  Bind := Unit
  Map := Empty
  Handler := Empty
  Rescue := Empty
  Modify := Empty
  Restore := Empty
  Token := Empty
  Terminal := Unit
  Task := Empty
  Executor := Empty

/-- The code of that host.  Its closure gives the body that panics to this context. -/
def program (place : Context closures.Executor) : Program closures Unit where
  thunk := nofun
  delay := nofun
  registration := nofun
  body porter cb :=
    match porter with
    | carries => .perform (.complete cb (.ok (.text "carried")))
    | trips => .panic (.message "trip")
  bind _ _ := .done (.deferred place (.user trips))
  map := nofun
  handler := nofun
  rescue := nofun
  modify := nofun
  restore := nofun
  token := nofun
  terminal _ _ := .done ()
  task := nofun
  executor := nofun
  observe _ host := host

/-- An effect that goes to two contexts, and then on with the closure. -/
def errand (first second : Context closures.Executor) : Effect closures :=
  .bind (.continueOn first (.deferred second (.user carries))) (.bind (.user ()))

/-- The code that runs it. -/
def code (first second : Context closures.Executor) : Code closures Unit Unit :=
  .perform (.run (errand first second) .uncancelable (.user ()))

theorem assigns_program (place : Context closures.Executor) :
    (program place).Assigns Eq (program place.plain) where
  observe := fun _ _ _ _ _ _ => rfl
  refused := fun _ _ _ _ => rfl
  thunk := nofun
  delay := nofun
  registration := nofun
  body := fun porter cb => by
    cases porter with
    | carries => exact .command (.complete cb _) (.done ())
    | trips => exact .panic _
  bind := fun _ _ => .done (Effect.deferred place (.user trips))
  map := nofun
  handler := nofun
  rescue := nofun
  modify := nofun
  restore := nofun
  token := nofun
  terminal := fun _ _ => .done ()
  task := nofun
  executor := nofun

theorem assigns_code (first second : Context closures.Executor) :
    (code first second).Assigns Eq id (code first.plain second.plain) :=
  .command (.run (errand first second) .uncancelable (.user ())) (.done ())

/-- The world in which that host begins. -/
def world : World closures Unit :=
  .initial () "main"

/-- So many steps of that host. -/
def play (first second place : Context closures.Executor) (n : Nat) : State closures Unit :=
  .run (program place) n (.start world (code first second))

/-- The entries of its diary. -/
def uses : List (Use closures) :=
  [.body carries ⟨0, 1⟩, .bind () (.text "carried"), .body trips ⟨0, 3⟩,
    .terminal () (.error (.panicked "trip"))]

/-- The bodies run on a worker and on a thread of their own, and at once because a thread could
not be spawned; or they run at once, on a thread and on a worker. -/
theorem indifferent_places :
    Indifferent Eq (program (.newThread "other" false)) (program (.pool "pool" "worker")) world
        world [code (.pool "pool" "worker") (.newThread "other" true)]
        [code .immediate (.newThread "other" true)] ∧
      Plays.Logs (program (.newThread "other" false)) world
        [code (.pool "pool" "worker") (.newThread "other" true)]
        (play (.pool "pool" "worker") (.newThread "other" true) (.newThread "other" false) 23)
        uses ∧
      (play (.pool "pool" "worker") (.newThread "other" true) (.newThread "other" false)
        23).hasReturned = true := by
  have hcontained : ∀ first second place n,
      (∀ k < n, (play first second place k).isContained (program place) 30 = true) →
      (play first second place n).activations = [] →
      Plays.StepsContained (program place) world [code first second] :=
    fun _ _ _ _ => Plays.contained_of_isContained
  have hprogram : (program (.newThread "other" false)).Assigns Eq (program .immediate) :=
    assigns_program _
  have hprogram' : (program (.pool "pool" "worker")).Assigns Eq (program .immediate) :=
    assigns_program _
  have hworld : World.Assigns Eq world world := ⟨rfl, rfl, Array.map_empty.symm, rfl⟩
  have hcodes : List.Forall₂ (Code.Assigns Eq id)
      [code (.pool "pool" "worker") (.newThread "other" true)] [code .immediate .immediate] :=
    .cons (assigns_code _ _) .nil
  refine ⟨Program.Assigns.indifferent eq_equivalence hprogram hprogram' hworld hworld hcodes
    (.cons (assigns_code _ _) .nil) ?_ ?_, ⟨?_, ?_⟩, rfl⟩
  · exact hcontained _ _ _ 23 (by decide) rfl
  · exact hcontained _ _ _ 23 (by decide) rfl
  · exact (Plays.start _).run 23
  · exact ⟨_, (Plays.start _).run 27, .of_eq rfl⟩

end Porter

end Trampoline
