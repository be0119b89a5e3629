import Trampoline.Proofs.Parties.Stories

/-!
# Independent runs

Runs of parties that keep to themselves do not disturb each other, however they are nested and
interleaved: each has the outcome, the exchanges with its closures, the epochs and the parked frames
that it has when its party is alone and the same happens to it.  The numbers of connections are part
of what happens: they count the connections of all, and code that looks at the number of its own
connection sees how many others have been made before.

Main definitions and results:

- Definition `Holdings.Undisturbed`, theorem `Holdings.Follows.undisturbed`: runs of other parties
  do not disturb a run.
- Definitions `Scene`, `Scene.play`: so many steps of a machine with its parties, which can be
  computed.
- Theorem `Neighbour.disturbed`: what disturbs a run nevertheless.
-/

namespace Trampoline

variable {S : Closures} {σ ι : Type}

namespace Holdings

variable [DecidableEq ι]

/-- A run among the runs of other parties has the story that it has alone. -/
structure Undisturbed (H : Holdings ι σ) (P : Program S σ) (host : σ) (k : ι) (r : Origin S)
    (s : State S σ) (ls : List ι) (st : Story S) (log since : List (Deed S σ)) : Prop where
  /-- In a world in which nothing has happened, a machine that works for the party alone starts the
  run after what has happened to the party before.  With what has happened since, the run has the
  same story, and the party has the same activations, connections, bridges and state of the host. -/
  alone : ∀ host' thread, H.part k host' = H.part k host → ∃ w rest a,
    (State.returned (.initial host' thread)).undergoes P log = .running w r.activation rest ∧
      endure P rest.length (.running w r.activation rest, .beginning) since = (a, st) ∧
      H.Beside k s ls a
  /-- In every other history of the same host in which the same happens to a party, to whichever and
  among whichever others, its run has the same story. -/
  same : ∀ {ι' : Type} [DecidableEq ι'] (H' : Holdings ι' σ) {k' : ι'} {r' : Origin S}
    {s' : State S σ} {ls' : List ι'} {st' : Story S} {log' since' : ι' → List (Deed S σ)},
    H'.Silent P → H'.Follows P host k' r' s' ls' st' log' since' → log' k' = log →
      since' k' = since → r'.activation = (r.activation : Activation S σ) ∧ st' = st

section

variable {H : Holdings ι σ} {P : Program S σ} {host : σ} {k : ι} {r : Origin S} {s : State S σ}
  {ls : List ι} {st : Story S} {log since : ι → List (Deed S σ)}

/-- The party alone undergoes what happens to it among others, and its run has the same story. -/
theorem Follows.beside (h : H.Follows P host k r s ls st log since) (silent : H.Silent P)
    {host' : σ} (part : H.part k host' = H.part k host) (thread : String) : ∃ w rest a,
    (State.returned (.initial host' thread)).undergoes P (log k) = .running w r.activation rest ∧
      endure P rest.length (.running w r.activation rest, .beginning) (since k) = (a, st) ∧
      H.Beside k s ls a ∧ H.Located k r.depth rest.length ls st := by
  induction h with
  | @start w rest ls log h depth =>
      have hbeside := h.beside silent part thread
      have hlength : ls.length = rest.length := by
        simpa using Settled.length_eq h.orderly.settled
      have howned := hbeside.owned
      rw [State.activations_running, ownedBy_cons_self] at howned
      cases ha : (State.returned (.initial host' thread)).undergoes P (log k) with
      | returned w' =>
          rw [ha] at howned
          cases howned
      | unwound w' payload =>
          rw [ha] at howned
          cases howned
      | running w' top' rest' =>
          rw [ha] at howned hbeside
          rw [State.activations_running, List.cons.injEq] at howned
          obtain ⟨rfl, rfl⟩ := howned
          refine ⟨w', _, _, rfl, rfl, hbeside, ⟨fun _ => nofun, fun _ _ _ => ?_⟩⟩
          exact ⟨[], ls, rfl, hlength.trans depth, (length_ownedBy hlength).symm⟩
  | next h goes ih =>
      obtain ⟨w, rest, a, hbefore, hsince, hbeside, hlocated⟩ := ih
      refine ⟨w, rest, (a.undergoes P _), hbefore, ?_, goes.beside silent h.orderly hbeside,
        goes.located h.orderly h.forget.tracks hlocated⟩
      rw [endure_append, hsince]
      exact Prod.ext (endure_fst _ _ _ _) (goes.told silent h.orderly hbeside hlocated)

/-- Runs of other parties do not disturb a run. -/
theorem Follows.undisturbed (h : H.Follows P host k r s ls st log since) (silent : H.Silent P) :
    H.Undisturbed P host k r s ls st (log k) (since k) where
  alone host' thread part := by
    obtain ⟨w, rest, a, hbefore, hsince, hbeside, -⟩ := h.beside silent part thread
    exact ⟨w, rest, a, hbefore, hsince, hbeside⟩
  same := by
    intro ι' _ H' k' r' s' ls' st' log' since' silent' h' hlog hsince
    obtain ⟨w, rest, a, hbefore, hstory, -, -⟩ := h.beside silent rfl ""
    obtain ⟨w', rest', a', hbefore', hstory', -, -⟩ := h'.beside silent' rfl ""
    rw [hlog, hbefore, State.running.injEq] at hbefore'
    obtain ⟨rfl, hactivation, rfl⟩ := hbefore'
    rw [hsince, ← hactivation, hstory, Prod.mk.injEq] at hstory'
    exact ⟨hactivation.symm, hstory'.2.symm⟩

end

end Holdings

/-! ## Steps that can be computed -/

/-- A connection may be used by a party or not. -/
instance (H : Holdings ι σ) [DecidableEq ι] (k : ι) : (c : Connection) → Decidable (H.Holds k c)
  | .uncancelable => isTrue trivial
  | .cancelable i => inferInstanceAs (Decidable (H.connection i = k))

section

variable [DecidableEq ι]

/-- A test for code that keeps to a party, and does not look at the state of the host. -/
def Code.keeps {α : Type} (H : Holdings ι σ) (k : ι) : Code S σ α → Bool
  | .query .host _ | .query (.modifyHost _) _ | .query (.setClassifier _) _ => false
  | .query (.isCanceled c) _ | .query (.pop c) _ | .command (.cancel c) _
  | .command (.push c _) _ => H.Holds k c
  | .query (.connectionOf cb) _ => H.bridge cb.bridge = k
  | _ => true

theorem Code.within_of_keeps {α : Type} {H : Holdings ι σ} {k : ι} {code : Code S σ α}
    (h : code.keeps H k = true) (x : σ) : code.Within H k x := by
  cases code with
  | done a => trivial
  | panic payload => trivial
  | step e next => trivial
  | query q next =>
      cases q with
      | host => cases h
      | modifyHost f => cases h
      | setClassifier f => cases h
      | isCanceled c => exact (of_decide_eq_true h : H.Holds k c)
      | pop c => exact (of_decide_eq_true h : H.Holds k c)
      | connectionOf cb => exact (of_decide_eq_true h : H.bridge cb.bridge = k)
      | _ => trivial
  | command c next =>
      cases c with
      | cancel c => exact (of_decide_eq_true h : H.Holds k c)
      | push c token => exact (of_decide_eq_true h : H.Holds k c)
      | _ => trivial

/-- A test for activations that keep to a party. -/
def Activation.keeps (H : Holdings ι σ) (k : ι) : Activation S σ → Bool
  | .eval (.loop run) _ => H.Holds k run.connection
  | .node _ c => c.keeps H k
  | .outcome _ c => c.keeps H k
  | .switch _ _ _ c => c.keeps H k
  | .owing _ c => c.keeps H k
  | .code c => c.keeps H k
  | _ => true

theorem Activation.within_of_keeps {H : Holdings ι σ} {k : ι} {a : Activation S σ}
    (h : a.keeps H k = true) (x : σ) : a.Within H k x := by
  cases a with
  | eval d node => cases d with
    | loop run => exact (of_decide_eq_true h : H.Holds k run.connection)
    | partially stack resume => trivial
  | node d code => exact Code.within_of_keeps h x
  | outcome d code => exact Code.within_of_keeps h x
  | switch run source restore code => exact Code.within_of_keeps h x
  | owing cb code => exact Code.within_of_keeps h x
  | code code => exact Code.within_of_keeps h x
  | _ => trivial

end

/-- A machine with its parties, the story of a run, and what has happened to each party. -/
structure Scene (ι : Type) (S : Closures) (σ : Type) where
  state : State S σ
  parties : List ι
  story : Story S
  events : ι → List (Deed S σ)

namespace Scene

variable [DecidableEq ι]

/-- A step of the activation on top. -/
def next (H : Holdings ι σ) (P : Program S σ) (depth : Nat) (c : Scene ι S σ) : Scene ι S σ :=
  match c.state, c.parties with
  | .running w top _, k :: ls => {
      state := c.state.next P
      parties := (State.work P w [] top).activations.map (H.mark k) ++ ls
      story := c.story.next depth c.state
      events := fun i => c.events i ++ H.heard P w top k i }
  | _, _ => c

/-- A test for such a step.  Code on its own has to return within so many steps. -/
def admits (H : Holdings ι σ) (P : Program S σ) (fuel : Nat) (c : Scene ι S σ) : Bool :=
  match c.state, c.parties with
  | .running w top rest, k :: _ =>
    top.keeps H k &&
      (List.range (State.work P w [] top).world.bridges.size).all
        (fun i => decide (i < w.bridges.size) || decide (H.bridge i = k)) &&
      (State.running w top rest).isContained P fuel
  | _, _ => false

/-- So many steps. -/
def play (H : Holdings ι σ) (P : Program S σ) (depth : Nat) : Nat → Scene ι S σ → Scene ι S σ
  | 0, c => c
  | n + 1, c => play H P depth n (c.next H P depth)

/-- A test for so many steps. -/
def admitsAll (H : Holdings ι σ) (P : Program S σ) (depth fuel : Nat) : Nat → Scene ι S σ → Bool
  | 0, _ => true
  | n + 1, c => c.admits H P fuel && admitsAll H P depth fuel n (c.next H P depth)

variable {H : Holdings ι σ} {P : Program S σ} {depth fuel : Nat} {c : Scene ι S σ}

/-- A step that passes the test is a step of a party that keeps to itself. -/
theorem goes (depth : Nat) (h : c.admits H P fuel = true) : ∃ new, H.Goes P c.state c.parties
    (c.next H P depth).state (c.next H P depth).parties new ∧
      (c.next H P depth).story = c.story.next depth c.state ∧
      (c.next H P depth).events = fun i => c.events i ++ new i := by
  obtain ⟨s, ls, st, events⟩ := c
  cases s with
  | returned w => cases h
  | unwound w payload => cases h
  | running w top rest =>
      cases ls with
      | nil => cases h
      | cons k ls =>
          simp only [admits, Bool.and_eq_true, List.all_eq_true, List.mem_range, Bool.or_eq_true,
            decide_eq_true_eq] at h
          obtain ⟨⟨hkeeps, hbridges⟩, hcontained⟩ := h
          refine ⟨_, .works (Activation.within_of_keeps hkeeps w.host) (fun i hle hlt => ?_)
            (State.contained_of_isContained hcontained), rfl, rfl⟩
          exact (hbridges i hlt).resolve_left (Nat.not_lt.mpr hle)

/-- Steps that pass the test are steps of a machine that works for parties. -/
theorem sharedRun {host : σ} (h : H.SharedRun P host c.state c.parties c.events) {n : Nat}
    (ok : c.admitsAll H P depth fuel n = true) :
    H.SharedRun P host (c.play H P depth n).state (c.play H P depth n).parties
      (c.play H P depth n).events := by
  induction n generalizing c with
  | zero => exact h
  | succ n ih =>
      rw [admitsAll, Bool.and_eq_true] at ok
      obtain ⟨new, hgoes, -, hevents⟩ := goes depth ok.1
      refine ih ?_ ok.2
      rw [hevents]
      exact h.next hgoes

/-- A run is followed through steps that pass the test. -/
theorem follows {host : σ} {k : ι} {r : Origin S} {log : ι → List (Deed S σ)}
    (h : H.Follows P host k r c.state c.parties c.story log c.events) {n : Nat}
    (ok : c.admitsAll H P r.depth fuel n = true) :
    H.Follows P host k r (c.play H P r.depth n).state (c.play H P r.depth n).parties
      (c.play H P r.depth n).story log (c.play H P r.depth n).events := by
  induction n generalizing c with
  | zero => exact h
  | succ n ih =>
      rw [admitsAll, Bool.and_eq_true] at ok
      obtain ⟨new, hgoes, hstory, hevents⟩ := goes r.depth ok.1
      refine ih ?_ ok.2
      rw [hevents, hstory]
      exact h.next hgoes

end Scene

namespace Holdings

variable [DecidableEq ι] {H : Holdings ι σ} {P : Program S σ} {host : σ}

/-- A run is followed from the command of another party that starts it. -/
theorem SharedRun.follows {α : Type} {s : State S σ} {ls : List ι} {log : ι → List (Deed S σ)}
    {k j : ι} (h : H.SharedRun P host s (k :: ls) log) (holder : Holder S σ α) {w : World S σ}
    {rest : List (Activation S σ)} {r : Origin S} {next : Unit → Code S σ α}
    (running : s =
      .running w (holder.wrap (.command (.run r.effect r.connection r.terminal) next)) rest)
    (stack : r.stack = .empty) (depth : rest.length + 1 = r.depth) (other : j ≠ k)
    (contained : s.StepContained P) :
    H.Follows P host j r (.running w r.activation (holder.wrap (next ()) :: rest)) (j :: k :: ls)
      .beginning
      (fun i => log i ++ if i = j then [.run w.thread r.effect r.connection r.terminal]
        else if i = k then [.skip] else [])
      fun _ => [] := by
  subst running
  have hactivation : (r.activation : Activation S σ) =
      .eval (.loop ⟨r.connection, .empty, .terminal r.terminal⟩) r.effect := by
    rw [Origin.activation, stack]
  have hgoes := h.next (.starts holder other contained)
  rw [State.next, State.work_run] at hgoes
  rw [hactivation]
  exact hactivation ▸ .start (hactivation ▸ hgoes) depth

end Holdings

/-! ## A small host -/

/-- What the delayed code of a small host does. -/
inductive Neighbour where
  /-- It makes a connection, and tells its number. -/
  | number
  /-- It completes the first callback that was handed out, twice. -/
  | across

namespace Neighbour

/-- The parties of that host. -/
inductive Side where
  | first
  | second
deriving DecidableEq

/-- The names of that host. -/
def closures : Closures where
  Thunk := Empty
  Delay := Neighbour
  Registration := Unit
  Body := Empty
  Bind := Unit
  Map := Empty
  Handler := Empty
  Rescue := Empty
  Modify := Empty
  Restore := Empty
  Token := Empty
  Terminal := Unit
  Task := Empty
  Executor := Empty

/-- The code of that host.  Its registrations keep their callbacks. -/
def program : Program closures Unit where
  thunk := nofun
  delay
    | number => .query .newConnection fun c => .done (.ok (.text (toString c.id)))
    | across => .command (.complete ⟨0, 1⟩ (.ok .null)) fun _ =>
      .command (.complete ⟨0, 1⟩ (.ok .null)) fun _ => .done (.ok (.text "across"))
  registration _ _ _ := .done ()
  body := nofun
  bind _ _ := .done (.async ())
  map := nofun
  handler := nofun
  rescue := nofun
  modify := nofun
  restore := nofun
  token := nofun
  terminal _ _ := .done ()
  task := nofun
  executor := nofun
  observe _ host := host

/-- The first bridge is that of the first party. -/
def holdings (connection : Nat → Side) : Holdings Side Unit where
  Part _ := Unit
  part _ _ := ()
  bridge i := if i = 0 then .first else .second
  connection := connection

theorem silent (connection : Nat → Side) : (holdings connection).Silent program :=
  fun _ _ _ => rfl

/-- A run of an effect, with the code that has started it below. -/
def origin (e : Effect closures) : Origin closures where
  effect := e
  connection := .uncancelable
  stack := .empty
  terminal := .user ()
  depth := 1

/-- The command that starts it. -/
def start (e : Effect closures) (next : Unit → Code closures Unit Unit) : Code closures Unit Unit :=
  .command (.run e .uncancelable (.user ())) next

/-- The second party begins with its code. -/
def opening (code : Code closures Unit Unit) : Scene Side closures Unit where
  state := .start (.initial () "main") code
  parties := [.second]
  story := .beginning
  events i := if i = .second then [.call "main" code] else []

/-- The code of the second party has just started a run for the first. -/
def started (c : Scene Side closures Unit) (e : Effect closures) (next : Code closures Unit Unit) :
    Scene Side closures Unit where
  state := .running c.state.world (origin e).activation [.code next]
  parties := [.first, .second]
  story := .beginning
  events _ := []

/-- What has happened to each party until then. -/
def earlier (c : Scene Side closures Unit) (e : Effect closures) (i : Side) :
    List (Deed closures Unit) :=
  c.events i ++ if i = .first then [.run "main" e .uncancelable (.user ())]
    else if i = .second then [.skip] else []

/-- The run of the first party is followed through so many steps. -/
theorem follows_started {connection : Nat → Side} {c : Scene Side closures Unit}
    {e : Effect closures} {next : Unit → Code closures Unit Unit}
    (h : (holdings connection).SharedRun program () c.state c.parties c.events)
    (state : c.state = .running c.state.world (.code (start e next)) [])
    (parties : c.parties = [.second]) (thread : c.state.world.thread = "main")
    (contained : c.state.isContained program 100 = true) {n : Nat}
    (ok : (started c e (next ())).admitsAll (holdings connection) program 1 100 n = true) :
    let c' := (started c e (next ())).play (holdings connection) program 1 n
    (holdings connection).Follows program () .first (origin e) c'.state c'.parties c'.story
      (earlier c e) c'.events := by
  intro c'
  refine Scene.follows (r := origin e) (c := started c e (next ())) ?_ ok
  rw [parties] at h
  have hfollows := h.follows (j := .first) (r := origin e) .code state rfl rfl (by simp)
    (State.contained_of_isContained contained)
  rw [thread] at hfollows
  exact hfollows

/-- The second party begins. -/
theorem sharedRun_opening (connection : Nat → Side) (code : Code closures Unit Unit) {n : Nat}
    (ok : (opening code).admitsAll (holdings connection) program 1 100 n = true) :
    let c := (opening code).play (holdings connection) program 1 n
    (holdings connection).SharedRun program () c.state c.parties c.events :=
  Scene.sharedRun (.start "main" Side.second code) ok

/-- A run that suspends, and once more when it is taken up. -/
def waiting : Effect closures :=
  .bind (.async ()) (.bind (.user ()))

/-- The code that starts it, and a run of its own that completes the callback. -/
def crossing : Code closures Unit Unit :=
  start waiting fun _ => .perform (.run (.delay .across) .uncancelable (.user ()))

/-- So many steps of the run that suspends. -/
def crossed (n : Nat) : Scene Side closures Unit :=
  (started (opening crossing) waiting
    (.perform (.run (.delay .across) .uncancelable (.user ())))).play
      (holdings fun _ => .first) program 1 n

/-- The code that starts the run that suspends, and completes the callback by itself. -/
def calling : Code closures Unit Unit :=
  start waiting fun _ => .command (.complete ⟨0, 1⟩ (.ok .null)) fun _ =>
    .perform (.complete ⟨0, 1⟩ (.ok .null))

/-- So many steps of the run that suspends, with no other run. -/
def called (n : Nat) : Scene Side closures Unit :=
  (started (opening calling) waiting (.command (.complete ⟨0, 1⟩ (.ok .null)) fun _ =>
    .perform (.complete ⟨0, 1⟩ (.ok .null)))).play (holdings fun _ => .first) program 1 n

/-- The run is taken up in a frame of the other run, and suspends there once more; the duplicate
completion is nothing to it.  It has the story that it has where there is no other run. -/
theorem undisturbed_crossing :
    (holdings fun _ => .first).Undisturbed program () .first (origin waiting) (crossed 14).state
      (crossed 14).parties (crossed 14).story (earlier (opening crossing) waiting .first)
      ((crossed 14).events .first) ∧
    (crossed 14).story.parks.map (fun p => p.callback.epoch) = [1, 2] ∧
    (crossed 14).story.resumptions.map Callback.epoch = [1] ∧
    (called 10).story = (crossed 14).story := by
  have hopening := sharedRun_opening (fun _ => .first) crossing (n := 0) rfl
  have hfollows := follows_started (n := 14) hopening rfl rfl rfl rfl rfl
  have hcalling := sharedRun_opening (fun _ => .first) calling (n := 0) rfl
  have hcalled := follows_started (n := 10) hcalling rfl rfl rfl rfl rfl
  have hundisturbed := Holdings.Follows.undisturbed hfollows (silent _)
  exact ⟨hundisturbed, rfl, rfl, (hundisturbed.same _ (silent _) hcalled rfl rfl).2⟩

/-- The code that starts a run that makes a connection. -/
def counting : Code closures Unit Unit :=
  start (.delay .number) .done

/-- The same after another run that makes a connection. -/
def recounting : Code closures Unit Unit :=
  start (.delay .number) fun _ => counting

/-- So many steps of a run that makes the first connection. -/
def counted (n : Nat) : Scene Side closures Unit :=
  (started (opening counting) (.delay .number) (.done ())).play (holdings fun _ => .first) program
    1 n

/-- The first connection is that of the second party. -/
def shared (i : Nat) : Side :=
  if i = 0 then .second else .first

/-- The second party has run its own effect, and is about to start the run of the first. -/
def between : Scene Side closures Unit :=
  (opening recounting).play (holdings shared) program 1 6

/-- So many steps of the same run behind that of the second party. -/
def recounted (n : Nat) : Scene Side closures Unit :=
  (started between (.delay .number) (.done ())).play (holdings shared) program 1 n

/-- The code that starts a run whose continuation cannot be submitted, and then the run of an
effect. -/
def refusing (e : Effect closures) : Code closures Unit Unit :=
  start (.bind (.async ()) (.bind (.shift (.newThread "a\x00b" true)))) fun _ => start e .done

/-- So many steps of a run of that host by itself. -/
def apart (e : Effect closures) (n : Nat) : State closures Unit × Story closures :=
  chronicle program 1 n (.running (.initial () "main") (origin e).activation [.code (.done ())],
    .beginning)

/-- So many steps of a run behind the one whose continuation cannot be submitted. -/
def refused (e : Effect closures) (n : Nat) : State closures Unit × Story closures :=
  let s := State.run program 5 (.start (.initial () "main") (refusing e))
  chronicle program 1 n (.running s.world (origin e).activation [.code (.done ())], .beginning)

/-- Runs that share neither state nor connections, and whose closures do not panic, are not as they
are alone.  Code that tells the number of its connection tells how many others have been made; and a
submission that panics in the continuation of one run panics in the frame of the other run that has
completed its callback. -/
theorem disturbed :
    ((holdings fun _ => .first).Follows program () .first (origin (.delay .number))
        (counted 5).state (counted 5).parties (counted 5).story
        (earlier (opening counting) (.delay .number)) (counted 5).events ∧
      (holdings shared).Follows program () .first (origin (.delay .number))
        (recounted 5).state (recounted 5).parties (recounted 5).story
        (earlier between (.delay .number)) (recounted 5).events ∧
      earlier (opening counting) (.delay .number) .first = earlier between (.delay .number) .first ∧
      ((counted 5).events .first).filter (!·.isNumber) =
        ((recounted 5).events .first).filter (!·.isNumber) ∧
      (counted 5).story.outcomes = [.ok (.text "1")] ∧
      (recounted 5).story.outcomes = [.ok (.text "2")]) ∧
    Follows program (origin (.delay .across)) (apart (.delay .across) 8).1
        (apart (.delay .across) 8).2 ∧
      Follows program (origin (.delay .across)) (refused (.delay .across) 16).1
        (refused (.delay .across) 16).2 ∧
      (apart (.delay .across) 8).2.outcomes = [.ok (.text "across")] ∧
      (refused (.delay .across) 16).2.outcomes.map Except.isOk = [false] := by
  refine ⟨⟨?_, ?_, rfl, rfl, rfl, rfl⟩, ?_, ?_, rfl, rfl⟩
  · have hopening := sharedRun_opening (fun _ => .first) counting (n := 0) rfl
    exact follows_started (n := 5) hopening rfl rfl rfl rfl rfl
  · have hbetween := sharedRun_opening shared recounting (n := 6) rfl
    exact follows_started (n := 5) hbetween rfl rfl rfl rfl rfl
  · exact Follows.chronicle (.start (.next (.start () "main" (start (.delay .across) .done))) rfl) 8
  · exact Follows.chronicle
      (.start (State.Reachable.run (.start () "main" (refusing (.delay .across))) 5) rfl) 16

end Neighbour

end Trampoline
