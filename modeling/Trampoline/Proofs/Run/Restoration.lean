import Trampoline.Proofs.Run.Atomicity
import Trampoline.Proofs.Run.Switches

/-!
# The ends of regions

A region with a restorer is entered under the connection that its modifier chooses.  Whatever
exit its source comes to, the restorer is asked once, with that exit, the connection from
before the region and the one that is active at the exit.  The exit itself goes on to the
frames below the region, under the connection that the restorer has chosen; only if the
restorer panics, the failure of that goes on instead, and the connection stays.  An exit that
leaves several regions leaves the innermost first.

Main definitions and results:

- Definitions `Modifier.Answers`, `Restorer.Answers`: how a connection is chosen.
- Definition `Exits`, theorem `Proceeds.exits`: an exit on its way through the pending frames.
- Definition `Crossing`, theorem `Proceeds.crossing`: a region from its beginning to its end.
- Theorem `Follows.restores`: the regions of a run.
-/

namespace Trampoline

variable {S : Closures} {σ : Type}

/-- A look that finds a connection open. -/
def openLook (c : Connection) : Exchange S :=
  ⟨.canceled c, false⟩

/-- An evaluation in front of a node within frames has not looked yet, has found the connection
canceled, or has gone on with the node. -/
theorem Proceeds.of_node {c : Connection} {e : Effect S} {frames : List (Frame S)}
    {zs : List (Exchange S)} {n : Course S}
    (h : Proceeds ((Course.eval c e).within frames) zs n) :
    (zs = [] ∧ n = (Course.eval c e).within frames) ∨
      (zs = [⟨.canceled c, true⟩] ∧ n = Course.abort.within frames) ∨
      ∃ ws, zs = openLook c :: ws ∧ Proceeds ((e.move c).within frames) ws n := by
  rcases h.taken (Course.head_within_asks rfl frames) with ⟨rfl, rfl⟩ | ⟨canceled, ws, rfl, hgo⟩
  · exact .inl ⟨rfl, rfl⟩
  · cases canceled with
    | false => exact .inr (.inr ⟨ws, rfl, hgo⟩)
    | true =>
        have habort : (Course.abort.within frames : Course S).head.outcome? =
            some (.error .cancelled) := by
          rw [Course.head_within_aborted rfl frames]
          rfl
        obtain ⟨rfl, rfl⟩ := Proceeds.of_outcome hgo habort
        exact .inr (.inl ⟨rfl, rfl⟩)

/-- An evaluation in front of a node within frames looks at an open connection first. -/
theorem Proceeds.past_look {c : Connection} {e : Effect S} {frames : List (Frame S)}
    {zs : List (Exchange S)} {n : Course S}
    (h : Proceeds ((Course.eval c e).within frames) zs n)
    (opens : ∀ d, ⟨.canceled d, true⟩ ∉ zs) :
    zs = [] ∧ n = (Course.eval c e).within frames ∨
      ∃ ws, zs = openLook c :: ws ∧ Proceeds ((e.move c).within frames) ws n := by
  rcases h.of_node with hnow | ⟨rfl, -⟩ | hpast
  · exact .inl hnow
  · exact absurd List.mem_cons_self (opens c)
  · exact .inr hpast

/-! ## The choice of a connection -/

/-- How a connection is chosen at the end of a region: the code of the host is asked once, and
the connection from before the region needs no code. -/
inductive Restorer.Answers (exit : Outcome) (old c : Connection) :
    Restorer S → List (Exchange S) → Except Failure Connection → Prop
  | user (k : S.Restore) (a : Except Failure Connection) :
      Answers exit old c (.user k) [⟨.restore k exit old c, a⟩] a
  | old : Answers exit old c .old [] (.ok old)

/-- How a connection is chosen for a region. -/
inductive Modifier.Answers (c : Connection) :
    Modifier S → List (Exchange S) → Except Failure Connection → Prop
  | user (k : S.Modify) (a : Except Failure Connection) :
      Answers c (.user k) [⟨.modify k c, a⟩] a
  | uncancelable : Answers c .uncancelable [] (.ok .uncancelable)
  | restoring {exit : Outcome} {old : Connection} {r : Restorer S} {qs : List (Exchange S)}
      {a : Except Failure Connection} (h : r.Answers exit old c qs a) :
      Answers c (.restoring exit old r) qs a

/-- The choice at the end of a region has not been made, or it has, and the evaluation has gone
on with it. -/
theorem Proceeds.restorer {r : Restorer S} {exit : Outcome} {old c : Connection}
    {next : Connection → Course S} {frames : List (Frame S)} {zs : List (Exchange S)}
    {n : Course S} (h : Proceeds ((r.choose exit old c next).within frames) zs n) :
    zs = [] ∧ n = (r.choose exit old c next).within frames ∨
      ∃ qs a ws, r.Answers exit old c qs a ∧ zs = qs ++ ws ∧
        Proceeds ((Course.connection c next a).within frames) ws n := by
  cases r with
  | user k =>
      rcases h.taken (Course.head_within_asks rfl frames) with hnow | ⟨a, ws, rfl, hgo⟩
      · exact .inl hnow
      · exact .inr ⟨_, a, ws, .user k a, rfl, hgo⟩
  | old => exact .inr ⟨[], _, zs, .old, rfl, h⟩

/-- The choice for a region has not been made, or it has, and the evaluation has gone on with
it. -/
theorem Proceeds.modifier {m : Modifier S} {c : Connection} {next : Connection → Course S}
    {frames : List (Frame S)} {zs : List (Exchange S)} {n : Course S}
    (h : Proceeds ((m.choose c next).within frames) zs n) :
    zs = [] ∧ n = (m.choose c next).within frames ∨
      ∃ qs a ws, m.Answers c qs a ∧ zs = qs ++ ws ∧
        Proceeds ((Course.connection c next a).within frames) ws n := by
  cases m with
  | user k =>
      rcases h.taken (Course.head_within_asks rfl frames) with hnow | ⟨a, ws, rfl, hgo⟩
      · exact .inl hnow
      · exact .inr ⟨_, a, ws, .user k a, rfl, hgo⟩
  | uncancelable => exact .inr ⟨[], _, zs, .uncancelable, rfl, h⟩
  | restoring exit old r =>
      rcases Proceeds.restorer h with hnow | ⟨qs, a, ws, hanswers, hzs, hgo⟩
      · exact .inl hnow
      · exact .inr ⟨qs, a, ws, .restoring hanswers, hzs, hgo⟩

/-! ## An exit on its way -/

/-- What leaves a region with the answer of its restorer: the exit of the region under the
connection that has been chosen, or the failure of a panic under the one that was active. -/
inductive Leaves (c : Connection) (o : Outcome) :
    Except Failure Connection → Connection → Outcome → Prop
  | restored (new : Connection) : Leaves c o (.ok new) new o
  | panicked (e : Failure) : Leaves c o (.error e) c (.error e)

/-- How far an exit that has come under a connection to pending frames, the innermost first, has
got with them. -/
inductive Exits : Connection → Outcome → List (Frame S) → List (Exchange S) → Course S → Prop
  /-- It has come there. -/
  | now (c : Connection) (o : Outcome) (frames : List (Frame S)) :
      Exits c o frames [] ((Course.exit c o).within frames)
  /-- The first frame does not take it. -/
  | passes {c : Connection} {o : Outcome} {frame : Frame S} {frames : List (Frame S)}
      {zs : List (Exchange S)} {n : Course S} (lets : frame.takes o = false)
      (h : Exits c o frames zs n) : Exits c o (frame :: frames) zs n
  /-- The first frame takes it, and is not the end of a region. -/
  | taken {c : Connection} {o : Outcome} {frame : Frame S} {frames : List (Frame S)}
      {zs : List (Exchange S)} {n : Course S} (takes : frame.takes o = true)
      (ends : ∀ old r, frame ≠ .restore old r)
      (h : Proceeds ((frame.move c o).within frames) zs n) : Exits c o (frame :: frames) zs n
  /-- The first frame is the end of a region, which takes any exit. -/
  | reaches (c : Connection) (o : Outcome) (old : Connection) (r : Restorer S)
      (frames : List (Frame S)) : Exits c o (.restore old r :: frames) []
        ((Course.eval c
          (.switchConnection (.ofOutcome o) (.restoring o old r) none)).within frames)
  /-- The connection has been looked at, and the restorer is asked. -/
  | asks (c : Connection) (o : Outcome) (old : Connection) (r : Restorer S)
      (frames : List (Frame S)) : Exits c o (.restore old r :: frames) [openLook c]
        ((r.choose o old c (.region (.ofOutcome o) none c)).within frames)
  /-- The restorer has answered, and an exit is met as a node in front of the frames below. -/
  | leaves {c c' : Connection} {o o' : Outcome} {old : Connection} {r : Restorer S}
      {qs : List (Exchange S)} {a : Except Failure Connection} (frames : List (Frame S))
      (answers : r.Answers o old c qs a) (leaves : Leaves c o a c' o') :
      Exits c o (.restore old r :: frames) (openLook c :: qs)
        ((Course.eval c' (.ofOutcome o')).within frames)
  /-- It is on its way through those. -/
  | onward {c c' : Connection} {o o' : Outcome} {old : Connection} {r : Restorer S}
      {qs zs : List (Exchange S)} {a : Except Failure Connection} {frames : List (Frame S)}
      {n : Course S} (answers : r.Answers o old c qs a) (leaves : Leaves c o a c' o')
      (h : Exits c' o' frames zs n) :
      Exits c o (.restore old r :: frames) (openLook c :: qs ++ openLook c' :: zs) n

/-- The exit that leaves a region is a node in front of the frames below. -/
theorem Leaves.connection_eq (c : Connection) (o : Outcome) (a : Except Failure Connection) :
    ∃ c' o', Leaves c o a c' o' ∧
      Course.connection c (.region (.ofOutcome o) none c) a =
        (Course.eval c' (.ofOutcome o') : Course S) := by
  cases a with
  | ok new => exact ⟨new, o, .restored new, rfl⟩
  | error e => exact ⟨c, .error e, .panicked e, rfl⟩

/-- The end of a region lets an exit out when its restorer has answered. -/
theorem Proceeds.leaves {c old : Connection} {o : Outcome} {r : Restorer S}
    {frames : List (Frame S)} {zs : List (Exchange S)} {n : Course S}
    (h : Proceeds (((Frame.restore old r).move c o).within frames) zs n)
    (opens : ∀ d, ⟨.canceled d, true⟩ ∉ zs) :
    Exits c o (.restore old r :: frames) zs n ∨ ∃ qs a c' o' ws, r.Answers o old c qs a ∧
      Leaves c o a c' o' ∧ zs = openLook c :: qs ++ openLook c' :: ws ∧
        Proceeds ((Course.exit c' o').within frames) ws n := by
  rcases h.past_look opens with ⟨rfl, rfl⟩ | ⟨us, rfl, hlooked⟩
  · exact .inl (.reaches c o old r frames)
  · rcases Proceeds.restorer hlooked with ⟨rfl, rfl⟩ | ⟨qs, a, vs, hanswers, rfl, hgo⟩
    · exact .inl (.asks c o old r frames)
    · obtain ⟨c', o', hleaves, hconnection⟩ := Leaves.connection_eq c o a
      rw [hconnection] at hgo
      have hrest := hgo.past_look fun d hd =>
        opens d (List.mem_cons_of_mem _ (List.mem_append_right qs hd))
      rcases hrest with ⟨rfl, rfl⟩ | ⟨ws, rfl, hout⟩
      · rw [List.append_nil]
        exact .inl (.leaves frames hanswers hleaves)
      · rw [Effect.move_ofOutcome] at hout
        exact .inr ⟨qs, a, c', o', ws, hanswers, hleaves, rfl, hout⟩

/-- Where no connection is found canceled, an exit goes on its way. -/
theorem Proceeds.exits {c : Connection} {o : Outcome} {frames : List (Frame S)}
    {zs : List (Exchange S)} {n : Course S}
    (h : Proceeds ((Course.exit c o).within frames) zs n)
    (opens : ∀ d, ⟨.canceled d, true⟩ ∉ zs) : Exits c o frames zs n := by
  -- The induction is on the frames; the end of a region may change what comes to the next.
  induction frames generalizing c o zs n with
  | nil =>
      obtain ⟨rfl, rfl⟩ := h.of_outcome (o := o) rfl
      exact .now c o []
  | cons frame frames ih =>
      have hhead : ((Course.exit c o).within (frame :: frames)).head =
          .goes ((frame.move c o).within frames) :=
        Course.head_within_goes (Course.head_seq_exited rfl frame) frames
      rcases h.gone hhead with ⟨rfl, rfl⟩ | hmoved
      · exact .now c o _
      · cases htakes : frame.takes o with
        | false =>
            rw [Frame.move_of_not_takes htakes] at hmoved
            exact .passes htakes (ih hmoved opens)
        | true =>
            cases frame with
            | restore old r =>
                rcases hmoved.leaves opens with hhere | ⟨qs, a, c', o', ws, hanswers, hleaves,
                  rfl, hout⟩
                · exact hhere
                · refine .onward hanswers hleaves (ih hout fun d hd => opens d ?_)
                  exact List.mem_append_right _ (List.mem_cons_of_mem _ hd)
            | _ => exact .taken htakes (by simp) hmoved

/-! ## A region from its beginning to its end -/

/-- How far an evaluation that meets a region under a connection has come with it. -/
inductive Crossing (source : Effect S) (modify : Modifier S) (r : Restorer S) (c : Connection)
    (frames : List (Frame S)) : List (Exchange S) → Course S → Prop
  /-- It is in front of the region. -/
  | meets : Crossing source modify r c frames []
      ((Course.eval c (.switchConnection source modify (some r))).within frames)
  /-- The connection has been looked at, and the modifier is asked. -/
  | asks : Crossing source modify r c frames [openLook c]
      ((modify.choose c (.region source (some r) c)).within frames)
  /-- The modifier has panicked, and the region is not entered. -/
  | refused {qs zs : List (Exchange S)} {e : Failure} {n : Course S}
      (answers : modify.Answers c qs (.error e))
      (h : Proceeds ((Course.eval c (.fail e)).within frames) zs n) :
      Crossing source modify r c frames (openLook c :: qs ++ zs) n
  /-- The region begins under the connection that the modifier has chosen. -/
  | begins {qs : List (Exchange S)} {new : Connection} (answers : modify.Answers c qs (.ok new)) :
      Crossing source modify r c frames (openLook c :: qs)
        ((Course.eval new (.bind source (.restore c r))).within frames)
  /-- The source is evaluated as it is by itself. -/
  | inside {qs xs : List (Exchange S)} {new : Connection} {m : Course S}
      (answers : modify.Answers c qs (.ok new)) (h : Proceeds (.eval new source) xs m) :
      Crossing source modify r c frames (openLook c :: qs ++ openLook new :: xs)
        ((Course.seq m (.restore c r)).within frames)
  /-- The source has exited, and the exit is on its way through the end of the region and the
  frames below. -/
  | ends {qs xs zs : List (Exchange S)} {new d : Connection} {o : Outcome} {m n : Course S}
      (answers : modify.Answers c qs (.ok new)) (h : Proceeds (.eval new source) xs m)
      (exits : m.head = .exited d o) (way : Exits d o (.restore c r :: frames) zs n) :
      Crossing source modify r c frames (openLook c :: qs ++ openLook new :: xs ++ zs) n

/-- Where no connection is found canceled, an evaluation crosses the regions that it meets. -/
theorem Proceeds.crossing {source : Effect S} {modify : Modifier S} {r : Restorer S}
    {c : Connection} {frames : List (Frame S)} {zs : List (Exchange S)} {n : Course S}
    (h : Proceeds ((Course.eval c (.switchConnection source modify (some r))).within frames) zs n)
    (opens : ∀ d, ⟨.canceled d, true⟩ ∉ zs) : Crossing source modify r c frames zs n := by
  rcases h.past_look opens with ⟨rfl, rfl⟩ | ⟨ws, rfl, hlooked⟩
  · exact .meets
  · have hopens : ∀ d, ⟨.canceled d, true⟩ ∉ ws := fun d hd =>
      opens d (List.mem_cons_of_mem _ hd)
    rcases Proceeds.modifier hlooked with ⟨rfl, rfl⟩ | ⟨qs, a, us, hanswers, rfl, hgo⟩
    · exact .asks
    · have hopens' : ∀ d, ⟨.canceled d, true⟩ ∉ us := fun d hd =>
        hopens d (List.mem_append_right qs hd)
      cases a with
      | error e => exact .refused hanswers hgo
      | ok new =>
          have hregion : Proceeds ((Course.eval new (.bind source (.restore c r))).within frames)
              us n := hgo
          rcases hregion.past_look hopens' with ⟨rfl, rfl⟩ | ⟨vs, rfl, hin⟩
          · rw [List.append_nil]
            exact .begins hanswers
          · have hinside : Proceeds ((Course.seq (.eval new source) (.restore c r)).within frames)
                vs n := hin
            rcases hinside.of_seq with ⟨m, hm, rfl⟩ | ⟨xs, ys, m, d, o, rfl, hm, hexit, hrest⟩
            · exact .inside hanswers hm
            · have hexits : Proceeds ((Course.exit d o).within (.restore c r :: frames)) ys n :=
                .goes (Course.head_within_goes (Course.head_seq_exited rfl _) frames) hrest
              have hway := hexits.exits fun e he =>
                hopens' e (List.mem_cons_of_mem _ (List.mem_append_right xs he))
              have hends : Crossing source modify r c frames
                  (openLook c :: qs ++ openLook new :: xs ++ ys) n :=
                .ends hanswers hm hexit hway
              rwa [List.append_assoc] at hends

/-! ## The regions of a run -/

/-- What a run has done since it was in front of a node is what the node and the pending frames
call for. -/
theorem Leads.onward {P : Program S σ} {r : Origin S} {w : World S σ} {run : Loop S}
    {e : Effect S} {rest : List (Activation S σ)} {st st' : Story S} {s' : State S σ}
    (hl : Leads P r (.running w (.eval (.loop run) e) rest) st s' st')
    (hf : Follows P r (.running w (.eval (.loop run) e) rest) st)
    (hturn : st.takesTurn r.depth (.eval (.loop run) e : Activation S σ) rest = true) :
    ∃ zs n, st'.exchanges = st.exchanges ++ zs ∧
      Proceeds ((Course.eval run.connection e).within run.stack.toList) zs n ∧ Rests st' n := by
  obtain ⟨live, proceeds⟩ := hf.tracks.of_turn_eval hturn
  rcases hl.first (by simp) with ⟨-, rfl⟩ | hlater
  · exact ⟨[], _, by simp, .refl _, by simp [live.pending], by simp [live.outcomes]⟩
  · -- The first step has noted a look, so the run is no longer behind the node.
    have hlook : (st.next r.depth (.running w (.eval (.loop run) e) rest)).exchanges =
        st.exchanges ++ [⟨.canceled run.connection, w.connections.isCanceled run.connection⟩] := by
      simp only [Story.next, hturn, if_true]
      exact st.turn_eval_exchanges w run e
    obtain ⟨zs, hzs⟩ := hlater.exchanges hf.next
    rw [hlook, List.append_assoc, List.singleton_append] at hzs
    obtain ⟨n, hn, hrests⟩ := (hl.follows hf).tracks.rests
    rw [← hzs] at hn
    exact ⟨_, n, hzs.symm, proceeds.rest hn, hrests⟩

/-- What a run does with a region that it has met under connection `c` with certain frames
pending. -/
structure Restores (P : Program S σ) (r : Origin S) (source : Effect S) (modify : Modifier S)
    (restorer : Restorer S) (c : Connection) (frames : List (Frame S)) (st : Story S)
    (s' : State S σ) (st' : Story S) : Prop where
  /-- It crosses the region, and its exit goes through the frames. -/
  crossing : ∃ zs n, st'.exchanges = st.exchanges ++ zs ∧
    Crossing source modify restorer c frames zs n ∧ Rests st' n
  /-- The connection under which an exit leaves the region is active up to the next switch: all
  that is asked names it, and the machine keeps it for the run while that waits. -/
  active : ∀ xs ys d o n, xs ++ ys <+: st'.exchanges →
    Proceeds r.course xs ((Course.eval d (.ofOutcome o)).within frames) →
    ProceedsUnswitched ((Course.eval d (.ofOutcome o)).within frames) ys n →
    (∀ y ∈ ys, y.question.Under d) ∧
      ∀ q, st'.exchanges = xs ++ ys → st'.pending = some q → st'.lost = false →
        q.Under d ∧ ∃ stack, Active r st' s' d stack
  /-- When the run asks, the machine starts the code that is asked, with what the question
  names. -/
  starts : ∀ q, st'.pending = none → (st'.next r.depth s').pending = some q →
    q.Started P (st'.next r.depth s') (s'.next P)
  /-- The answers come from that code: they are what it comes back with, or the failures of
  its panics. -/
  answers : ∀ x ∈ st'.exchanges, x.question.Yields P x.answer
  /-- While it waits for no answer it goes on, until it has its outcome. -/
  goes : st'.pending = none → st'.outcomes = [] → ∃ n ≤ 3, Advances P r n s' st'

/-- Each region that has been entered is restored once, when its source exits, and the exit goes
on. -/
theorem Follows.restores {P : Program S σ} {r : Origin S} {w : World S σ} {run : Loop S}
    {source : Effect S} {modify : Modifier S} {restorer : Restorer S}
    {rest : List (Activation S σ)} {st st' : Story S} {s' : State S σ}
    (hf : Follows P r
      (.running w (.eval (.loop run) (.switchConnection source modify (some restorer))) rest) st)
    (hturn : st.takesTurn r.depth
      (.eval (.loop run) (.switchConnection source modify (some restorer)) : Activation S σ)
      rest = true)
    (hl : Leads P r
      (.running w (.eval (.loop run) (.switchConnection source modify (some restorer))) rest) st
      s' st')
    (opens : ∀ d, ⟨.canceled d, true⟩ ∉ st'.exchanges) :
    Restores P r source modify restorer run.connection run.stack.toList st s' st' where
  crossing := by
    obtain ⟨zs, n, hzs, hn, hrests⟩ := hl.onward hf hturn
    refine ⟨zs, n, hzs, hn.crossing fun d hd => ?_, hrests⟩
    exact opens d (hzs ▸ List.mem_append_right _ hd)
  active := fun xs ys d o n _ hto hunswitched => by
    have under : ((Course.eval d (.ofOutcome o)).within run.stack.toList : Course S).Under d :=
      (Course.under_within run.stack.toList).mpr rfl
    refine ⟨(hunswitched.under under).2, fun q hex hq hlost => ?_⟩
    exact (hl.follows hf).tracks.active_of_unswitched hq hlost hto under hunswitched hex
  starts := fun _ hnone hq =>
    (hl.follows hf).tracks.starts (hl.follows hf).reachable.bounded hnone hq
  answers := (hl.follows hf).yields
  goes := (hl.follows hf).tracks.goes

namespace Detour

/-- The names of a host that chooses connections by name, or panics when it should restore
one. -/
def closures : Closures where
  Thunk := Empty
  Delay := Empty
  Registration := Unit
  Body := Empty
  Bind := Empty
  Map := Empty
  Handler := Empty
  Rescue := Empty
  Modify := Connection
  Restore := Option Connection
  Token := Empty
  Terminal := Unit
  Task := Empty
  Executor := Empty

/-- The code of that host.  Its registrations complete their callback at once. -/
def program : Program closures Unit where
  thunk := nofun
  delay := nofun
  registration _ _ cb := .perform (.complete cb (.ok .null))
  body := nofun
  bind := nofun
  map := nofun
  handler := nofun
  rescue := nofun
  modify new _ := .done new
  restore new? _ _ _ :=
    match new? with
    | some new => .done new
    | none => .panic (.message "astray")
  token := nofun
  terminal _ _ := .done ()
  task := nofun
  executor := nofun
  observe _ host := host

/-- The connection of an outer region. -/
def outer : Connection :=
  .cancelable 0

/-- The connection of an inner region. -/
def inner : Connection :=
  .cancelable 1

/-- A region on the inner connection around a suspension.  Its restorer panics. -/
def detour : Effect closures :=
  .switchWith (.async ()) inner none

/-- A run of that region inside a region on the outer connection, with the code that has
started it below. -/
def origin : Origin closures where
  effect := .switchWith detour outer (some .uncancelable)
  connection := .uncancelable
  stack := .empty
  terminal := .user ()
  depth := 1

/-- The code that creates the connections and starts the run. -/
def code : Code closures Unit Unit :=
  .query .newConnection fun _ => .query .newConnection fun _ =>
    .perform (.run origin.effect .uncancelable (.user ()))

/-- So many steps of that run, with their story. -/
def play (n : Nat) : State closures Unit × Story closures :=
  chronicle program 1 n
    (.running ((((State.start (.initial () "main") code).next program).next program).next
      program).world origin.activation [.code (.done ())], .beginning)

/-- These are steps of a run. -/
theorem follows_play (n : Nat) : Follows program origin (play n).1 (play n).2 :=
  Follows.chronicle (.start (.next (.next (.next (.start () "main" code)))) rfl) n

/-- The inner restorer is given the exit of the suspension, and panics; the outer one is given
the failure of that panic, and the connection of the inner region, which has stayed active. -/
theorem restores_detour :
    (play 20).2.called = [.modify outer .uncancelable, .modify inner outer, .async () inner,
        .restore none (.ok .null) outer inner,
        .restore (some .uncancelable) (.error (.panicked "astray")) .uncancelable inner] ∧
      (play 20).2.outcomes = [.error (.panicked "astray")] ∧
      Restores program origin detour (.user outer) (.user (some .uncancelable)) .uncancelable []
        (play 0).2 (play 20).1 (play 20).2 := by
  have hopens : ∀ x ∈ (play 20).2.exchanges, ∀ d, x ≠ ⟨.canceled d, true⟩ := by
    have hexchanges : (play 20).2.exchanges = [openLook .uncancelable,
      ⟨.modify outer .uncancelable, .ok outer⟩, openLook outer, openLook outer,
      ⟨.modify inner outer, .ok inner⟩, openLook inner, openLook inner,
      ⟨.async () inner, .ok .null⟩, openLook inner, openLook inner,
      ⟨.restore none (.ok .null) outer inner, .error (.panicked "astray")⟩, openLook inner,
      openLook inner, ⟨.restore (some .uncancelable) (.error (.panicked "astray")) .uncancelable
        inner, .ok .uncancelable⟩, openLook .uncancelable] := rfl
    rw [hexchanges]
    simp only [List.forall_mem_cons, openLook]
    refine ⟨?_, ?_, ?_, ?_, ?_, ?_, ?_, ?_, ?_, ?_, ?_, ?_, ?_, ?_, ?_, by simp⟩ <;>
      exact fun d h => by cases h
  exact ⟨rfl, rfl, (follows_play 0).restores rfl (Leads.now.chronicle 20)
    fun d hd => hopens _ hd d rfl⟩

end Detour

end Trampoline
