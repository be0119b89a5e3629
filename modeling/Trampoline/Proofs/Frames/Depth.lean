import Trampoline.Proofs.Frames.Awaiting

/-!
# How many frames a run needs

An evaluation that needs no more than so many frames by itself needs no more of them on the
machine: the frames in the loop of a run, or in its bridge, are those within which its
evaluation stands.  A frame is off the stack before the node that it makes is met, so a
recursion whose every round is the last thing that the round before it does needs no more
frames than one of its rounds, and the one that waits for it.

Main definitions and results:

- Definitions `Course.FitsIn`, `Effect.FitsIn`: so many frames are enough, however the
  surroundings answer.
- Theorems `Course.FitsIn.ask`, `Course.FitsIn.eval`, `Course.FitsIn.seq`, `Effect.FitsIn.bind`:
  how many frames a question, a node and a sequence need.
- Definition `Stacked`: the stacks in which the machine keeps the frames of a run.
- Theorem `Follows.length_le`: no stack of a run gets longer than its evaluation needs.
- Definition `Effect.recursion`, theorem `Follows.recursion_length_le`: a recursion in a bounded
  stack.
-/

namespace Trampoline

variable {S : Closures} {σ : Type}

/-! ## Evaluations in so many frames -/

/-- Some run is answered like this, in a row. -/
def Program.Answers (P : Program S σ) (xs : List (Exchange S)) : Prop :=
  ∃ (r : Origin S) (s : State S σ) (st : Story S), Follows P r s st ∧ xs <:+: st.exchanges

namespace Program.Answers

variable {P : Program S σ} {xs ys : List (Exchange S)}

theorem left (h : P.Answers (xs ++ ys)) : P.Answers xs := by
  obtain ⟨r, s, st, hf, hin⟩ := h
  exact ⟨r, s, st, hf, (List.prefix_append xs ys).isInfix.trans hin⟩

theorem right (h : P.Answers (xs ++ ys)) : P.Answers ys := by
  obtain ⟨r, s, st, hf, hin⟩ := h
  exact ⟨r, s, st, hf, (List.suffix_append xs ys).isInfix.trans hin⟩

theorem head {x : Exchange S} (h : P.Answers (x :: xs)) : P.Answers [x] :=
  left (show P.Answers ([x] ++ xs) from h)

theorem tail {x : Exchange S} (h : P.Answers (x :: xs)) : P.Answers xs :=
  right (show P.Answers ([x] ++ xs) from h)

/-- The code of a question has come back with the answer. -/
theorem yields {x : Exchange S} (h : P.Answers [x]) : x.question.Yields P x.answer := by
  obtain ⟨r, s, st, hf, hin⟩ := h
  exact hf.yields x (hin.subset (by simp))

end Program.Answers

/-- However the surroundings answer, the evaluation never stands within more than so many
frames. -/
def Course.FitsIn (P : Program S σ) (k : Nat) (m : Course S) : Prop :=
  ∀ xs n, P.Answers xs → Proceeds m xs n → n.front.2.length ≤ k

/-- An effect by itself, on any connection, needs no more than so many frames. -/
def Effect.FitsIn (P : Program S σ) (k : Nat) (e : Effect S) : Prop :=
  ∀ c, (Course.eval c e).FitsIn P k

namespace Course.FitsIn

variable {P : Program S σ} {k : Nat} {m : Course S}

/-- An evaluation that has its outcome needs the frames that it has. -/
theorem of_outcome {o : Outcome} (hm : m.head.outcome? = some o) (hk : m.front.2.length ≤ k) :
    m.FitsIn P k := by
  intro xs n _ hn
  obtain ⟨-, rfl⟩ := hn.of_outcome hm
  exact hk

theorem exit (c : Connection) (o : Outcome) : (Course.exit c o).FitsIn P k :=
  of_outcome rfl (Nat.zero_le k)

theorem abort : (Course.abort : Course S).FitsIn P k :=
  of_outcome rfl (Nat.zero_le k)

/-- A question needs what its answers need. -/
theorem ask {q : Question S} {next : q.Answer → Course S}
    (h : ∀ a, P.Answers [⟨q, a⟩] → (next a).FitsIn P k) : (Course.ask q next).FitsIn P k := by
  intro xs n hxs hn
  rcases hn.taken rfl with ⟨-, rfl⟩ | ⟨a, ys, rfl, hnext⟩
  · exact Nat.zero_le k
  · exact h a hxs.head ys n hxs.tail hnext

/-- A node needs what it does on a connection that has not been canceled. -/
theorem eval {c : Connection} {e : Effect S} (h : (e.move c).FitsIn P k) :
    (Course.eval c e).FitsIn P k := by
  intro xs n hxs hn
  rcases hn.taken rfl with ⟨-, rfl⟩ | ⟨a, ys, rfl, hnext⟩
  · exact Nat.zero_le k
  · cases a with
    | true => exact abort ys n hxs.tail hnext
    | false => exact h ys n hxs.tail hnext

/-- A sequence needs one frame more than its source, or what the frame makes of an exit, whatever
is more: the frame is gone when its effect is met. -/
theorem seq {frame : Frame S} (hm : m.FitsIn P k)
    (h : ∀ c o, (frame.move c o).FitsIn P (k + 1)) : (Course.seq m frame).FitsIn P (k + 1) := by
  intro xs n hxs hn
  have hseq : Proceeds ((Course.seq m frame).within []) xs n := hn
  rcases hseq.of_seq with
    ⟨m', hm', rfl⟩ | ⟨ys, zs, m', c, o, rfl, hm', hexit, hrest⟩
  · have hlength := hm xs m' hxs hm'
    simpa [Course.front] using hlength
  · exact h c o zs n hxs.right hrest

/-- An outcome needs no frame. -/
theorem completion (c : Connection) (o : Outcome) : (Course.completion c o).FitsIn P k := by
  cases o with
  | ok v => exact eval (exit c _)
  | error e => exact eval (exit c _)

end Course.FitsIn

namespace Effect.FitsIn

variable {P : Program S σ} {k : Nat} {e : Effect S}

theorem pure (v : Value) : (Effect.pure v : Effect S).FitsIn P k :=
  fun c => .eval (.exit c _)

/-- A registration is run when all its frames are parked, and needs none. -/
theorem async (f : S.Registration) : (Effect.async f).FitsIn P k :=
  fun c => .eval (.ask fun o _ => .completion c o)

/-- A source with a frame that waits for it needs one frame more than the source, or what the
frame makes of an exit, whatever is more. -/
theorem bind {frame : Frame S} (he : e.FitsIn P k)
    (h : ∀ c o, (frame.move c o).FitsIn P (k + 1)) : (Effect.bind e frame).FitsIn P (k + 1) :=
  fun c => .eval (.seq (he c) h)

/-- What code makes of a value needs no more frames than the effects that the code returns. -/
theorem flatMap {f : S.Bind} (he : e.FitsIn P k)
    (h : ∀ v, (P.bind f v).Returns (Effect.FitsIn P (k + 1))) :
    (e.flatMap f).FitsIn P (k + 1) := by
  refine bind he fun c o => ?_
  cases o with
  | error failure => exact .exit c _
  | ok v =>
      refine .ask fun a ha => ?_
      have hyields := ha.yields
      cases a with
      | error failure => exact .completion c (.error failure)
      | ok e' => exact (h v).of_canReturn hyields c

/-- What code makes of a failure needs no more frames than the effects that the code returns. -/
theorem handleErrorWith {f : S.Handler} (he : e.FitsIn P k)
    (h : ∀ failure, (P.handler f failure).Returns (Effect.FitsIn P (k + 1))) :
    (e.handleErrorWith f).FitsIn P (k + 1) := by
  refine bind he fun c o => ?_
  cases o with
  | ok v => exact .exit c _
  | error failure =>
      refine .ask fun a ha => ?_
      have hyields := ha.yields
      cases a with
      | error failure' => exact .completion c (.error failure')
      | ok e' => exact (h failure).of_canReturn hyields c

/-- A region that cancellation does not reach needs one frame more than its source. -/
theorem uncancelable (he : e.FitsIn P k) : e.uncancelable.FitsIn P (k + 1) :=
  fun _ => .eval (.eval (.seq (he _) fun _ o => .eval (.completion _ o)))

end Effect.FitsIn

/-! ## The stacks of a run -/

/-- The machine keeps frames of a run in this stack: it is that of its loop or of its armed
bridge while the run goes on, or it is in its bridge at any time. -/
def Stacked (r : Origin S) (st : Story S) (s : State S σ) (stack : CallStack (Frame S)) : Prop :=
  (st.outcomes = [] ∧ st.lost = false ∧ ∃ c, Active r st s c stack) ∨
    ∃ i b, st.bridge = some i ∧ s.world.bridges[i]? = some b ∧ b.stack = stack

namespace Tracks

variable {P : Program S σ} {r : Origin S} {s : State S σ} {st : Story S}

/-- The frames of a run that goes on are those within which its evaluation stands. -/
theorem proceeds_of_active (h : Tracks P r s st) {c : Connection} {stack : CallStack (Frame S)}
    (hactive : Active r st s c stack) (hout : st.outcomes = []) (hlost : st.lost = false) :
    ∃ m : Course S, Proceeds r.course st.exchanges (m.within stack.toList) := by
  have hpending := h.of_active hactive hout hlost
  cases h with
  | @turn w act below _ run m stands proceeds home live resumed =>
      have place : (State.running w act below).activations = [] ++ act :: below := rfl
      obtain ⟨-, rfl⟩ := home.of_active place (stands.every stands.loop?_eq) (by simp) hactive
      exact ⟨m, proceeds⟩
  | calling place serves waits idle proceeds home live resumed =>
      obtain ⟨-, rfl⟩ := home.of_active place (serves.mono fun a ha => ha.loop?_eq) idle hactive
      exact ⟨_, proceeds⟩
  | suspended idle holds bridge parks completes proceeds live resumed suspends =>
      rcases hpending with ⟨_, _, _, _, _, _, _, _, _, hnone⟩ | ⟨q, next, -, -, -, hp⟩
      · cases live.pending.symm.trans hnone
      · exact ⟨_, hp⟩
  | delivered outcomes ending evaluates pending lost still numbered resumed =>
      simp [outcomes] at hout
  | lost outcomes lost pending evaluates still numbered resumed => simp [hlost] at lost

/-- What is in the bridge of a run is nothing, or the frames of the run, which is parked. -/
theorem bridge_stack (h : Tracks P r s st) {i : Nat} {b : Bridge S} (hi : st.bridge = some i)
    (hb : s.world.bridges[i]? = some b) :
    b.stack = .empty ∨ st.outcomes = [] ∧ st.lost = false ∧ ∃ c, Active r st s c b.stack := by
  have hhome : ∀ {below : List (Activation S σ)} {run : Loop S},
      Home r st s.world below run → b.stack = .empty := by
    intro below run home
    cases hb.symm.trans (home.of_bridge hi).2
    rfl
  have hstill : ∀ {t : Option (Terminal S)}, (∀ j, st.bridge = some j → Still j t s) →
      b.stack = .empty := by
    intro t still
    obtain ⟨c, n, holds⟩ := (still i hi).holds
    cases hb.symm.trans holds
    rfl
  cases h with
  | turn stands proceeds home live resumed => exact .inl (hhome home)
  | calling place serves waits idle proceeds home live resumed => exact .inl (hhome home)
  | delivered outcomes ending evaluates pending lost still numbered resumed =>
      exact .inl (hstill still)
  | lost outcomes lost pending evaluates still numbered resumed => exact .inl (hstill still)
  | suspended idle holds bridge parks completes proceeds live resumed suspends =>
      rw [hi, Option.some.injEq] at bridge
      subst bridge
      cases hb.symm.trans holds
      exact .inr ⟨live.outcomes, live.lost, _, .inr ⟨i, _, _, hi, holds, rfl, rfl, rfl⟩⟩

end Tracks

/-- No stack of a run gets longer than its evaluation needs. -/
theorem Follows.length_le {P : Program S σ} {r : Origin S} {s : State S σ} {st : Story S}
    (h : Follows P r s st) {k : Nat} (hk : r.course.FitsIn P k) {stack : CallStack (Frame S)}
    (hs : Stacked r st s stack) : stack.length ≤ k := by
  have hactive : ∀ {c : Connection} {stack : CallStack (Frame S)}, Active r st s c stack →
      st.outcomes = [] → st.lost = false → stack.length ≤ k := by
    intro c stack ha hout hlost
    obtain ⟨m, hm⟩ := h.tracks.proceeds_of_active ha hout hlost
    have hlength := hk _ _ ⟨r, s, st, h, List.infix_rfl⟩ hm
    rw [Course.front_within, List.length_append] at hlength
    rw [CallStack.length_eq]
    omega
  rcases hs with ⟨hout, hlost, c, ha⟩ | ⟨i, b, hi, hb, rfl⟩
  · exact hactive ha hout hlost
  · rcases h.tracks.bridge_stack hi hb with hempty | ⟨hout, hlost, c, ha⟩
    · rw [hempty]
      exact Nat.zero_le k
    · exact hactive ha hout hlost

/-! ## Recursion -/

/-- A round of a recursion: until the last, it is the body of the round, and the code after it
goes on with the next round.  The last is a value. -/
def Effect.recursion (body : Nat → Effect S) (next : Nat → S.Bind) (last : Value)
    (rounds i : Nat) : Effect S :=
  if i < rounds then (body i).flatMap (next i) else .pure last

section Recursion

variable {P : Program S σ} {body : Nat → Effect S} {next : Nat → S.Bind} {last : Value}
  {rounds k : Nat}

/-- A recursion needs one frame more than its bodies, from any round on. -/
theorem Effect.FitsIn.recursion (hbody : ∀ i < rounds, (body i).FitsIn P k)
    (hnext : ∀ i < rounds, ∀ v, (P.bind (next i) v).Returns
      (· = Effect.recursion body next last rounds (i + 1))) (i : Nat) :
    (Effect.recursion body next last rounds i).FitsIn P (k + 1) := by
  -- The round that comes next has fewer rounds to come.
  induction hleft : rounds - i generalizing i with
  | zero =>
      rw [Effect.recursion, if_neg (by omega)]
      exact pure last
  | succ left ih =>
      have hi : i < rounds := by omega
      rw [Effect.recursion, if_pos hi]
      refine flatMap (hbody i hi) fun v => (hnext i hi v).mono ?_
      rintro _ rfl
      exact ih (i + 1) (by omega)

/-- A recursion runs in a bounded stack: if no body needs more than `k` frames by itself, then at
every moment of a run of the recursion neither the loop of the run nor its bridge has more than
`k + 1`, however many rounds there are. -/
theorem Follows.recursion_length_le (hbody : ∀ i < rounds, (body i).FitsIn P k)
    (hnext : ∀ i < rounds, ∀ v, (P.bind (next i) v).Returns
      (· = Effect.recursion body next last rounds (i + 1)))
    {r : Origin S} (effect : r.effect = Effect.recursion body next last rounds 0)
    (fresh : r.stack.toList = []) {s : State S σ} {st : Story S} (h : Follows P r s st)
    {stack : CallStack (Frame S)} (hs : Stacked r st s stack) : stack.length ≤ k + 1 := by
  refine h.length_le ?_ hs
  rw [Origin.course, effect, fresh]
  exact Effect.FitsIn.recursion hbody hnext 0 r.connection

end Recursion

/-! ## A small host -/

namespace Rounds

/-- The names of a host whose effects suspend, recover, and go on with their next round. -/
def closures : Closures where
  Thunk := Empty
  Delay := Empty
  Registration := Unit
  Body := Empty
  Bind := Nat
  Map := Empty
  Handler := Unit
  Rescue := Empty
  Modify := Empty
  Restore := Empty
  Token := Empty
  Terminal := Unit
  Task := Empty
  Executor := Empty

/-- The body of a round: on a connection of its own it suspends, fails, and recovers. -/
def body (_ : Nat) : Effect closures :=
  .uncancelable (.handleErrorWith (.async ()) ())

/-- Two rounds of it. -/
def effect (i : Nat) : Effect closures :=
  .recursion body id .null 2 i

/-- The code of that host.  A registration completes its callback with a failure. -/
def program : Program closures Unit where
  thunk := nofun
  delay := nofun
  registration _ _ cb := .perform (.complete cb (.error .cancelled))
  body := nofun
  bind (i : Nat) _ := .done (effect (i + 1))
  map := nofun
  handler _ _ := .done .unit
  rescue := nofun
  modify := nofun
  restore := nofun
  token := nofun
  terminal _ _ := .done ()
  task := nofun
  executor := nofun
  observe _ host := host

/-- A run of both rounds, with the code that has started it below. -/
def origin : Origin closures where
  effect := effect 0
  connection := .cancelable 0
  stack := .empty
  terminal := .user ()
  depth := 1

/-- So many steps of the run, with its story. -/
def play (n : Nat) : State closures Unit × Story closures :=
  chronicle program 1 n
    (.running (.initial () "main") origin.activation [.code (.done ())], .beginning)

theorem follows_play (n : Nat) : Follows program origin (play n).1 (play n).2 :=
  Follows.chronicle (.start (.next (.start () "main"
    (.perform (.run (effect 0) (.cancelable 0) (.user ()))))) rfl) n

/-- A body needs two frames: one for its handler, one for the end of its region. -/
theorem fits_body (i : Nat) : (body i).FitsIn program 2 := by
  have hsource : Effect.FitsIn program 0 (.async ()) := Effect.FitsIn.async (S := closures) ()
  exact .uncancelable (hsource.handleErrorWith fun _ => .pure .null)

/-- In the second round the three frames of a round are parked in the bridge. -/
theorem recursion_rounds : ∃ b, (play 23).1.world.bridges[0]? = some b ∧ b.armed = some 2 ∧
    b.stack.length = 3 ∧ b.stack.length ≤ 2 + 1 := by
  refine ⟨_, rfl, rfl, rfl, ?_⟩
  exact Follows.recursion_length_le (fun i _ => fits_body i) (fun i _ v => rfl) rfl rfl
    (follows_play 23) (.inr ⟨0, _, rfl, rfl, rfl⟩)

end Rounds

end Trampoline
