import Trampoline.Proofs.Frames.Conservation
import Trampoline.Proofs.Frames.Names

/-!
# The lifetimes of frames

A run is followed together with the tally of its frames.  The tally is no more than a record of
what the machine does: a frame that is pushed is pushed on the stack of a loop, a frame that takes
an exit has its code started with just that exit, the frames that an exit passes or that a
cancellation gives up are gone without any code of theirs.

Main definitions and results:

- Definition `FollowsWithTally`: a run with the tally of its frames.
- Definition `Handles`, theorem `FollowsWithTally.handles`: what a step does with the frames of a
  run.
- Definition `Conserved`: what is known of the frames and the closures of a run.
- Theorem `FollowsWithTally.conserved`: every frame is used once, for what it can do, and no closure
  twice.
-/

namespace Trampoline

variable {S : Closures} {σ : Type}

/-- A run that is followed from its start, with the tally of its frames. -/
inductive FollowsWithTally (P : Program S σ) (r : Origin S) : State S σ → Story S → Tally S → Prop
  | start {w : World S σ} {rest : List (Activation S σ)}
      (h : State.Reachable P (.running w r.activation rest)) (depth : rest.length = r.depth) :
      FollowsWithTally P r (.running w r.activation rest) .beginning (.opening r.stack.toList)
  | next {s : State S σ} {st : Story S} {t : Tally S} (h : FollowsWithTally P r s st t) :
      FollowsWithTally P r (s.next P) (st.next r.depth s) (t.next r.depth st s)
  | again {s : State S σ} {st : Story S} {t : Tally S} (h : FollowsWithTally P r s st t)
      (hs : s.activations = []) (code : Code S σ Unit) :
      FollowsWithTally P r (.start s.world code) st t

/-- So many steps of the machine, with what they add to the story and to the tally. -/
def Tally.chronicle (P : Program S σ) (depth : Nat) :
    Nat → State S σ × Story S × Tally S → State S σ × Story S × Tally S
  | 0, p => p
  | n + 1, (s, st, t) => chronicle P depth n (s.next P, st.next depth s, t.next depth st s)

namespace FollowsWithTally

variable {P : Program S σ} {r : Origin S} {s : State S σ} {st : Story S} {t : Tally S}

theorem follows (h : FollowsWithTally P r s st t) : Follows P r s st := by
  induction h with
  | start h depth => exact .start h depth
  | next h ih => exact ih.next
  | again h hs code ih => exact ih.again hs code

/-- Every run that is followed has a tally. -/
theorem of_follows (h : Follows P r s st) : ∃ t, FollowsWithTally P r s st t := by
  induction h with
  | start h depth => exact ⟨_, .start h depth⟩
  | next h ih =>
      obtain ⟨t, ht⟩ := ih
      exact ⟨_, ht.next⟩
  | again h hs code ih =>
      obtain ⟨t, ht⟩ := ih
      exact ⟨t, ht.again hs code⟩

theorem chronicle (h : FollowsWithTally P r s st t) (n : Nat) :
    let p := Tally.chronicle P r.depth n (s, st, t)
    FollowsWithTally P r p.1 p.2.1 p.2.2 := by
  induction n generalizing s st t with
  | zero => exact h
  | succ n ih => exact ih h.next

/-- The tally of a run is right at any time. -/
theorem right (h : FollowsWithTally P r s st t) : t.Right r s st := by
  induction h with
  | start h depth => exact .start depth
  | next h ih => exact ih.next h.follows.tracks h.follows.reachable.bounded
  | @again s st t h hs code ih =>
      refine ⟨ih.sound, fun hout hlost => ?_, ih.emptied, ih.abandoned⟩
      obtain ⟨frames, ⟨c, stack, hactive, rfl⟩, hh⟩ := ih.awaits hout hlost
      -- Without activations, the frames are in the bridge, and the world is the same.
      rcases hactive with ⟨above, act, below, place, -⟩ | hparked
      · simp [hs] at place
      · exact ⟨_, ⟨c, stack, .inr hparked, rfl⟩, hh⟩

end FollowsWithTally

/-! ## What a step does with the frames -/

/-- A loop exits from a node. -/
inductive Activation.Exits (w : World S σ) (run : Loop S) : Activation S σ → Outcome → Prop
  | value (v : Value) : Exits w run (.value (.loop run) v) (.ok v)
  | fail (e : Failure) (look : w.connections.isCanceled run.connection = false) :
      Exits w run (.eval (.loop run) (.fail e)) (.error e)

namespace Tally

/-- So many frames leave from the top. -/
theorem removes_eq (t : Tally S) (use : Departure) (count : Nat) : t.removes use count =
    ⟨t.moves ++ (t.waiting.take count).map (.leave · use), t.waiting.drop count⟩ := by
  induction count generalizing t with
  | zero => simp [removes]
  | succ count ih =>
      rw [removes, ih]
      cases hwaiting : t.waiting with
      | nil => simp [remove, hwaiting]
      | cons n rest => simp [remove_eq hwaiting]

end Tally

/-- What a step of the machine does with the frames of a run. -/
inductive Handles (P : Program S σ) : State S σ → State S σ → Tally S → Tally S → Prop
  /-- The frames stay as they are. -/
  | keeps (s s' : State S σ) (t : Tally S) : Handles P s s' t t
  /-- A loop pushes the frame of a node on its stack. -/
  | pushes {w : World S σ} {run : Loop S} {node source : Effect S} {frame : Frame S}
      {rest : List (Activation S σ)} {t : Tally S}
      (hnode : node = .bind source frame ∨ ∃ f, node = .map source f ∧ frame = .map f) :
      Handles P (.running w (.eval (.loop run) node) rest)
        (.running w (.eval (.loop { run with stack := run.stack.push frame }) source) rest)
        t (t.push frame)
  /-- A loop exits to a frame: the frames above leave, with no code of theirs run, and so does the
  frame, whose code is started with the exit. -/
  | gives {w : World S σ} {act : Activation S σ} {rest : List (Activation S σ)} {run : Loop S}
      {o : Outcome} {stack : CallStack (Frame S)} {passed waiting : List Nat} {n : Nat}
      {frame : Frame S} {t : Tally S} (exits : act.Exits w run o)
      (waits : t.waiting = passed ++ n :: waiting) (pushed : t.frames[n]? = some frame) :
      Handles P (.running w act rest)
        (.running w (.node (.loop { run with stack := stack }) (P.resolve frame o)) rest) t
        ⟨t.moves ++ passed.map (.leave · (.passing o)) ++ [.leave n (.taking o)], waiting⟩
  /-- A loop exits past all frames, and the run delivers the exit. -/
  | delivers {w : World S σ} {act : Activation S σ} {rest : List (Activation S σ)} {run : Loop S}
      {o : Outcome} {stack : CallStack (Frame S)} {t : Tally S} (exits : act.Exits w run o) :
      Handles P (.running w act rest) (.finish P w { run with stack := stack } o rest) t
        ⟨t.moves ++ t.waiting.map (.leave · (.passing o)), []⟩
  /-- A loop finds that its connection has been canceled, and all frames are given up. -/
  | abandons {w w' : World S σ} {run : Loop S} {node : Effect S} {rest : List (Activation S σ)}
      {t : Tally S} (look : w.connections.isCanceled run.connection = true) :
      Handles P (.running w (.eval (.loop run) node) rest)
        (.finish P w' run (.error .cancelled) rest) t
        ⟨t.moves ++ t.waiting.map (.leave · .abandoned), []⟩

namespace Tally.Sound

variable {P : Program S σ} {t : Tally S} {w : World S σ} {run : Loop S}

/-- An exit is handled as the machine handles it. -/
theorem leaves (h : t.Sound) (hh : t.Holds run.stack.toList) {act : Activation S σ} {o : Outcome}
    (exits : act.Exits w run o) (below : List (Activation S σ)) :
    Handles P (.running w act below) (State.leave P w run o below) t (t.exit run.stack o) := by
  unfold State.leave
  cases htake : run.stack.takeFor o with
  | mk frame stack =>
      cases frame with
      | some frame =>
          obtain ⟨count, n, rest, hexit, hwaiting, hframe, -⟩ := h.exit_some hh htake
          rw [hexit, remove_eq hwaiting]
          rw [removes_eq] at hwaiting ⊢
          refine .gives exits ?_ hframe
          rw [← hwaiting]
          exact (List.take_append_drop count t.waiting).symm
      | none =>
          obtain ⟨count, hexit, -, hempty⟩ := h.exit_none hh htake
          have hwaiting : (t.exit run.stack o).waiting = [] := List.map_eq_nil_iff.mp hempty
          rw [hexit, removes_eq] at hwaiting ⊢
          have hdrop : t.waiting.drop count = [] := hwaiting
          rw [hdrop, List.take_of_length_le (List.drop_eq_nil_iff.mp hdrop)]
          exact .delivers exits

/-- A loop in front of a node handles the frames as the machine does. -/
theorem evaluates (h : t.Sound) (hh : t.Holds run.stack.toList) (node : Effect S)
    (below : List (Activation S σ)) :
    Handles P (.running w (.eval (.loop run) node) below) (State.eval P w (.loop run) node below)
      t (t.turn w (.eval (.loop run) node : Activation S σ)) := by
  simp only [State.eval, Tally.turn]
  cases hc : w.connections.isCanceled run.connection with
  | true =>
      simp only [if_true]
      have habandon : t.abandon = ⟨t.moves ++ t.waiting.map (.leave · .abandoned), []⟩ := by
        simp [Tally.abandon, removes_eq]
      rw [habandon]
      exact .abandons hc
  | false =>
      simp only [Bool.false_eq_true, if_false]
      cases node with
      | fail e =>
          rw [State.reduce_fail_eq_leave]
          exact h.leaves hh (.fail e hc) below
      | bind source frame => exact .pushes (.inl rfl)
      | map source f => exact .pushes (.inr ⟨f, rfl, rfl⟩)
      | _ => exact .keeps _ _ t

end Tally.Sound

/-- A step does with the frames of a run what the tally says. -/
theorem FollowsWithTally.handles {P : Program S σ} {r : Origin S} {s : State S σ} {st : Story S}
    {t : Tally S} (h : FollowsWithTally P r s st t) :
    Handles P s (s.next P) t (t.next r.depth st s) := by
  cases s with
  | returned w => exact .keeps _ _ t
  | unwound w payload => exact .keeps _ _ t
  | running w top rest =>
      cases hturn : st.takesTurn r.depth top rest with
      | false =>
          simp only [Tally.next, hturn, Bool.false_eq_true, if_false]
          exact .keeps _ _ t
      | true =>
          simp only [Tally.next, hturn, if_true]
          rcases h.follows.tracks.turn_cases with hno | ⟨run, hrun, home, ⟨m, stands, live, -⟩ | hs⟩
          · simp [hturn] at hno
          · obtain ⟨frames, hawaiting, hh⟩ := h.right.awaits live.outcomes live.lost
            obtain rfl := h.follows.tracks.awaiting_unique live.outcomes live.lost hawaiting
              (home.awaiting hrun)
            cases stands with
            | eval _ e => exact h.right.sound.evaluates hh e rest
            | value _ v =>
                rw [State.next, State.work, State.value_eq_leave]
                exact h.right.sound.leaves hh (.value v) rest
            | node _ e => exact .keeps _ _ t
            | switch _ source restore new => exact .keeps _ _ t
          · obtain ⟨q, next, serves, -⟩ := hs
            obtain ⟨_, holder, code, rfl, -⟩ := serves.wrap
            have htally : t.turn w (holder.wrap code) = t := by cases holder <;> rfl
            rw [htally]
            exact .keeps _ _ t

/-! ## What is known of the frames of a run -/

/-- The frames and the closures of a run are conserved. -/
structure Conserved (P : Program S σ) (r : Origin S) (s : State S σ) (st : Story S)
    (t : Tally S) : Prop where
  /-- Each frame that has been pushed is left or has left, not both, and only once; it has left
  after all that were pushed later, in a way that fits it. -/
  sound : t.Sound
  /-- Until the run comes to its end, the frames that the tally says are left are those that wait
  for the run, in its loop or in its bridge. -/
  awaits : st.outcomes = [] → st.lost = false →
    (∃ frames, Awaiting r st s frames) ∧ ∀ frames, Awaiting r st s frames → t.Holds frames
  /-- A run that has delivered has no frame left: each has left, once.  Its bridge is empty, and
  nothing works for it. -/
  emptied : st.outcomes ≠ [] → t.waiting = [] ∧ (∀ n < t.frames.length, t.left.count n = 1) ∧
    ∀ i, st.bridge = some i → Still i none s
  /-- Frames are given up only by a run that has looked at its connection last, has found it
  canceled and has delivered just that. -/
  abandoned : ∀ n, .leave n .abandoned ∈ t.moves → st.outcomes = [.error .cancelled] ∧
    ∃ c, st.exchanges.getLast? = some ⟨.canceled c, true⟩
  /-- The tally says what the machine does. -/
  handles : Handles P s (s.next P) t (t.next r.depth st s)
  /-- A question starts the code of its closure. -/
  starts : ∀ q, st.pending = none → (st.next r.depth s).pending = some q →
    q.Started P (st.next r.depth s) (s.next P)
  /-- Each closure that came to the run, in its effect, with its first frames or with an answer, is
  used by one question at most. -/
  closures : ∃ unused, (r.names ++ st.given).Perm (st.used ++ unused)

/-- Every frame of a run is used once and for what it can do, and every closure once at most. -/
theorem FollowsWithTally.conserved {P : Program S σ} {r : Origin S} {s : State S σ} {st : Story S}
    {t : Tally S} (h : FollowsWithTally P r s st t) : Conserved P r s st t where
  sound := h.right.sound
  awaits := by
    intro hout hlost
    obtain ⟨frames, hawaiting, hh⟩ := h.right.awaits hout hlost
    exact ⟨⟨frames, hawaiting⟩, fun frames' hawaiting' =>
      h.follows.tracks.awaiting_unique hout hlost hawaiting hawaiting' ▸ hh⟩
  emptied := by
    intro hout
    have hempty := h.right.emptied hout
    refine ⟨hempty, fun n hn => ?_, fun i hi => ?_⟩
    · have honce := h.right.sound.once n
      rw [hempty, if_pos hn] at honce
      simpa using honce
    · exact h.follows.tracks.still_of_delivered hout i hi
  abandoned := h.right.abandoned
  handles := h.handles
  starts := fun _ hnone hq => h.follows.tracks.starts h.follows.reachable.bounded hnone hq
  closures := h.follows.tracks.conserves

/-! ## A stack that is left in all ways -/

namespace Stair

/-- The names of a host that registers, fails after a value, maps, and recovers with a value. -/
def closures : Closures where
  Thunk := Empty
  Delay := Empty
  Registration := Unit
  Body := Empty
  Bind := Failure
  Map := Unit
  Handler := Value
  Rescue := Empty
  Modify := Empty
  Restore := Empty
  Token := Empty
  Terminal := Unit
  Task := Empty
  Executor := Empty

/-- The code of that host.  A registration completes its callback twice. -/
def program : Program closures Unit where
  thunk := nofun
  delay := nofun
  registration _ _ cb :=
    .command (.complete cb (.ok (.bool false))) fun _ => .perform (.complete cb (.ok .null))
  body := nofun
  bind e _ := .done (.fail e)
  map _ v := .done v
  handler v _ := .done (.pure v)
  rescue := nofun
  modify := nofun
  restore := nofun
  token := nofun
  terminal _ _ := .done ()
  task := nofun
  executor := nofun
  observe _ host := host

/-- A value that passes a handler and is given to a bind, whose failure passes a map and is given
to a handler, whose value is mapped. -/
def effect : Effect closures :=
  .map (.handleErrorWith (.map (.flatMap (.handleErrorWith (.async ()) (.bool false)) .cancelled)
    ()) (.bool true)) ()

/-- A run of that effect, with the code that has started it below. -/
def origin : Origin closures where
  effect := effect
  connection := .uncancelable
  stack := .empty
  terminal := .user ()
  depth := 1

/-- So many steps of the run, with its story and the tally of its frames. -/
def play (n : Nat) : State closures Unit × Story closures × Tally closures :=
  Tally.chronicle program 1 n
    (.running (.initial () "main") origin.activation [.code (.done ())], .beginning, .empty)

theorem counts_play (n : Nat) :
    FollowsWithTally program origin (play n).1 (play n).2.1 (play n).2.2 :=
  FollowsWithTally.chronicle (.start (.next (.start () "main"
    (.perform (.run effect .uncancelable (.user ()))))) rfl) n

/-- Five frames wait while the registration runs.  All have left when the run delivers, the one
that was pushed last first, and the second completion of the callback finds none. -/
theorem conserved_stair :
    (play 6).2.2.waiting = [4, 3, 2, 1, 0] ∧ (play 6).2.2.left = [] ∧
      (play 24).2.2.moves.drop 5 =
        [.leave 4 (.skipped (.bool false)), .leave 3 (.applied (.bool false)),
          .leave 2 (.unwound .cancelled), .leave 1 (.recovered .cancelled),
          .leave 0 (.applied (.bool true))] ∧
      (play 24).2.1.outcomes = [.ok (.bool true)] ∧
      Conserved program origin (play 24).1 (play 24).2.1 (play 24).2.2 :=
  ⟨rfl, rfl, rfl, rfl, (counts_play 24).conserved⟩

end Stair

end Trampoline
