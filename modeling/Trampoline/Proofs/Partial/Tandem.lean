import Trampoline.Proofs.Partial.Unhindered
import Trampoline.Proofs.Run.Abandonment

/-!
# A run and the run inside of its boundary

What a partial evaluation leaves with frames pending is a boundary.  The run that meets it
suspends, and another run, with a bridge of its own, goes on with the node and the frames
inside; its terminal is the callback of the boundary.  Both are followed in tandem, and their
stories make one.

Main definitions and results:

- Definitions `Tandem`, `Tandem.next`, `FollowsWithInner`: both runs followed from the start of the
  one outside.
- Definition `Tandem.completesAlone`: the callback of the boundary is completed by the end of
  the run inside.
- Definition `Tandem.joined`: both stories as one.
- Definition `Tandem.Stage`, theorem `FollowsWithInner.stage`: while the run outside waits, the run
  inside is under way, and its outcome is the answer that the run outside goes on with.
-/

namespace Trampoline

variable {S : Closures} {σ : Type}

/-! ## Both runs -/

/-- The callback to which an outcome goes. -/
def Terminal.callback? : Terminal S → Option Callback
  | complete cb => some cb
  | user _ => none

/-- What the run inside starts with, if a run has just suspended at a boundary. -/
def Story.inside? (st : Story S) (depth : Nat) : Option (Origin S) :=
  match st.pending, st.callbacks.getLast? with
  | some (.parked node stack c), some cb => some ⟨node, c, stack, .complete cb, depth⟩
  | _, _ => none

/-- A run that comes to a boundary, and the run inside of that. -/
structure Tandem (S : Closures) where
  outer : Story S
  /-- What the run inside has started with, and what is known of it. -/
  inner : Option (Origin S × Story S)

namespace Tandem

/-- The run outside has just started. -/
def beginning : Tandem S where
  outer := .beginning
  inner := none

/-- What the next step of the machine adds to both stories. -/
def next (P : Program S σ) (t : Tandem S) (depth : Nat) (s : State S σ) : Tandem S where
  outer := t.outer.next depth s
  inner :=
    match t.inner with
    | some (r, st) => some (r, st.next r.depth s)
    | none =>
      ((t.outer.next depth s).inside? ((s.next P).activations.length - 1)).map
        fun r => (r, .beginning)

/-- If the next step completes the callback of the boundary, the run inside comes to its end
with it. -/
def completesAlone (t : Tandem S) : State S σ → Bool
  | .running w top rest =>
    match t.inner, top.completion? w with
    | some (r, st), some (cb, _) =>
      !(w.isArmed cb && r.terminal.callback? == some cb) ||
        (st.takesTurn r.depth top rest && (top.exit? w).isSome)
    | _, _ => true
  | .returned _ | .unwound _ _ => true

end Tandem

/-- A run followed from its start, with the run inside of the first boundary to which it comes,
whose callback is completed by nothing else. -/
inductive FollowsWithInner (P : Program S σ) (r : Origin S) : State S σ → Tandem S → Prop
  | start {w : World S σ} {rest : List (Activation S σ)}
      (h : State.Reachable P (.running w r.activation rest)) (depth : rest.length = r.depth) :
      FollowsWithInner P r (.running w r.activation rest) .beginning
  | next {s : State S σ} {t : Tandem S} (h : FollowsWithInner P r s t)
      (alone : t.completesAlone s = true) :
      FollowsWithInner P r (s.next P) (t.next P r.depth s)
  | again {s : State S σ} {t : Tandem S} (h : FollowsWithInner P r s t) (hs : s.activations = [])
      (code : Code S σ Unit) : FollowsWithInner P r (.start s.world code) t

theorem FollowsWithInner.follows {P : Program S σ} {r : Origin S} {s : State S σ} {t : Tandem S}
    (h : FollowsWithInner P r s t) : Follows P r s t.outer := by
  induction h with
  | start h depth => exact .start h depth
  | next h alone ih => exact ih.next
  | again h hs code ih => exact ih.again hs code

/-- So many steps of the machine, with what they add to both stories. -/
def Tandem.chronicle (P : Program S σ) (depth : Nat) :
    Nat → State S σ × Tandem S → State S σ × Tandem S
  | 0, x => x
  | n + 1, (s, t) => chronicle P depth n (s.next P, t.next P depth s)

/-- Both runs can be followed further as long as the callback of the boundary is completed by
nothing else. -/
theorem FollowsWithInner.chronicle {P : Program S σ} {r : Origin S} {s : State S σ} {t : Tandem S}
    (h : FollowsWithInner P r s t) (n : Nat)
    (alone : ∀ k < n, (Tandem.chronicle P r.depth k (s, t)).2.completesAlone
      (Tandem.chronicle P r.depth k (s, t)).1 = true) :
    FollowsWithInner P r (Tandem.chronicle P r.depth n (s, t)).1
      (Tandem.chronicle P r.depth n (s, t)).2 := by
  induction n generalizing s t with
  | zero => exact h
  | succ n ih =>
      exact ih (h.next (alone 0 (Nat.zero_lt_succ n)))
        fun k hk => alone (k + 1) (Nat.succ_lt_succ hk)

/-! ## Both stories as one -/

/-- The story of a run with what the run inside of its boundary has done in place of the
boundary. -/
def Story.around (outer inner : Story S) : Story S :=
  { outer with
    exchanges := outer.exchanges.takeWhile Exchange.isLook ++ inner.exchanges ++
      (outer.exchanges.dropWhile Exchange.isLook).tail
    pending := if inner.outcomes.isEmpty then inner.pending else outer.pending }

/-- Both runs as one. -/
def Tandem.joined (t : Tandem S) : Story S :=
  match t.inner with
  | none => t.outer
  | some (_, st) => t.outer.around st

/-- The first looks say nothing, and then comes the first that is no look. -/
theorem spoken_split (xs : List (Exchange S)) :
    spoken (xs.takeWhile Exchange.isLook) = [] ∧
      spoken (xs.dropWhile Exchange.isLook).tail = (spoken xs).tail := by
  induction xs with
  | nil => exact ⟨rfl, rfl⟩
  | cons x xs ih =>
      cases hx : x.isLook with
      | true =>
          have hspoken : spoken (x :: xs) = spoken xs := by simp [spoken, hx]
          have htake : spoken (x :: xs.takeWhile Exchange.isLook) =
              spoken (xs.takeWhile Exchange.isLook) := by simp [spoken, hx]
          rw [List.takeWhile_cons_of_pos hx, List.dropWhile_cons_of_pos hx, hspoken, htake]
          exact ih
      | false =>
          rw [List.takeWhile_cons_of_neg (by simp [hx]), List.dropWhile_cons_of_neg (by simp [hx]),
            spoken_cons hx]
          exact ⟨rfl, rfl⟩

/-! ## The end of the run inside -/

/-- A loop that comes to its end completes the callback to which its outcome goes. -/
theorem Activation.completion?_of_exit? {w : World S σ} {a : Activation S σ} {run : Loop S}
    {o : Outcome} {cb : Callback} (hrun : a.loop? = some run) (ho : a.exit? w = some o)
    (ht : w.terminal? run.outlet = some (.complete cb)) : a.completion? w = some (cb, o) := by
  cases a with
  | eval d n =>
      cases d with
      | loop run' =>
          cases hrun
          exact State.completion?_eval ho ht
      | partially stack resume => cases hrun
  | value d v =>
      cases d with
      | loop run' =>
          cases hrun
          exact State.completion?_value ho ht
      | partially stack resume => cases hrun
  | _ => cases ho

/-- A loop in its home delivers to the terminal of the run. -/
theorem Home.terminal?_eq {r : Origin S} {st : Story S} {w : World S σ}
    {below : List (Activation S σ)} {run : Loop S} (home : Home r st w below run) :
    w.terminal? run.outlet = some r.terminal := by
  cases home with
  | direct bridge parks outlet depth => simp [World.terminal?, outlet]
  | bridged i bridge outlet holds idle => simp [World.terminal?, outlet, holds]

namespace Tracks

variable {P : Program S σ} {r : Origin S} {st : Story S} {w : World S σ} {top : Activation S σ}
  {rest : List (Activation S σ)}

/-- A step adds an outcome if it is a turn in which the loop comes to its end, and then it
completes the callback to which the outcome goes. -/
theorem next_exits (h : Tracks P r (.running w top rest) st) {cb : Callback}
    (hcb : r.terminal = .complete cb) (hout : st.outcomes = []) :
    (st.next r.depth (.running w top rest)).outcomes = [] ∧
        ¬(st.takesTurn r.depth top rest = true ∧ (top.exit? w).isSome = true) ∨
      ∃ o, (st.next r.depth (.running w top rest)).outcomes = [o] ∧
        top.completion? w = some (cb, o) := by
  cases hturn : st.takesTurn r.depth top rest with
  | false => exact .inl ⟨(Story.next_outcomes hturn).trans hout, by simp⟩
  | true =>
      simp only [Story.next, hturn, if_true, st.turn_outcomes w top, hout, List.nil_append]
      cases ho : top.exit? w with
      | none => exact .inl ⟨rfl, by simp⟩
      | some o =>
          rcases h.turn_cases with hno | ⟨run, hrun, home, -⟩
          · rw [hturn] at hno
            cases hno
          · exact .inr ⟨o, rfl, Activation.completion?_of_exit? hrun ho (hcb ▸ home.terminal?_eq)⟩

/-- A suspended run is taken up by the completion of its latest callback, and by nothing
else. -/
theorem next_parked (h : Tracks P r (.running w top rest) st) {q : Question S}
    (hq : st.pending = some q) (hs : q.Suspends) (hlost : st.lost = false) {cb : Callback}
    (hlast : st.callbacks.getLast? = some cb) : w.isArmed cb = true ∧
      (∀ o, top.completion? w = some (cb, o) →
        st.next r.depth (.running w top rest) = st.resume cb o) ∧
      ((∀ o, top.completion? w ≠ some (cb, o)) → st.next r.depth (.running w top rest) = st) := by
  obtain ⟨i, stack, c, earlier, next, parked⟩ := h.parked_of_suspends hq hs hlost
  have hcallbacks := parked.callbacks
  obtain rfl : (⟨i, earlier.length + 1⟩ : Callback) = cb := by
    rw [hcallbacks, List.getLast?_concat, Option.some.injEq] at hlast
    exact hlast
  have hturn : st.takesTurn r.depth top rest = false :=
    Story.takesTurn_of_bridge parked.bridge (parked.idle top (by simp))
  have harmed : w.isArmed ⟨i, earlier.length + 1⟩ = true := parked.armed
  have honly : ∀ cb', st.bridge = some cb'.bridge ∧ w.isArmed cb' = true →
      cb' = ⟨i, earlier.length + 1⟩ := by
    rintro cb' ⟨hb, ha⟩
    have hsame := (h.armed_iff hb).mp ha
    rw [hcallbacks] at hsame
    simpa using (List.append_inj' hsame rfl).2.symm
  refine ⟨harmed, fun o ho => ?_, fun hno => ?_⟩
  · simp [Story.next, hturn, ho, parked.bridge, harmed]
  · simp only [Story.next, hturn, Bool.false_eq_true, if_false]
    split
    · next cb' o ho =>
        rw [if_neg]
        intro hwins
        obtain rfl := honly cb' hwins
        exact hno o ho
    · rfl

end Tracks

/-! ## How far both have come -/

/-- How far a run has come whose first question is the boundary around a node and a stack, met
on connection `c`. -/
inductive Tandem.Stage (P : Program S σ) (r : Origin S) (node : Effect S)
    (stack : CallStack (Frame S)) (c : Connection) : State S σ → Tandem S → Prop
  /-- It has not come to the boundary. -/
  | before {s : State S σ} {st : Story S} (follows : Follows P r s st)
      (pending : st.pending = none) (silent : spoken st.exchanges = []) :
      Stage P r node stack c s ⟨st, none⟩
  /-- It waits for the run inside, which is under way. -/
  | inside {s : State S σ} {st inner : Story S} {r' : Origin S} {cb : Callback}
      (follows : Follows P r s st) (started : Follows P r' s inner)
      (course : r'.course = (Course.eval c node).within stack.toList)
      (terminal : r'.terminal = .complete cb) (last : st.callbacks.getLast? = some cb)
      (pending : st.pending = some (.parked node stack c)) (lost : st.lost = false)
      (silent : spoken st.exchanges = []) (outcomes : inner.outcomes = []) :
      Stage P r node stack c s ⟨st, some (r', inner)⟩
  /-- The outcome of the run inside is the answer with which it has gone on. -/
  | after {s : State S σ} {st inner : Story S} {r' : Origin S} {o : Outcome}
      {ys : List (Exchange S)} (follows : Follows P r s st) (started : Follows P r' s inner)
      (course : r'.course = (Course.eval c node).within stack.toList)
      (outcomes : inner.outcomes = [o])
      (answered : spoken st.exchanges = ⟨.parked node stack c, o⟩ :: ys) :
      Stage P r node stack c s ⟨st, some (r', inner)⟩

namespace Tandem.Stage

variable {P : Program S σ} {r : Origin S} {node : Effect S} {stack : CallStack (Frame S)}
  {c : Connection}

/-- A run that comes to the boundary starts the run inside. -/
theorem enters {s : State S σ} {st : Story S} (follows : Follows P r s st)
    (pending : st.pending = none)
    (hq : (st.next r.depth s).pending = some (.parked node stack c))
    (hsilent : spoken (st.next r.depth s).exchanges = []) :
    Stage P r node stack c (s.next P) ((⟨st, none⟩ : Tandem S).next P r.depth s) := by
  obtain ⟨w, cb, rest, hlast, harmed, hconnection, hs⟩ :=
    follows.tracks.starts follows.reachable.bounded pending hq
  have hinner : (⟨st, none⟩ : Tandem S).next P r.depth s = ⟨st.next r.depth s,
      some (⟨node, c, stack, .complete cb, rest.length + 1⟩, .beginning)⟩ := by
    simp [Tandem.next, Story.inside?, hq, hlast, hs]
  have hbridge : (st.next r.depth s).bridge = some cb.bridge := by
    rw [List.getLast?_eq_getElem?] at hlast
    exact (follows.next.tracks.numbered.callback hlast).1
  have hlost : (st.next r.depth s).lost = false := by
    refine follows.next.tracks.not_lost_of_armed hbridge ?_
    rw [hs]
    exact harmed
  have hreachable := follows.next.reachable
  rw [hinner]
  rw [hs] at hreachable
  refine .inside follows.next ?_ rfl rfl hlast hq hlost hsilent rfl
  rw [hs]
  exact .start hreachable rfl

/-- A step before the boundary may come to it. -/
theorem next_before {s : State S σ} {st : Story S} {frames : List (Frame S)}
    (follows : Follows P r s st) (pending : st.pending = none) (silent : spoken st.exchanges = [])
    (meets : Unhindered r.course []
      ((Course.ask (.parked node stack c) (Course.completion c)).within frames))
    (hopen : Open (st.next r.depth s).exchanges) :
    Stage P r node stack c (s.next P) ((⟨st, none⟩ : Tandem S).next P r.depth s) := by
  have hsilent : spoken (st.next r.depth s).exchanges = [] := by
    rcases follows.tracks.gains with hsame | ⟨x, hadds, ⟨d, b, rfl⟩ | ⟨hasked, -⟩⟩
    · rw [hsame, silent]
    · rw [hadds, spoken_append, silent]
      rfl
    · rw [pending] at hasked
      cases hasked
  cases hq : (st.next r.depth s).pending with
  | none =>
      have hnone : (⟨st, none⟩ : Tandem S).next P r.depth s = ⟨st.next r.depth s, none⟩ := by
        simp [Tandem.next, Story.inside?, hq]
      rw [hnone]
      exact .before follows.next hq hsilent
  | some q =>
      have hlook : ∀ d, q ≠ .canceled d := by
        rintro d rfl
        exact follows.tracks.starts follows.reachable.bounded pending hq
      obtain ⟨n, hproceeds, rests⟩ := follows.next.tracks.rests
      obtain ⟨next, hn⟩ := rests.pending q hq
      have hcomes := hproceeds.unhindered hopen
      rw [hsilent] at hcomes
      -- What is asked first is the boundary.
      have hmeets := Course.head_within_asks
        (m := Course.ask (.parked node stack c) (Course.completion c)) rfl frames
      obtain rfl := meets.eq_of_asks hcomes hmeets (by simp) hn hlook
      rw [hmeets] at hn
      cases hn
      exact enters follows pending hq hsilent

/-- A step inside of the boundary ends there, or it takes the run outside up with the outcome
of the run inside. -/
theorem next_inside {w : World S σ} {top : Activation S σ} {rest : List (Activation S σ)}
    {st inner : Story S} {r' : Origin S} {cb : Callback}
    (follows : Follows P r (.running w top rest) st)
    (started : Follows P r' (.running w top rest) inner)
    (course : r'.course = (Course.eval c node).within stack.toList)
    (terminal : r'.terminal = .complete cb) (last : st.callbacks.getLast? = some cb)
    (pending : st.pending = some (.parked node stack c)) (lost : st.lost = false)
    (silent : spoken st.exchanges = []) (outcomes : inner.outcomes = [])
    (alone : (⟨st, some (r', inner)⟩ : Tandem S).completesAlone (.running w top rest) = true) :
    Stage P r node stack c (State.next P (.running w top rest))
      ((⟨st, some (r', inner)⟩ : Tandem S).next P r.depth (.running w top rest)) := by
  obtain ⟨harmed, hcompleted, hquiet⟩ := follows.tracks.next_parked pending trivial lost last
  rcases started.tracks.next_exits terminal outcomes with ⟨hout, hno⟩ | ⟨o, hout, hcompletion⟩
  · have hsame := hquiet fun o ho => by
      simp only [completesAlone, ho, harmed, terminal, Terminal.callback?, beq_self_eq_true,
        Bool.and_self, Bool.not_true, Bool.false_or, Bool.and_eq_true] at alone
      exact hno alone
    have hnext := follows.next
    rw [hsame] at hnext
    simp only [Tandem.next, hsame]
    exact .inside hnext started.next course terminal last pending lost silent hout
  · have hresume := hcompleted o hcompletion
    have hspoken : spoken (st.next r.depth (.running w top rest)).exchanges =
        [⟨.parked node stack c, o⟩] := by
      rw [hresume]
      simp only [Story.resume, Story.answer, pending, spoken_append, silent, List.nil_append]
      exact spoken_cons rfl []
    exact .after follows.next started.next course hout hspoken

end Tandem.Stage

/-- A run whose first question is a boundary goes through the stages of it. -/
theorem FollowsWithInner.stage {P : Program S σ} {r : Origin S} {node : Effect S}
    {stack : CallStack (Frame S)} {c : Connection} {frames : List (Frame S)} {s : State S σ}
    {t : Tandem S} (h : FollowsWithInner P r s t) (meets : Unhindered r.course []
      ((Course.ask (.parked node stack c) (Course.completion c)).within frames))
    (hopen : Open t.outer.exchanges) : t.Stage P r node stack c s := by
  induction h with
  | start h depth => exact .before (.start h depth) rfl rfl
  | again h hs code ih =>
      cases ih hopen with
      | before follows pending silent => exact .before (follows.again hs code) pending silent
      | inside follows started course terminal last pending lost silent outcomes =>
          exact .inside (follows.again hs code) (started.again hs code) course terminal last pending
            lost silent outcomes
      | after follows started course outcomes answered =>
          exact .after (follows.again hs code) (started.again hs code) course outcomes answered
  | @next s t h alone ih =>
      have hopened : Open t.outer.exchanges := by
        rcases h.follows.tracks.gains with hsame | ⟨x, hadds, -⟩
        · exact hsame ▸ hopen
        · have hsplit : Open (t.outer.exchanges ++ [x]) := hadds ▸ hopen
          exact hsplit.of_append.1
      cases ih hopened with
      | before follows pending silent => exact .next_before follows pending silent meets hopen
      | inside follows started course terminal last pending lost silent outcomes =>
          cases s with
          | returned w =>
              exact .inside follows.next started.next course terminal last pending lost silent
                outcomes
          | unwound w payload =>
              exact .inside follows.next started.next course terminal last pending lost silent
                outcomes
          | running w top rest =>
              exact .next_inside follows started course terminal last pending lost silent outcomes
                alone
      | @after st inner r' o ys follows started course outcomes answered =>
          have hended : inner.next r'.depth s = inner :=
            Still.story_next (started.tracks.still_of_delivered (by simp [outcomes]))
              (.inl (by simp [outcomes]))
          have hstarted := started.next
          rw [hended] at hstarted
          obtain ⟨zs, hspoken⟩ : ∃ zs, spoken (st.next r.depth s).exchanges =
              ⟨.parked node stack c, o⟩ :: zs := by
            rcases follows.tracks.gains with hsame | ⟨x, hadds, -⟩
            · exact ⟨ys, by rw [hsame, answered]⟩
            · exact ⟨ys ++ spoken [x], by rw [hadds, spoken_append, answered]; rfl⟩
          simp only [Tandem.next, hended]
          exact .after follows.next hstarted course outcomes hspoken

end Trampoline
