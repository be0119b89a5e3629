import Trampoline.Proofs.Run.Promptness
import Trampoline.Proofs.Run.Regions

/-!
# Uncancelable regions are atomic

An uncancelable region runs as its source runs on the uncancelable connection, whatever
becomes meanwhile of the connection from before it.  At the exit that connection is active
again, with the frames from before the region pending, and only then the run looks at it: a
cancellation that has come meanwhile is found there, and if none has come, the exit goes to
the frames that follow.

Main definitions and results:

- Definition `IsUncancelable`: the regions of the uncancelable connection.
- Definition `Crosses`, theorem `Proceeds.crosses`: a region in the evaluator.
- Definition `Passage`: how far a run has come with a region.
- Theorem `Follows.atomic`: a run passes a region as the source of the region runs by itself.
-/

namespace Trampoline

variable {S : Closures} {σ : Type}

/-- The regions of the uncancelable connection. -/
def IsUncancelable (m : Modifier S) (r : Restorer S) : Prop :=
  m = .uncancelable ∧ r = .old

/-- Inside of such a region only the uncancelable connection is active. -/
def Surroundings.uncancelable (P : Program S σ) : Surroundings S where
  answers q a := q.Yields P a ∧ (⟨q, a⟩ : Exchange S) ≠ ⟨.canceled .uncancelable, true⟩
  active c := c = .uncancelable
  region := IsUncancelable
  looks := by
    rintro c rfl ⟨-, hno⟩
    exact hno rfl
  begins := fun _ _ h => .inl ⟨h.1, rfl⟩
  ends := fun _ _ h => .inl h.2

/-- All that a run asks and is answered has its place in these surroundings. -/
theorem Follows.answers_uncancelable {P : Program S σ} {r : Origin S} {s : State S σ}
    {st : Story S} (h : Follows P r s st) :
    ∀ x ∈ st.exchanges, (Surroundings.uncancelable P).answers x.question x.answer := by
  have hlooks : (⟨.canceled .uncancelable, true⟩ : Exchange S) ∉ st.exchanges := by
    intro hmem
    obtain ⟨w, rest, hreach, hdepth, hleads⟩ := Leads.of_follows h
    obtain ⟨xs, ys, hsplit⟩ := List.append_of_mem hmem
    have hstart : Follows P r (.running w r.activation rest) .beginning := .start hreach hdepth
    obtain ⟨s₁, st₁, hto, hxs, hx, -⟩ := hleads.noted hstart List.nil_prefix hsplit
    have hcanceled := (hto.follows hstart).tracks.adds_look (hxs ▸ hx)
    simp at hcanceled
  intro x hx
  refine ⟨h.yields x hx, fun hlook => hlooks ?_⟩
  rw [← hlook]
  exact hx

/-! ## A region in the evaluator -/

/-- What is asked at the beginning of a region: the connection from before it is looked at,
and then that of the region. -/
def entry (c : Connection) : List (Exchange S) :=
  [⟨.canceled c, false⟩, ⟨.canceled .uncancelable, false⟩]

/-- What is asked at the end of a region. -/
def departure (c : Connection) (canceled : Bool) : List (Exchange S) :=
  [⟨.canceled .uncancelable, false⟩, ⟨.canceled c, canceled⟩]

/-- How far an evaluation has come with a region around `e`, since the first look. -/
inductive Crosses (e : Effect S) (c : Connection) (frames : List (Frame S)) :
    List (Exchange S) → Course S → Prop
  /-- It looks at the connection of the region. -/
  | entering : Crosses e c frames []
      ((Course.eval .uncancelable (.bind e (.restore c .old))).within frames)
  /-- The source is evaluated as it is by itself. -/
  | inside {xs : List (Exchange S)} {m : Course S} (h : Proceeds (.eval .uncancelable e) xs m)
      (stays : m.head ≠ .aborted) : Crosses e c frames (⟨.canceled .uncancelable, false⟩ :: xs)
        ((Course.seq m (.restore c .old)).within frames)
  /-- The source has exited, and the connection of the region is looked at again. -/
  | leaving {xs : List (Exchange S)} {m : Course S} {o : Outcome}
      (h : Proceeds (.eval .uncancelable e) xs m) (exits : m.head = .exited .uncancelable o) :
      Crosses e c frames (⟨.canceled .uncancelable, false⟩ :: xs)
        ((Course.eval .uncancelable
          (.switchConnection (.ofOutcome o) (.restoring o c .old) none)).within frames)
  /-- The connection from before the region is looked at. -/
  | back {xs : List (Exchange S)} {m : Course S} {o : Outcome}
      (h : Proceeds (.eval .uncancelable e) xs m) (exits : m.head = .exited .uncancelable o) :
      Crosses e c frames
        (⟨.canceled .uncancelable, false⟩ :: xs ++ [⟨.canceled .uncancelable, false⟩])
        ((Course.eval c (.ofOutcome o)).within frames)
  /-- It is found canceled, or the exit goes to the frames. -/
  | out {xs ws : List (Exchange S)} {m n : Course S} {o : Outcome} {canceled : Bool}
      (h : Proceeds (.eval .uncancelable e) xs m) (exits : m.head = .exited .uncancelable o)
      (rest : Proceeds ((if canceled then Course.abort else .exit c o).within frames) ws n) :
      Crosses e c frames
        (⟨.canceled .uncancelable, false⟩ :: xs ++ departure c canceled ++ ws) n

/-- An outcome as a node exits at once. -/
theorem Effect.move_ofOutcome (c : Connection) (o : Outcome) :
    (ofOutcome o : Effect S).move c = .exit c o := by
  cases o <;> rfl

/-- An evaluation comes through a region as the source of the region comes to its exit by
itself, and looks at the connection from before the region. -/
theorem Proceeds.through {e : Effect S} {c : Connection} {xs : List (Exchange S)} {m : Course S}
    {o : Outcome} (h : Proceeds (.eval .uncancelable e) xs m)
    (exits : m.head = .exited .uncancelable o) :
    Proceeds (.eval c e.uncancelable) (entry c ++ xs ++ [⟨.canceled .uncancelable, false⟩])
      (.eval c (.ofOutcome o)) := by
  have henter : Proceeds (.eval c e.uncancelable) (entry c)
      (.seq (.eval .uncancelable e) (.restore c .old)) :=
    (Proceeds.look c e.uncancelable false).trans
      (Proceeds.look .uncancelable (.bind e (.restore c .old)) false)
  have hexit : Proceeds (.seq m (.restore c .old)) [] (.eval .uncancelable
      (.switchConnection (.ofOutcome o) (.restoring o c .old) none)) :=
    .go (Course.head_seq_exited exits _)
  have hback : Proceeds (S := S) (.eval .uncancelable
      (.switchConnection (.ofOutcome o) (.restoring o c .old) none))
      [⟨.canceled .uncancelable, false⟩] (.eval c (.ofOutcome o)) :=
    Proceeds.look .uncancelable _ false
  exact (henter.trans (h.seq _)).trans (hexit.trans hback)

/-- What an evaluation does at the end of a region. -/
theorem Proceeds.departs {P : Program S σ} {c : Connection} {o : Outcome}
    {frames : List (Frame S)} {ys : List (Exchange S)} {n : Course S}
    (h : Proceeds ((Course.eval .uncancelable
      (.switchConnection (.ofOutcome o) (.restoring o c .old) none)).within frames) ys n)
    (answers : ∀ x ∈ ys, (Surroundings.uncancelable P).answers x.question x.answer) :
    (ys = [] ∧ n = (Course.eval .uncancelable
        (.switchConnection (.ofOutcome o) (.restoring o c .old) none)).within frames) ∨
      (ys = [⟨.canceled .uncancelable, false⟩] ∧ n = (Course.eval c (.ofOutcome o)).within frames) ∨
      ∃ canceled ws, ys = departure c canceled ++ ws ∧
        Proceeds ((if canceled then Course.abort else .exit c o).within frames) ws n := by
  rcases h.taken (Course.head_within_asks rfl frames) with hnow | ⟨b, zs, rfl, hlooked⟩
  · exact .inl hnow
  · obtain rfl : b = false :=
      (Surroundings.uncancelable P).look_eq_false rfl (answers _ List.mem_cons_self)
    have hback : Proceeds ((Course.eval c (.ofOutcome o)).within frames) zs n := hlooked
    rcases hback.taken (Course.head_within_asks rfl frames) with
      ⟨rfl, hn⟩ | ⟨canceled, ws, rfl, hout⟩
    · exact .inr (.inl ⟨rfl, hn⟩)
    · rw [Effect.move_ofOutcome] at hout
      exact .inr (.inr ⟨canceled, ws, rfl, hout⟩)

/-- After the first look, an evaluation crosses a region whose source switches connections only
with such regions. -/
theorem Proceeds.crosses {P : Program S σ} {e : Effect S} {c : Connection}
    {frames : List (Frame S)} {zs : List (Exchange S)} {n : Course S}
    (he : e.SwitchesOnly P IsUncancelable)
    (h : Proceeds ((e.uncancelable.move c).within frames) zs n)
    (answers : ∀ x ∈ zs, (Surroundings.uncancelable P).answers x.question x.answer) :
    Crosses e c frames zs n := by
  obtain ⟨X, hX, hclosed⟩ := he
  have hX' : ∀ e', X e' → e'.Regional (Surroundings.uncancelable P).answers
      (Surroundings.uncancelable P).region X := fun e' he' =>
    (hclosed e' he').mono fun _ _ hyields => hyields.1
  have hstart : Proceeds ((Course.eval .uncancelable (.bind e (.restore c .old))).within frames)
      zs n := h
  rcases hstart.taken (Course.head_within_asks rfl frames) with
    ⟨rfl, rfl⟩ | ⟨b, zs, rfl, hlooked⟩
  · exact .entering
  · obtain rfl : b = false :=
      (Surroundings.uncancelable P).look_eq_false rfl (answers _ List.mem_cons_self)
    have hinside : Proceeds ((Course.seq (.eval .uncancelable e) (.restore c .old)).within frames)
        zs n := hlooked
    -- The source stays on the uncancelable connection, so it is not aborted.
    have hsettles : ∀ {xs : List (Exchange S)} {m : Course S},
        Proceeds (.eval .uncancelable e) xs m → (∀ x ∈ xs, x ∈ zs) →
        m.Settles (Surroundings.uncancelable P) X .uncancelable := by
      intro xs m hm hsub
      refine hm.settles hX' ⟨rfl, .plain (hX' e hX)⟩ fun x hx => ?_
      exact answers x (List.mem_cons_of_mem _ (hsub x hx))
    rcases hinside.of_seq with ⟨m, hm, rfl⟩ | ⟨xs, ys, m, c', o, rfl, hm, hexit, hrest⟩
    · exact .inside hm (hsettles hm fun x hx => hx).not_aborted
    · have hsub : ∀ x ∈ xs, x ∈ xs ++ ys := fun x hx => List.mem_append_left ys hx
      obtain ⟨rfl, -⟩ := (hsettles hm hsub).exited hexit
      have hdeparts := hrest.departs (P := P) fun x hx =>
        answers x (List.mem_cons_of_mem _ (List.mem_append_right xs hx))
      rcases hdeparts with ⟨rfl, rfl⟩ | ⟨rfl, rfl⟩ | ⟨canceled, ws, rfl, hleft⟩
      · rw [List.append_nil]
        exact .leaving hm hexit
      · exact .back hm hexit
      · have hout : Crosses e c frames
            (⟨.canceled .uncancelable, false⟩ :: xs ++ departure c canceled ++ ws) n :=
          .out hm hexit hleft
        rwa [List.append_assoc] at hout

/-! ## A region in a run -/

/-- A run comes out of a region with an exit: its loop is in front of the exit, on the
connection and with the frames from before the region, and looks at that connection. -/
def LeavesRegion (P : Program S σ) (r : Origin S) (s : State S σ) (st : Story S) (s' : State S σ)
    (st' : Story S) (asked : List (Exchange S)) (c : Connection) (frames : List (Frame S))
    (o : Outcome) (canceled : Bool) : Prop :=
  ∃ w run rest st₁, Leads P r s st (.running w (.eval (.loop run) (.ofOutcome o)) rest) st₁ ∧
    Leads P r (.running w (.eval (.loop run) (.ofOutcome o)) rest) st₁ s' st' ∧
    st₁.takesTurn r.depth (.eval (.loop run) (.ofOutcome o) : Activation S σ) rest = true ∧
    st₁.exchanges = asked ∧ run.connection = c ∧ run.stack.toList = frames ∧
    w.connections.isCanceled c = canceled

/-- The story is one of an effect by itself on the uncancelable connection, as far as it goes. -/
def Story.Alone (e : Effect S) (inner : Story S) : Prop :=
  ∃ m, Proceeds (.eval .uncancelable e) inner.exchanges m ∧ Rests inner m

/-- How far a run has come with a region since it has met it on connection `c` with certain
frames pending.  The source of the region has a story of its own, `inner`. -/
inductive Passage (P : Program S σ) (r : Origin S) (c : Connection) (frames : List (Frame S))
    (s : State S σ) (st : Story S) (s' : State S σ) (st' inner : Story S) : Prop
  /-- It has looked at the connections at most. -/
  | entering (beginning : inner = .beginning) (asked : st'.exchanges <+: st.exchanges ++ entry c)
      (called : st'.called = st.called) (outcomes : st'.outcomes = [])
  /-- It has done what the source has. -/
  | inside (exits : inner.outcomes = [])
      (asked : st'.exchanges = st.exchanges ++ entry c ++ inner.exchanges)
      (pending : st'.pending = inner.pending) (called : st'.called = st.called ++ inner.called)
      (outcomes : st'.outcomes = [])
  /-- The source has exited, and the connection from before the region has not been looked at
  yet. -/
  | leaving {o : Outcome} (exits : inner.outcomes = [o])
      (asked : st'.exchanges <+:
        st.exchanges ++ entry c ++ inner.exchanges ++ [⟨.canceled .uncancelable, false⟩])
      (called : st'.called = st.called ++ inner.called) (outcomes : st'.outcomes = [])
  /-- That connection has been canceled meanwhile, and the run has delivered that. -/
  | canceled {o : Outcome} (exits : inner.outcomes = [o])
      (leaves : LeavesRegion P r s st s' st'
        (st.exchanges ++ entry c ++ inner.exchanges ++ [⟨.canceled .uncancelable, false⟩])
        c frames o true)
      (called : st'.called = st.called ++ inner.called)
      (outcomes : st'.outcomes = [.error .cancelled])
  /-- That connection has not been canceled, and the exit has gone to the frames. -/
  | passed {o : Outcome} {ws : List (Exchange S)} {n : Course S} (exits : inner.outcomes = [o])
      (leaves : LeavesRegion P r s st s' st'
        (st.exchanges ++ entry c ++ inner.exchanges ++ [⟨.canceled .uncancelable, false⟩])
        c frames o false)
      (asked : st'.exchanges =
        st.exchanges ++ entry c ++ inner.exchanges ++ departure c false ++ ws)
      (proceeds : Proceeds ((Course.exit c o).within frames) ws n) (rests : Rests st' n)

/-- What a run does with a region. -/
structure Atomic (P : Program S σ) (r : Origin S) (e : Effect S) (c : Connection)
    (frames : List (Frame S)) (s : State S σ) (st : Story S) (s' : State S σ) (st' : Story S)
    (inner : Story S) : Prop where
  /-- The source of the region does what it does by itself on the uncancelable connection. -/
  alone : inner.Alone e
  /-- So it makes the same calls as any run of it there with the same answers, and has the same
  exit. -/
  sameCalls : ∀ {σ' : Type} {P' : Program S σ'} {r₀ : Origin S} {s₀ : State S σ'} {st₀ : Story S},
    Follows P' r₀ s₀ st₀ → r₀.effect = e → r₀.connection = .uncancelable → r₀.stack.toList = [] →
    SameAnswers inner.exchanges st₀.exchanges → SameCalls (fun _ => none) Eq inner st₀
  /-- The run does what the source does, and then comes out of the region. -/
  passage : Passage P r c frames s st s' st' inner
  /-- While it waits for no answer it goes on, until it has its outcome. -/
  goes : st'.pending = none → st'.outcomes = [] → ∃ n ≤ 3, Advances P r n s' st'

/-- What an effect does by itself it does in every run of it. -/
theorem Story.Alone.sameCalls {e : Effect S} {inner : Story S} (h : inner.Alone e) {σ' : Type}
    {P' : Program S σ'} {r₀ : Origin S} {s₀ : State S σ'} {st₀ : Story S}
    (hf : Follows P' r₀ s₀ st₀) (effect : r₀.effect = e)
    (connection : r₀.connection = .uncancelable) (stack : r₀.stack.toList = [])
    (alike : SameAnswers inner.exchanges st₀.exchanges) :
    SameCalls (fun _ => none) Eq inner st₀ :=
  Story.AloneOn.sameCalls h hf effect connection stack alike

/-- Looks call for nothing. -/
@[simp]
theorem calledIn_entry (c : Connection) : calledIn (entry c : List (Exchange S)) = [] :=
  rfl

@[simp]
theorem calledIn_cons_look (c : Connection) (b : Bool) (zs : List (Exchange S)) :
    calledIn (⟨.canceled c, b⟩ :: zs) = calledIn zs :=
  rfl

/-- A run in front of a node has called for what it has been answered. -/
theorem Rests.called_of_eval {st : Story S} {c : Connection} {e : Effect S}
    {frames : List (Frame S)} (h : Rests st ((Course.eval c e).within frames)) :
    st.called = calledIn st.exchanges ∧ st.outcomes = [] := by
  have hhead := Course.head_within_asks (m := Course.eval c e) rfl frames
  constructor
  · obtain ⟨p, hp, hcalled⟩ := h.called
    have hcalling : ((Course.eval c e).within frames).calling = [] := by
      simp [Course.calling, hhead, Question.isCall]
    rw [hcalling] at hp
    rw [hcalled, List.prefix_nil.mp hp, List.append_nil]
  · exact h.outcomes_eq_nil (by rw [hhead, Head.outcome?_asks])

/-- A run in front of a sequence asks what the source asks, and has no outcome, unless the
source has been aborted. -/
theorem Rests.of_seq {st : Story S} {m : Course S} {frame : Frame S} {frames : List (Frame S)}
    (h : Rests st ((Course.seq m frame).within frames)) (stays : m.head ≠ .aborted) :
    st.outcomes = [] ∧ ∀ q, st.pending = some q → ∃ next, m.head = .asks q next := by
  rcases m.head_within_seq frame frames with
    ⟨haborted, -⟩ | ⟨q, next, hm, hasks⟩ | ⟨k, hgoes⟩
  · exact absurd haborted stays
  · refine ⟨h.outcomes_eq_nil (by rw [hasks, Head.outcome?_asks]), fun q' hq => ?_⟩
    obtain ⟨next', hnext⟩ := h.pending q' hq
    rw [hasks] at hnext
    cases hnext
    exact ⟨next, hm⟩
  · refine ⟨h.outcomes_eq_nil (by rw [hgoes, Head.outcome?_goes]), fun q hq => ?_⟩
    obtain ⟨next, hnext⟩ := h.pending q hq
    rw [hgoes] at hnext
    cases hnext

/-- The story of an effect that has exited by itself. -/
def Story.exited (xs : List (Exchange S)) (o : Outcome) : Story S :=
  { Story.beginning with exchanges := xs, outcomes := [o] }

@[simp]
theorem Story.exchanges_exited (xs : List (Exchange S)) (o : Outcome) :
    (Story.exited xs o).exchanges = xs :=
  rfl

theorem Story.called_exited (xs : List (Exchange S)) (o : Outcome) :
    (Story.exited xs o).called = calledIn xs :=
  Story.called_of_idle rfl

theorem Story.alone_exited {e : Effect S} {xs : List (Exchange S)} {m : Course S} {o : Outcome}
    (h : Proceeds (.eval .uncancelable e) xs m) (exits : m.head = .exited .uncancelable o) :
    (Story.exited xs o).Alone e := by
  refine ⟨m, h, by simp [Story.exited, Story.beginning], fun o' ho' => ?_⟩
  rw [List.mem_singleton.mp ho', exits, Head.outcome?_exited]

/-- A run that has noted a look at a node within frames was there. -/
theorem Leads.leavesRegion {P : Program S σ} {r : Origin S} {s s' : State S σ} {st st' : Story S}
    (h : Leads P r s st s' st') (hf : Follows P r s st) {xs ys : List (Exchange S)}
    {c : Connection} {frames : List (Frame S)} {o : Outcome} {b : Bool} (hst : st.exchanges <+: xs)
    (hex : st'.exchanges = xs ++ ⟨.canceled c, b⟩ :: ys)
    (proceeds : Proceeds r.course xs ((Course.eval c (.ofOutcome o)).within frames)) :
    LeavesRegion P r s st s' st' xs c frames o b := by
  obtain ⟨s₁, st₁, hto, rfl, hx, hfrom⟩ := h.noted hf hst hex
  obtain ⟨w, run, node, rest, rfl, hturn, hc, hb, hproceeds⟩ :=
    (hto.follows hf).tracks.loop_of_look hx
  have hsame := hproceeds.eq_of_asks proceeds (Course.head_within_asks rfl _)
    (Course.head_within_asks rfl _)
  obtain ⟨-, rfl, hframes⟩ := Course.within_eval_inj hsame
  exact ⟨w, run, rest, st₁, hto, (Leads.step P r _ st₁).trans hfrom, hturn, rfl, hc, hframes, hb⟩

/-- A run that has just looked at its canceled connection has delivered its cancellation, and
does nothing any more. -/
theorem LeavesRegion.canceled {P : Program S σ} {r : Origin S} {s s' : State S σ} {st st' : Story S}
    {xs : List (Exchange S)} {c : Connection} {frames : List (Frame S)} {o : Outcome}
    (hf : Follows P r s st) (h : LeavesRegion P r s st s' st' xs c frames o true)
    (hmore : st'.exchanges ≠ xs) :
    st'.outcomes = [.error .cancelled] ∧ st'.called = calledIn xs := by
  obtain ⟨w, run, rest, st₁, hto, hfrom, hturn, rfl, rfl, -, hcanceled⟩ := h
  have hf₁ := hto.follows hf
  obtain ⟨live, -⟩ := hf₁.tracks.of_turn_eval hturn
  rcases hfrom.of_canceled hf₁ hturn hcanceled with rfl | rfl
  · exact absurd rfl hmore
  · constructor
    · simp [Story.deliver, Story.look, live.outcomes]
    · simp [Story.called, Story.calls, Story.deliver, Story.look, live.pending, calledIn, callsOf,
        Question.isCall]

/-- A run that has met a region on an open connection has crossed it as far as it has come. -/
theorem Leads.crosses {P : Program S σ} {r : Origin S} {w : World S σ} {run : Loop S}
    {e : Effect S} {rest : List (Activation S σ)} {st st' : Story S} {s' : State S σ}
    (hf : Follows P r (.running w (.eval (.loop run) e.uncancelable) rest) st)
    (hl : Leads P r (State.next P (.running w (.eval (.loop run) e.uncancelable) rest))
      (st.next r.depth (.running w (.eval (.loop run) e.uncancelable) rest)) s' st')
    (hturn : st.takesTurn r.depth (.eval (.loop run) e.uncancelable : Activation S σ) rest = true)
    (hopen : w.connections.isCanceled run.connection = false)
    (he : e.SwitchesOnly P IsUncancelable) :
    ∃ zs n, st'.exchanges = st.exchanges ++ ⟨.canceled run.connection, false⟩ :: zs ∧
      Crosses e run.connection run.stack.toList zs n ∧ Rests st' n := by
  obtain ⟨-, proceeds⟩ := hf.tracks.of_turn_eval hturn
  -- The first look has found the connection open.
  have hlook : (st.next r.depth (.running w (.eval (.loop run) e.uncancelable) rest)).exchanges =
      st.exchanges ++ [⟨.canceled run.connection, false⟩] := by
    simp only [Story.next, hturn, if_true]
    rw [st.turn_eval_exchanges, hopen]
  obtain ⟨zs, hzs⟩ := hl.exchanges hf.next
  rw [hlook, List.append_assoc, List.singleton_append] at hzs
  have hf' := hl.follows hf.next
  obtain ⟨n, hn, hrests⟩ := hf'.tracks.rests
  rw [← hzs] at hn
  have hmoved : Proceeds ((e.uncancelable.move run.connection).within run.stack.toList) zs n := by
    have hrest := proceeds.rest hn
    rcases hrest.taken (Course.head_within_asks rfl _) with ⟨hnil, -⟩ | ⟨b, ys, hcons, hgo⟩
    · cases hnil
    · cases hcons
      exact hgo
  refine ⟨zs, n, hzs.symm, hmoved.crosses he fun x hx => ?_, hrests⟩
  exact hf'.answers_uncancelable x (hzs ▸ List.mem_append_right _ (List.mem_cons_of_mem _ hx))

/-- A run passes a region as the source of the region runs by itself. -/
theorem Leads.passage {P : Program S σ} {r : Origin S} {w : World S σ} {run : Loop S}
    {e : Effect S} {rest : List (Activation S σ)} {st st' : Story S} {s' : State S σ}
    (hl : Leads P r (.running w (.eval (.loop run) e.uncancelable) rest) st s' st')
    (hf : Follows P r (.running w (.eval (.loop run) e.uncancelable) rest) st)
    (hturn : st.takesTurn r.depth (.eval (.loop run) e.uncancelable : Activation S σ) rest = true)
    (hopen : w.connections.isCanceled run.connection = false)
    (he : e.SwitchesOnly P IsUncancelable) :
    ∃ inner : Story S, inner.Alone e ∧ Passage P r run.connection run.stack.toList
      (.running w (.eval (.loop run) e.uncancelable) rest) st s' st' inner := by
  obtain ⟨live, proceeds⟩ := hf.tracks.of_turn_eval hturn
  have hcalled : st.called = calledIn st.exchanges := Story.called_of_idle live.pending
  have hbeginning : (Story.beginning : Story S).Alone e :=
    ⟨_, .refl _, by simp [Story.beginning], by simp [Story.beginning]⟩
  rcases hl.first (by simp) with ⟨rfl, rfl⟩ | hlater
  · exact ⟨.beginning, hbeginning,
      .entering rfl (List.prefix_append _ _) rfl live.outcomes⟩
  obtain ⟨zs, n, hzs, hcrosses, hrests⟩ := hlater.crosses hf hturn hopen he
  cases hcrosses with
  | entering =>
      refine ⟨.beginning, hbeginning, .entering rfl ?_ ?_ hrests.called_of_eval.2⟩
      · rw [hzs]
        exact (List.prefix_append_right_inj _).mpr (by simp [entry])
      · rw [hrests.called_of_eval.1, hzs, hcalled]
        simp
  | @inside xs m hm stays =>
      obtain ⟨hout, hpending⟩ := hrests.of_seq stays
      refine ⟨{ Story.beginning with exchanges := xs, pending := st'.pending },
        ⟨m, hm, hpending, by simp [Story.beginning]⟩,
        .inside rfl (by rw [hzs]; simp [entry]) rfl ?_ hout⟩
      rw [hcalled]
      simp only [Story.called, Story.calls, hzs]
      simp [calledIn, callsOf, Question.isCall]
  | @leaving xs m o hm exits =>
      obtain ⟨hcalled', hout⟩ := hrests.called_of_eval
      refine ⟨_, Story.alone_exited hm exits, .leaving rfl ?_ ?_ hout⟩
      · rw [hzs]
        exact ⟨[⟨.canceled .uncancelable, false⟩], by simp [entry]⟩
      · rw [hcalled', Story.called_exited, hzs, hcalled]
        simp
  | @back xs m o hm exits =>
      obtain ⟨hcalled', hout⟩ := hrests.called_of_eval
      refine ⟨_, Story.alone_exited hm exits, .leaving rfl ?_ ?_ hout⟩
      · rw [hzs]
        simp [entry]
      · rw [hcalled', Story.called_exited, hzs, hcalled]
        simp
  | @out xs ws m _ o canceled hm exits hout =>
      have hasked : st'.exchanges = st.exchanges ++ entry run.connection ++ xs ++
          [⟨.canceled .uncancelable, false⟩] ++ ⟨.canceled run.connection, canceled⟩ :: ws := by
        rw [hzs]
        simp [entry, departure]
      have hback := proceeds.trans ((hm.through (c := run.connection) exits).within
        run.stack.toList)
      simp only [← List.append_assoc] at hback
      have hprefix : st.exchanges <+: st.exchanges ++ entry run.connection ++ xs ++
          [⟨.canceled .uncancelable, false⟩] := by
        simp only [List.append_assoc]
        exact List.prefix_append _ _
      have hleaves := hl.leavesRegion hf hprefix hasked hback
      cases canceled with
      | true =>
          obtain ⟨hdelivered, hcalled'⟩ := hleaves.canceled hf (by simp [hasked])
          refine ⟨_, Story.alone_exited hm exits, .canceled rfl hleaves ?_ hdelivered⟩
          rw [hcalled', Story.called_exited, hcalled]
          simp
      | false =>
          refine ⟨_, Story.alone_exited hm exits, .passed rfl hleaves ?_ hout hrests⟩
          rw [hasked]
          simp [departure]

/-- Uncancelable regions are atomic, and give the connection back. -/
theorem Follows.atomic {P : Program S σ} {r : Origin S} {w : World S σ} {run : Loop S}
    {e : Effect S} {rest : List (Activation S σ)} {st st' : Story S} {s' : State S σ}
    (hf : Follows P r (.running w (.eval (.loop run) e.uncancelable) rest) st)
    (hturn : st.takesTurn r.depth (.eval (.loop run) e.uncancelable : Activation S σ) rest = true)
    (hopen : w.connections.isCanceled run.connection = false)
    (he : e.SwitchesOnly P IsUncancelable)
    (hl : Leads P r (.running w (.eval (.loop run) e.uncancelable) rest) st s' st') :
    ∃ inner : Story S, Atomic P r e run.connection run.stack.toList
      (.running w (.eval (.loop run) e.uncancelable) rest) st s' st' inner := by
  obtain ⟨inner, halone, hpassage⟩ := hl.passage hf hturn hopen he
  exact ⟨inner, halone, halone.sameCalls, hpassage, (hl.follows hf).tracks.goes⟩

namespace Revoke

/-- A region whose source cancels the connection from before it, and code that follows. -/
def region : Effect closures :=
  .bind (.uncancelable (.delay first)) (.bind (.user ()))

/-- The delayed code has no connection switch. -/
theorem switchesOnly_delay (c : Connection) :
    Effect.SwitchesOnly program IsUncancelable (.delay c) := by
  refine ⟨fun e => e = .delay c, rfl, ?_⟩
  rintro e rfl
  trivial

/-- The delayed code cancels the connection from before the region and comes back with a
value: the region comes to its end, and then the run delivers its cancellation, with no call
of the code that follows. -/
theorem atomic_delay :
    (play region 14).2.called = [.delay first] ∧
      (play region 14).2.outcomes = [.error .cancelled] ∧
      ∃ inner, Atomic program (origin region) (.delay first) first [.bind (.user ())]
        (play region 1).1 (play region 1).2 (play region 14).1 (play region 14).2 inner :=
  ⟨rfl, rfl, (follows_play region 1).atomic rfl rfl (switchesOnly_delay first)
    (Leads.now.chronicle 13)⟩

end Revoke

end Trampoline
