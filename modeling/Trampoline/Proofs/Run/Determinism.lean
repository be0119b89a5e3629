import Trampoline.Proofs.Run.Transparency

/-!
# Evaluations with the same answers

What an evaluation comes to follows from the answers that it is given.  So two evaluations
that start alike and are given the same answers have come the same way, one of them maybe
further than the other; and two runs of one effect in surroundings that answer alike call
for the same code of the host and come to the same outcome.

Main definitions and results:

- Definitions `Story.called`, `calledIn`, `Course.calling`: the code of the host that is
  called for.
- Theorems `Proceeds.rest`, `Proceeds.ahead`: evaluations that have come from one.
- Theorem `Proceeds.of_seq`: a sequence within frames taken apart.
- Definition `SameAnswers`, theorem `Rests.sameCalls`: two runs of one evaluation.
- Definition `Story.AloneOn`, theorem `Story.AloneOn.sameCalls`: an effect by itself.
-/

namespace Trampoline

variable {S : Closures} {σ : Type}

/-! ## What is called for -/

/-- All code of the host that a run has called for, in order. -/
def Story.called (st : Story S) : List (Question S) :=
  st.calls fun _ => none

/-- The questions of exchanges that run code of the host. -/
def calledIn (zs : List (Exchange S)) : List (Question S) :=
  callsOf (fun _ => none) zs

/-- A run that waits for no answer has all that it has called for. -/
theorem Story.called_of_idle {st : Story S} (h : st.pending = none) :
    st.called = calledIn st.exchanges := by
  simp [called, calls, calledIn, h]

/-- The code of the host that an evaluation calls for next. -/
def Course.calling (n : Course S) : List (Question S) :=
  match n.head with
  | .asks q _ => [q].filter (Question.isCall fun _ => none)
  | _ => []

/-- Nothing has been called where nothing has been asked. -/
@[simp]
theorem calledIn_nil : calledIn ([] : List (Exchange S)) = [] :=
  rfl

/-- The calls of exchanges in a row. -/
@[simp]
theorem calledIn_append (xs ys : List (Exchange S)) :
    calledIn (xs ++ ys) = calledIn xs ++ calledIn ys :=
  callsOf_append xs ys

/-- All questions but looks run code of the host. -/
theorem Question.isCall_of_ne {q : Question S} (h : ∀ c, q ≠ .canceled c) :
    q.isCall (fun _ => none) = true := by
  cases q with
  | canceled c => exact absurd rfl (h c)
  | _ => rfl

/-- What a run has called for is what it has been answered, and at most what its evaluation
calls for next. -/
theorem Rests.called {st : Story S} {n : Course S} (h : Rests st n) :
    ∃ p, p <+: n.calling ∧ st.called = calledIn st.exchanges ++ p := by
  cases hq : st.pending with
  | none => exact ⟨[], List.nil_prefix, by rw [Story.called_of_idle hq, List.append_nil]⟩
  | some q =>
      obtain ⟨next, hnext⟩ := h.pending q hq
      refine ⟨n.calling, List.prefix_rfl, ?_⟩
      simp [Story.called, Story.calls, calledIn, Course.calling, hq, hnext]

/-! ## Evaluations that have come from one -/

/-- More answers are given to what an evaluation has become with the first. -/
theorem Proceeds.rest {m n k : Course S} {xs ys : List (Exchange S)} {x : Exchange S}
    (h : Proceeds m xs n) (hk : Proceeds m (xs ++ x :: ys) k) : Proceeds n (x :: ys) k := by
  rcases h.diverge hk with hrest | ⟨hnil, -⟩
  · exact hrest
  · cases hnil

/-- An evaluation that has come from one with some answers has also come from what the one
becomes by itself, or it is on the way there, with nothing to call for and no outcome. -/
theorem Proceeds.ahead {m n k : Course S} {zs : List (Exchange S)} (h : Proceeds m [] n)
    (hk : Proceeds m zs k) :
    Proceeds n zs k ∨ zs = [] ∧ k.calling = [] ∧ k.head.outcome? = none := by
  rcases h.diverge hk with hrest | ⟨rfl, hbehind⟩
  · exact .inl hrest
  · cases hbehind with
    | refl => exact .inl (.refl _)
    | goes hk' _ =>
        exact .inr ⟨rfl, by simp [Course.calling, hk'], by simp [hk']⟩

/-- Of two evaluations that have come from one with the same answers, and both ask, neither is
behind. -/
theorem Proceeds.eq_of_asks {m n k : Course S} {xs : List (Exchange S)} (h : Proceeds m xs n)
    (hk : Proceeds m xs k) {q q' : Question S} {next : q.Answer → Course S}
    {next' : q'.Answer → Course S} (hn : n.head = .asks q next) (hk' : k.head = .asks q' next') :
    n = k := by
  have hmore : Proceeds m (xs ++ []) k := by
    rw [List.append_nil]
    exact hk
  rcases h.diverge hmore with hrest | ⟨-, hrest⟩
  · rcases hrest.taken hn with ⟨-, hsame⟩ | ⟨a, ys, hcons, -⟩
    · exact hsame.symm
    · cases hcons
  · rcases hrest.taken hk' with ⟨-, hsame⟩ | ⟨a, ys, hcons, -⟩
    · exact hsame
    · cases hcons

/-- The innermost source of an evaluation, and the frames that wait for it. -/
def Course.front : Course S → Course S × List (Frame S)
  | seq m frame => (m.front.1, m.front.2 ++ [frame])
  | m => (m, [])

/-- Frames below an evaluation do not matter to its front. -/
theorem Course.front_within (m : Course S) (frames : List (Frame S)) :
    (m.within frames).front = (m.front.1, m.front.2 ++ frames) := by
  induction frames generalizing m with
  | nil => simp
  | cons frame frames ih => simp [ih, front]

/-- A node within frames is one node within the same frames only. -/
theorem Course.within_eval_inj {c c' : Connection} {e e' : Effect S}
    {frames frames' : List (Frame S)}
    (h : (eval c e).within frames = (eval c' e').within frames') :
    c = c' ∧ e = e' ∧ frames = frames' := by
  have hfront := congrArg front h
  simp only [front_within, front, List.nil_append, Prod.mk.injEq, eval.injEq] at hfront
  exact ⟨hfront.1.1, hfront.1.2, hfront.2⟩

/-- A sequence within frames is still at its source, or the source has exited, and the frame
has been given the exit. -/
theorem Proceeds.of_seq {m n : Course S} {frame : Frame S} {frames : List (Frame S)}
    {zs : List (Exchange S)} (h : Proceeds ((Course.seq m frame).within frames) zs n) :
    (∃ m', Proceeds m zs m' ∧ n = (Course.seq m' frame).within frames) ∨
    ∃ xs ys m' c o, zs = xs ++ ys ∧ Proceeds m xs m' ∧ m'.head = .exited c o ∧
      Proceeds ((frame.move c o).within frames) ys n := by
  generalize hstart : (Course.seq m frame).within frames = start at h
  induction h generalizing m with
  | refl => exact .inl ⟨m, .refl m, hstart.symm⟩
  | @goes start k n xs hk h ih =>
      subst hstart
      cases hm : m.head with
      | goes m' =>
          have hgoes := Course.head_within_goes (Course.head_seq_goes hm frame) frames
          rw [hk] at hgoes
          cases hgoes
          rcases ih rfl with ⟨m'', hm', hn⟩ | ⟨xs, ys, m'', c, o, hzs, hm', hexit, hrest⟩
          · exact .inl ⟨m'', .goes hm hm', hn⟩
          · exact .inr ⟨xs, ys, m'', c, o, hzs, .goes hm hm', hexit, hrest⟩
      | exited c o =>
          have hgoes := Course.head_within_goes (Course.head_seq_exited hm frame) frames
          rw [hk] at hgoes
          cases hgoes
          exact .inr ⟨[], _, m, c, o, rfl, .refl m, hm, h⟩
      | aborted =>
          rw [Course.head_within_aborted (Course.head_seq_aborted hm frame)] at hk
          cases hk
      | asks q next =>
          rw [Course.head_within_asks (Course.head_seq_asks hm frame)] at hk
          cases hk
  | @answered start n q next a xs hk h ih =>
      subst hstart
      cases hm : m.head with
      | asks q' next' =>
          rw [Course.head_within_asks (Course.head_seq_asks hm frame)] at hk
          cases hk
          rcases ih rfl with ⟨m'', hm', hn⟩ | ⟨xs, ys, m'', c, o, hzs, hm', hexit, hrest⟩
          · exact .inl ⟨m'', .answered hm hm', hn⟩
          · exact .inr ⟨⟨_, a⟩ :: xs, ys, m'', c, o, by rw [hzs]; rfl, .answered hm hm', hexit,
              hrest⟩
      | goes m' =>
          rw [Course.head_within_goes (Course.head_seq_goes hm frame)] at hk
          cases hk
      | exited c o =>
          rw [Course.head_within_goes (Course.head_seq_exited hm frame)] at hk
          cases hk
      | aborted =>
          rw [Course.head_within_aborted (Course.head_seq_aborted hm frame)] at hk
          cases hk

/-- A sequence within frames waits for its source, or goes on without a question. -/
theorem Course.head_within_seq (m : Course S) (frame : Frame S) (frames : List (Frame S)) :
    (m.head = .aborted ∧ ((seq m frame).within frames).head = .aborted) ∨
      (∃ q next, m.head = .asks q next ∧
        ((seq m frame).within frames).head = .asks q fun a => (seq (next a) frame).within frames) ∨
      ∃ n, ((seq m frame).within frames).head = .goes n := by
  cases hm : m.head with
  | aborted => exact .inl ⟨rfl, head_within_aborted (head_seq_aborted hm frame) frames⟩
  | asks q next =>
      exact .inr (.inl ⟨q, next, rfl, head_within_asks (head_seq_asks hm frame) frames⟩)
  | goes n => exact .inr (.inr ⟨_, head_within_goes (head_seq_goes hm frame) frames⟩)
  | exited c o => exact .inr (.inr ⟨_, head_within_goes (head_seq_exited hm frame) frames⟩)

/-! ## Two runs of one evaluation -/

/-- After the same exchanges, the same question has the same answer. -/
def SameAnswers (xs ys : List (Exchange S)) : Prop :=
  ∀ zs x xs' y ys', xs = zs ++ x :: xs' → ys = zs ++ y :: ys' → x.question = y.question → x = y

/-- Answers that are the same are the same after the first. -/
theorem SameAnswers.of_cons {x : Exchange S} {xs ys : List (Exchange S)}
    (h : SameAnswers (x :: xs) (x :: ys)) : SameAnswers xs ys := by
  intro zs y xs' z ys' hxs hys hq
  exact h (x :: zs) y xs' z ys' (by rw [hxs]; rfl) (by rw [hys]; rfl) hq

/-- Of two evaluations that start alike, with the same answers, one has gone further. -/
theorem Proceeds.comparable {m n k : Course S} {xs ys : List (Exchange S)} (h : Proceeds m xs n)
    (hk : Proceeds m ys k) (alike : SameAnswers xs ys) :
    (∃ zs, ys = xs ++ zs ∧ Proceeds n zs k) ∨ ∃ zs, xs = ys ++ zs ∧ Proceeds k zs n := by
  induction h generalizing ys k with
  | refl m => exact .inl ⟨ys, rfl, hk⟩
  | @goes m m' n xs hm h ih =>
      rcases hk.gone hm with ⟨rfl, rfl⟩ | hk
      · exact .inr ⟨xs, rfl, .goes hm h⟩
      · exact ih hk alike
  | @answered m n q next a xs hm h ih =>
      rcases hk.taken hm with ⟨rfl, rfl⟩ | ⟨a', ys, rfl, hnext⟩
      · exact .inr ⟨_, rfl, .answered hm h⟩
      · have hsame : (⟨q, a⟩ : Exchange S) = ⟨q, a'⟩ :=
          alike [] ⟨q, a⟩ xs ⟨q, a'⟩ ys rfl rfl rfl
        cases hsame
        rcases ih hnext alike.of_cons with ⟨zs, rfl, hrest⟩ | ⟨zs, rfl, hrest⟩
        · exact .inl ⟨zs, rfl, hrest⟩
        · exact .inr ⟨zs, rfl, hrest⟩

/-- Two runs of one evaluation, with the same answers, make the same calls and come to the
same outcome. -/
theorem Rests.sameCalls {st st' : Story S} {m n n' : Course S} (h : Proceeds m st.exchanges n)
    (h' : Proceeds m st'.exchanges n') (alike : SameAnswers st.exchanges st'.exchanges)
    (rests : Rests st n) (rests' : Rests st' n') : SameCalls (fun _ => none) Eq st st' := by
  have hbehind : ∀ {st st' : Story S} {n n' : Course S} {zs : List (Exchange S)},
      st'.exchanges = st.exchanges ++ zs → Proceeds n zs n' → Rests st n → Rests st' n' →
      SameCalls (fun _ => none) Eq st st' := by
    intro st st' n n' zs hzs hrest rests rests'
    exact .of_behind hzs (List.forall₂_eq_eq_eq ▸ rfl) (fun q next hn hq => ⟨q, next, hn, rfl, hq⟩)
      (fun o ho => ho) rests rests' hrest
  rcases h.comparable h' alike with ⟨zs, hzs, hrest⟩ | ⟨zs, hzs, hrest⟩
  · exact hbehind hzs hrest rests rests'
  · have hflip : SameCalls (fun _ => none) (flip Eq) st' st := by
      have heq : (flip Eq : Question S → Question S → Prop) = Eq := by
        funext q q'
        exact propext eq_comm
      rw [heq]
      exact hbehind hzs hrest rests' rests
    exact hflip.symm

/-! ## An effect by itself -/

/-- The story is one of an effect by itself on a connection, as far as it goes. -/
def Story.AloneOn (c : Connection) (e : Effect S) (inner : Story S) : Prop :=
  ∃ m, Proceeds (.eval c e) inner.exchanges m ∧ Rests inner m

namespace Story.AloneOn

variable {c : Connection} {e : Effect S} {inner : Story S} {σ' : Type} {P' : Program S σ'}
  {r₀ : Origin S} {s₀ : State S σ'} {st₀ : Story S}

/-- The evaluation of a run of the effect on that connection. -/
theorem course_eq (effect : r₀.effect = e) (connection : r₀.connection = c)
    (stack : r₀.stack.toList = []) : r₀.course = Course.eval c e := by
  rw [Origin.course, effect, connection, stack, Course.within_nil]

/-- What an effect does by itself it does in every run of it. -/
theorem sameCalls (h : inner.AloneOn c e) (hf : Follows P' r₀ s₀ st₀) (effect : r₀.effect = e)
    (connection : r₀.connection = c) (stack : r₀.stack.toList = [])
    (alike : SameAnswers inner.exchanges st₀.exchanges) :
    SameCalls (fun _ => none) Eq inner st₀ := by
  obtain ⟨m, hm, rests⟩ := h
  obtain ⟨n, hn, rests₀⟩ := hf.tracks.rests
  rw [course_eq effect connection stack] at hn
  exact Rests.sameCalls hm hn alike rests rests₀

/-- When both have come to their end, they have asked and were answered the same. -/
theorem exchanges_eq (h : inner.AloneOn c e) (hf : Follows P' r₀ s₀ st₀) (effect : r₀.effect = e)
    (connection : r₀.connection = c) (stack : r₀.stack.toList = [])
    (alike : SameAnswers inner.exchanges st₀.exchanges) (hout : inner.outcomes ≠ [])
    (hout₀ : st₀.outcomes ≠ []) : inner.exchanges = st₀.exchanges := by
  obtain ⟨m, hm, rests⟩ := h
  obtain ⟨n, hn, rests₀⟩ := hf.tracks.rests
  rw [course_eq effect connection stack] at hn
  obtain ⟨o, ho⟩ := List.exists_mem_of_ne_nil _ hout
  obtain ⟨o₀, ho₀⟩ := List.exists_mem_of_ne_nil _ hout₀
  rcases hm.comparable hn alike with ⟨zs, hzs, hrest⟩ | ⟨zs, hzs, hrest⟩
  · obtain ⟨rfl, -⟩ := hrest.of_outcome (rests.outcome o ho)
    simp [hzs]
  · obtain ⟨rfl, -⟩ := hrest.of_outcome (rests₀.outcome o₀ ho₀)
    simp [hzs]

end Story.AloneOn

end Trampoline
