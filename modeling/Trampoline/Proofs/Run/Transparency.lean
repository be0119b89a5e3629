import Trampoline.Proofs.Run.Passing

/-!
# Hops are transparent

In the machine a hop moves the frames of a run into its bridge, the terminal of the run
from the loop into the bridge, and the rest of the run into a loop inside of the
registration.  None of this reaches the host: with hops or without, a run asks for the same
code of the host with the same arguments in the same order, and delivers the same outcome,
as long as the surroundings answer alike.

The callback that a registration is given is the exception: its text shows the epoch, and a
hop takes an epoch.

Main definitions and results:

- Definition `Story.calls`: what a run has called for.
- Definition `SameCalls`: two runs that make the same calls and have the same outcome.
- Definition `Transparent`, theorem `Follows.transparent`: hops change neither the calls of
  a run nor its outcome.
-/

namespace Trampoline

variable {S : Closures} {σ : Type} {hop : S.Registration → Option Outcome}

/-! ## Stories side by side -/

/-- The first sequence is the beginning of the second. -/
def Begins {α : Type} (like : α → α → Prop) (l l' : List α) : Prop :=
  ∃ p, p <+: l' ∧ List.Forall₂ like l p

/-- The code of the host that a run has called for, other than that of hops. -/
def Story.calls (hop : S.Registration → Option Outcome) (st : Story S) : List (Question S) :=
  callsOf hop st.exchanges ++ st.pending.toList.filter (Question.isCall hop)

/-- Two runs make the same calls and have the same outcome, as far as both have come. -/
structure SameCalls (hop : S.Registration → Option Outcome)
    (like : Question S → Question S → Prop) (st st' : Story S) : Prop where
  /-- The calls of one are the first calls of the other. -/
  calls : Begins like (st.calls hop) (st'.calls hop) ∨
    Begins (flip like) (st'.calls hop) (st.calls hop)
  /-- When the first has its outcome, the second has not made more calls. -/
  first : st.outcomes ≠ [] → Begins (flip like) (st'.calls hop) (st.calls hop)
  /-- When the second has its outcome, the first has not made more calls. -/
  second : st'.outcomes ≠ [] → Begins like (st.calls hop) (st'.calls hop)
  /-- When both have their outcome, it is the same, and so are all calls. -/
  both : ∀ o ∈ st.outcomes, ∀ o' ∈ st'.outcomes,
    o = o' ∧ List.Forall₂ like (st.calls hop) (st'.calls hop)

theorem SameCalls.symm {like : Question S → Question S → Prop} {st st' : Story S}
    (h : SameCalls hop (flip like) st' st) : SameCalls hop like st st' where
  calls := h.calls.symm
  first := h.second
  second := h.first
  both := fun o ho o' ho' => ⟨(h.both o' ho' o ho).1.symm, (h.both o' ho' o ho).2.flip⟩

/-- What is left of an evaluation is what the story of the run says. -/
structure Rests (st : Story S) (n : Course S) : Prop where
  pending : ∀ q, st.pending = some q → ∃ next, n.head = .asks q next
  outcome : ∀ o ∈ st.outcomes, n.head.outcome? = some o

/-- A run that rests before an evaluation without an outcome has none. -/
theorem Rests.outcomes_eq_nil {st : Story S} {n : Course S} (h : Rests st n)
    (hn : n.head.outcome? = none) : st.outcomes = [] := by
  refine List.eq_nil_iff_forall_not_mem.mpr fun o ho => ?_
  have hout := h.outcome o ho
  rw [hn] at hout
  cases hout

/-- A run that has its outcome asks for nothing. -/
theorem Rests.pending_eq {st : Story S} {n : Course S} (h : Rests st n) {o : Outcome}
    (hn : n.head.outcome? = some o) : st.pending = none := by
  cases hq : st.pending with
  | none => rfl
  | some q =>
      obtain ⟨next, hnext⟩ := h.pending q hq
      simp [hnext] at hn

/-- A run that rests before a question waits for the answer to that, if to any. -/
theorem Rests.pending_of_asks {st : Story S} {n : Course S} (h : Rests st n) {q : Question S}
    {next : q.Answer → Course S} (hn : n.head = .asks q next) :
    st.pending = none ∨ st.pending = some q := by
  cases hq : st.pending with
  | none => exact .inl rfl
  | some q' =>
      obtain ⟨next', hnext'⟩ := h.pending q' hq
      rw [hn] at hnext'
      cases hnext'
      exact .inr rfl

/-- The invariant says how far the evaluator has come, and what is left. -/
theorem Tracks.rests {P : Program S σ} {r : Origin S} {s : State S σ} {st : Story S}
    (h : Tracks P r s st) :
    ∃ n, Proceeds r.course st.exchanges n ∧ Rests st n := by
  have hasks : ∀ {q : Question S} {next : q.Answer → Course S} {frames : List (Frame S)},
      st.pending = some q → st.outcomes = [] → Rests st ((Course.ask q next).within frames) := by
    intro q next frames hq hout
    refine ⟨fun q' hq' => ?_, by simp [hout]⟩
    rw [hq, Option.some.injEq] at hq'
    subst hq'
    exact ⟨_, Course.head_within_asks rfl frames⟩
  cases h with
  | turn stands proceeds home live resumed =>
      exact ⟨_, proceeds, by simp [live.pending], by simp [live.outcomes]⟩
  | calling place serves waits idle proceeds home live resumed =>
      exact ⟨_, proceeds, hasks live.pending live.outcomes⟩
  | suspended idle holds bridge parks completes proceeds live resumed =>
      exact ⟨_, proceeds, hasks live.pending live.outcomes⟩
  | delivered outcomes ending evaluates pending lost still numbered resumed =>
      obtain ⟨n, hn, he⟩ := evaluates.proceeds
      exact ⟨n, hn, by simp [pending], by simp [outcomes, Head.outcome?, he, ending]⟩
  | lost outcomes lost pending evaluates still numbered resumed =>
      obtain ⟨n, hn, he⟩ := evaluates.proceeds
      refine ⟨n, hn, fun q hq => ?_, by simp [outcomes]⟩
      rw [pending, Option.some.injEq] at hq
      subst hq
      cases hhead : n.head with
      | asks q next =>
          simp only [hhead, Head.ending?, Option.some.injEq, Ending.asking.injEq] at he
          subst he
          exact ⟨next, rfl⟩
      | _ => simp [hhead, Head.ending?] at he

namespace Begins

variable {α : Type} {like : α → α → Prop} {l l' : List α}

theorem of_forall₂ (h : List.Forall₂ like l l') : Begins like l l' :=
  ⟨l', List.prefix_rfl, h⟩

theorem append_right (h : Begins like l l') (tail : List α) : Begins like l (l' ++ tail) := by
  obtain ⟨p, hp, hl⟩ := h
  exact ⟨p, hp.trans (List.prefix_append _ _), hl⟩

end Begins

/-- Where one run has come as far as the other one was at some point, both make the same calls. -/
theorem SameCalls.of_behind {like : Question S → Question S → Prop} {st st' : Story S}
    {zs ys : List (Exchange S)} {n m n' : Course S} (split : st'.exchanges = zs ++ ys)
    (calls : List.Forall₂ like (callsOf hop st.exchanges) (callsOf hop zs))
    (asks : ∀ q next, n.head = .asks q next → q.isCall hop = true →
      ∃ (q' : Question S) (next' : q'.Answer → Course S),
        m.head = .asks q' next' ∧ like q q' ∧ q'.isCall hop = true)
    (outcome : ∀ o, n.head.outcome? = some o → m.head.outcome? = some o)
    (rests : Rests st n) (rests' : Rests st' n') (rest : Proceeds m ys n') :
    SameCalls hop like st st' := by
  have hcalls' : st'.calls hop =
      callsOf hop zs ++ (callsOf hop ys ++ st'.pending.toList.filter (Question.isCall hop)) := by
    simp [Story.calls, split]
  -- Once the first run has its outcome, the other one has made the same calls.
  have hend : ∀ o ∈ st.outcomes, m.head.outcome? = some o ∧ n' = m ∧
      List.Forall₂ like (st.calls hop) (st'.calls hop) := by
    intro o ho
    have hn := rests.outcome o ho
    have hm := outcome o hn
    obtain ⟨rfl, rfl⟩ := rest.of_outcome hm
    refine ⟨hm, rfl, ?_⟩
    rw [hcalls', Story.calls, rests.pending_eq hn, rests'.pending_eq hm]
    simpa using calls
  have hfirst : st.outcomes ≠ [] → Begins (flip like) (st'.calls hop) (st.calls hop) := by
    intro hout
    obtain ⟨o, ho⟩ := List.exists_mem_of_ne_nil _ hout
    exact .of_forall₂ (hend o ho).2.2.flip
  have hboth : ∀ o ∈ st.outcomes, ∀ o' ∈ st'.outcomes,
      o = o' ∧ List.Forall₂ like (st.calls hop) (st'.calls hop) := by
    intro o ho o' ho'
    obtain ⟨hm, hn', hall⟩ := hend o ho
    exact ⟨Option.some.inj (hm.symm.trans (hn' ▸ rests'.outcome o' ho')), hall⟩
  by_cases hcall : ∃ q, st.pending = some q ∧ q.isCall hop = true
  · obtain ⟨q, hq, hqcall⟩ := hcall
    obtain ⟨next, hn⟩ := rests.pending q hq
    obtain ⟨q', next', hm, hlike, hq'call⟩ := asks q next hn hqcall
    have hst : st.calls hop = callsOf hop st.exchanges ++ [q] := by
      simp [Story.calls, hq, hqcall]
    rcases rest.taken hm with ⟨rfl, rfl⟩ | ⟨a, ys', rfl, -⟩
    · -- The other run asks the same, or is about to.
      have hnone : st'.outcomes = [] := by
        exact rests'.outcomes_eq_nil (by rw [hm, Head.outcome?_asks])
      have hback : Begins (flip like) (st'.calls hop) (st.calls hop) := by
        rcases rests'.pending_of_asks hm with hq' | hq'
        · have hst' : st'.calls hop = callsOf hop zs := by simp [hcalls', hq']
          rw [hst, hst']
          exact Begins.append_right (.of_forall₂ calls.flip) [q]
        · have hall : List.Forall₂ like (st.calls hop) (st'.calls hop) := by
            rw [hst, hcalls']
            exact List.rel_append calls (by simpa [hq', hq'call] using hlike)
          exact .of_forall₂ hall.flip
      exact ⟨.inr hback, hfirst, fun h => absurd hnone h, hboth⟩
    · have hlead : Begins like (st.calls hop) (st'.calls hop) := by
        have hhead : callsOf hop (⟨q', a⟩ :: ys') = q' :: callsOf hop ys' := by
          simp [callsOf, hq'call]
        rw [hst, hcalls', hhead, List.cons_append, List.append_cons (callsOf hop zs)]
        exact Begins.append_right (.of_forall₂ (List.rel_append calls (.cons hlike .nil))) _
      exact ⟨.inl hlead, hfirst, fun _ => hlead, hboth⟩
  · have hlead : Begins like (st.calls hop) (st'.calls hop) := by
      have hst : st.calls hop = callsOf hop st.exchanges := by
        cases hq : st.pending with
        | none => simp [Story.calls, hq]
        | some q =>
            have hno : q.isCall hop = false := by
              simpa using fun h => hcall ⟨q, hq, h⟩
            simp [Story.calls, hq, hno]
      rw [hst, hcalls']
      exact Begins.append_right (.of_forall₂ calls) _
    exact ⟨.inl hlead, hfirst, fun _ => hlead, hboth⟩

/-- Runs whose evaluations differ in hops make the same calls. -/
theorem Compares.sameCalls {st st' : Story S} {n n' : Course S}
    (h : Compares hop st.exchanges st'.exchanges n n') (rests : Rests st n)
    (rests' : Rests st' n') :
    SameCalls hop (Question.Hops hop) st st' := by
  cases h with
  | left split hopped step rest =>
      refine .of_behind split hopped.calls (fun q next hn hq => ?_) (fun o ho => ?_)
        rests rests' rest
      · obtain ⟨q', next', hm, hlike⟩ := step.asks hn
        exact ⟨q', next', hm, hlike, hlike.isCall_eq ▸ hq⟩
      · exact step.outcome?_eq ▸ ho
  | right split hopped step rest =>
      refine .symm (.of_behind split hopped.calls.flip (fun q' next' hn hq' => ?_) (fun o ho => ?_)
        rests' rests rest)
      · obtain ⟨q, next, hm, hlike⟩ := step.asked hn
        exact ⟨q, next, hm, hlike, hlike.isCall_eq ▸ hq'⟩
      · exact step.outcome?_eq ▸ ho
  | @hopping zs zs' ys m k c o split split' hopped hk step rest =>
      obtain ⟨next, hhead, -⟩ := Hopping.head hop step
      refine .symm (.of_behind split ?_ (fun q' next' hn hq' => ?_) (fun o ho => ?_)
        rests' rests rest)
      · have hcalls : callsOf hop st'.exchanges = callsOf hop zs' := by
          simp [split', callsOf, Question.isCall]
        rw [hcalls]
        exact hopped.calls.flip
      · rw [hhead] at hn
        cases hn
        simp [Question.isCall, hk] at hq'
      · simp [hhead] at ho

/-! ## Transparency -/

/-- A run and the same with hops in its effect. -/
structure Origin.Hops (hop : S.Registration → Option Outcome) (r r' : Origin S) : Prop where
  effect : r.effect.Hops hop r'.effect
  connection : r.connection = r'.connection
  stack : r.stack.toList = r'.stack.toList

/-- Hops make no difference: the run with hops makes the same calls and has the same
outcome, as far as both have come, and no hop holds it up. -/
structure Transparent (hop : S.Registration → Option Outcome) (P' : Program S σ) (r' : Origin S)
    (st : Story S) (s' : State S σ) (st' : Story S) : Prop
    extends SameCalls hop (Question.Hops hop) st st' where
  /-- A hop takes one step, after which a loop with the frames and the connection of the run
  is in front of the outcome.  Nothing has been canceled meanwhile. -/
  passes : ∀ k c o, st'.pending = some (.async k c) → hop k = some o → ∃ w p rest,
    st'.parks.getLast? = some p ∧ w.connections = s'.world.connections ∧
      (st'.next r'.depth s').exchanges = st'.exchanges ++ [⟨.async k c, o⟩] ∧
      s'.next P' =
        .running w (.eval (.loop ⟨c, p.stack, .bridge p.callback.bridge⟩) (.ofOutcome o)) rest
  /-- While it waits for no answer it goes on, until it has its outcome. -/
  goes : st'.pending = none → st'.outcomes = [] → ∃ n ≤ 3, Advances P' r' n s' st'

/-- Frames go on in step with evaluations that are in step. -/
theorem Course.Hops.within {m m' : Course S} (h : m.Hops hop m') (frames : List (Frame S)) :
    (m.within frames).Hops hop (m'.within frames) := by
  induction frames generalizing m m' with
  | nil => exact h
  | cons frame frames ih => exact ih (h.seq frame)

/-- The evaluations of a run and of the same with hops are in step. -/
theorem Origin.Hops.course {r r' : Origin S} (h : r.Hops hop r') : r.course.Hops hop r'.course := by
  rw [Origin.course, Origin.course, h.connection, h.stack]
  exact (Course.Hops.eval _ h.effect).within _

/-- A run that waits for no answer and has no outcome yet comes to the ending of the
evaluator in a few steps. -/
theorem Tracks.goes {P : Program S σ} {r : Origin S} {s : State S σ} {st : Story S}
    (h : Tracks P r s st) (hnone : st.pending = none) (hout : st.outcomes = []) :
    ∃ n ≤ 3, Advances P r n s st := by
  have htracks := h
  cases h with
  | turn stands proceeds home live resumed =>
      exact htracks.advances (home.takesTurn live.outcomes live.lost stands.loop?_eq) hnone
  | calling place serves waits idle proceeds home live resumed => simp [live.pending] at hnone
  | suspended idle holds bridge parks completes proceeds live resumed =>
      simp [live.pending] at hnone
  | delivered outcomes ending evaluates pending lost still numbered resumed =>
      simp [outcomes] at hout
  | lost outcomes lost pending evaluates still numbered resumed => simp [pending] at hnone

/-- Hops are transparent, whenever two runs that differ in hops are looked at. -/
theorem Follows.transparent {σ' : Type} {P : Program S σ} {P' : Program S σ'} {r r' : Origin S}
    {s : State S σ} {s' : State S σ'} {st st' : Story S} (h : Follows P r s st)
    (h' : Follows P' r' s' st') (hP : P.Completes hop) (hP' : P'.Completes hop) (hr : r.Hops hop r')
    (alike : AnswersAlike hop st.exchanges st'.exchanges) : Transparent hop P' r' st s' st' := by
  have hpass := h.passing hP
  have hpass' := h'.passing hP'
  obtain ⟨n, hn, rests⟩ := h.tracks.rests
  obtain ⟨n', hn', rests'⟩ := h'.tracks.rests
  have hcompares : Compares hop st.exchanges st'.exchanges n n' :=
    (hn'.compares hpass'.pass.outcome).1 hr.course hn .nil (alike.always hpass.pass hpass'.pass)
  exact ⟨hcompares.sameCalls rests rests',
    fun k c o hq hk => (hpass'.asked k c o hq hk).passes h'.tracks hq, h'.tracks.goes⟩

namespace Errand

/-- What an errand completes its callback with, if it does nothing else. -/
def outcome? : Errand → Option Outcome
  | answer => some (.ok .null)
  | keep | describe => none

/-- The errand that has an outcome does nothing but complete its callback with it. -/
theorem completes_outcome? : program.Completes outcome? := by
  rintro (_ | _ | _) o ho c cb
  · cases ho
  · cases ho
    rfl
  · cases ho

/-- An effect that goes on with an errand, and the same with a hop in front. -/
theorem origin_hops (next : Errand) :
    (origin (.bind (.pure .null) (.bind (.user next)))).Hops outcome?
      (origin (.bind (.async answer) (.bind (.user next)))) := by
  have hhop : Effect.Hops (S := closures) outcome? (.ofOutcome (.ok .null)) (.async answer) :=
    .hop rfl
  exact ⟨.bind hhop _, rfl, rfl⟩

/-- With and without a hop in front, a run comes to keep its callback. -/
theorem transparent_keep :
    Transparent outcome? program (origin (.bind (.async answer) (.bind (.user keep))))
      (play (.bind (.pure .null) (.bind (.user keep))) 9).2
      (play (.bind (.async answer) (.bind (.user keep))) 12).1
      (play (.bind (.async answer) (.bind (.user keep))) 12).2 := by
  refine Follows.transparent (follows_play _ 9) (follows_play _ 12) completes_outcome?
    completes_outcome? (origin_hops keep) (.of_forall ?_)
  have hex : (play (.bind (.pure .null) (.bind (.user keep))) 9).2.exchanges =
      [⟨.canceled .uncancelable, false⟩, ⟨.canceled .uncancelable, false⟩,
        ⟨.bind keep .null, .ok (.async keep)⟩, ⟨.canceled .uncancelable, false⟩] := rfl
  have hex' : (play (.bind (.async answer) (.bind (.user keep))) 12).2.exchanges =
      [⟨.canceled .uncancelable, false⟩, ⟨.canceled .uncancelable, false⟩,
        ⟨.async answer .uncancelable, .ok .null⟩, ⟨.canceled .uncancelable, false⟩,
        ⟨.bind keep .null, .ok (.async keep)⟩, ⟨.canceled .uncancelable, false⟩] := rfl
  rw [hex, hex']
  intro x hx x' hx' hq
  simp only [List.mem_cons, List.not_mem_nil, or_false] at hx hx'
  rcases hx with rfl | rfl | rfl | rfl <;> rcases hx' with rfl | rfl | rfl | rfl | rfl | rfl <;>
    first
    | exact .canceled _ _
    | exact .same _ (.ok (.refl _))
    | cases hq

/-- A hop in front changes the text of the next callback, and so the outcome of a run that
asks for it. -/
theorem epoch_shows :
    ∃ s st s' st',
      Follows program (origin (.bind (.pure .null) (.bind (.user describe)))) s st ∧
      Follows program (origin (.bind (.async answer) (.bind (.user describe)))) s' st' ∧
      program.Completes outcome? ∧
      (origin (.bind (.pure .null) (.bind (.user describe)))).Hops outcome?
        (origin (.bind (.async answer) (.bind (.user describe)))) ∧
      st.outcomes = [.ok (.text (Callback.describe ⟨0, 1⟩))] ∧
      st'.outcomes = [.ok (.text (Callback.describe ⟨0, 2⟩))] ∧
      Callback.describe ⟨0, 1⟩ ≠ Callback.describe ⟨0, 2⟩ :=
  ⟨_, _, _, _, follows_play _ 20, follows_play _ 20, completes_outcome?, origin_hops describe,
    rfl, rfl, by decide⟩

end Errand

end Trampoline
