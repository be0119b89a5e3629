import Trampoline.Proofs.Run.Attachment
import Trampoline.Proofs.Run.Unwinding

/-!
# How a run goes on

A run that waits for no answer has the turn, and in a few steps it has done what its
evaluation does next: it has looked at its connection, or asked for code of the host, or
delivered its outcome.

Main definitions and results:

- Theorem `chronicle_add`: steps after steps.
- Theorem `Follows.pending_ne_canceled`: a run never waits for the answer to a look.
- Theorem `Follows.looks`: a run whose evaluation looks at its connection does so.
- Theorem `Follows.delivers`: a run whose evaluation has exited delivers the outcome.
-/

namespace Trampoline

variable {S : Closures} {σ : Type}

/-- So many steps, and then some more. -/
theorem chronicle_add (P : Program S σ) (depth n k : Nat) (p : State S σ × Story S) :
    chronicle P depth (n + k) p = chronicle P depth k (chronicle P depth n p) := by
  induction n generalizing p with
  | zero => rw [Nat.zero_add, chronicle]
  | succ n ih =>
      obtain ⟨s, st⟩ := p
      rw [Nat.succ_add, chronicle, chronicle, ih]

variable {P : Program S σ} {r : Origin S} {s : State S σ} {st : Story S}

/-- A run never waits for the answer to a look, not even when a panic has taken it away. -/
theorem Follows.pending_ne_canceled (hf : Follows P r s st) (c : Connection) :
    st.pending ≠ some (.canceled c) := by
  induction hf with
  | start h depth => simp [Story.beginning]
  | again hf hs code ih => exact ih
  | @next s st hf ih =>
      cases hlost : st.lost with
      | true =>
          obtain ⟨-, -, -, hstill⟩ := hf.tracks.still_of_lost hlost
          rw [Still.story_next hstill (.inr hlost)]
          exact ih
      | false =>
          cases hafter : (st.next r.depth s).lost with
          | false => exact hf.next.tracks.pending_ne_canceled hafter c
          | true =>
              obtain ⟨-, hsame, -⟩ := hf.tracks.loses hlost hafter
              rw [hsame]
              exact ih

/-- Nothing is delivered while the evaluation asks. -/
theorem Follows.outcomes_of_asking (hf : Follows P r s st) {q : Question S}
    (h : Evaluates r.course st.exchanges (.asking q)) : st.outcomes = [] := by
  refine List.eq_nil_iff_forall_not_mem.mpr fun o ho => ?_
  obtain ⟨e, he, hunique⟩ := hf.agrees.outcome o ho
  rw [← (hunique _).mp h] at he
  cases he

/-- A run whose evaluation looks at its connection next does so in a few steps. -/
theorem Follows.looks (hf : Follows P r s st) {c : Connection}
    (h : Evaluates r.course st.exchanges (.asking (.canceled c))) :
    ∃ n ≤ 3, ∃ b, (Trampoline.chronicle P r.depth n (s, st)).2.exchanges =
      st.exchanges ++ [⟨.canceled c, b⟩] := by
  have hnone : st.pending = none := by
    refine Option.eq_none_iff_forall_ne_some.mpr fun q hq => ?_
    have hsame := (hf.tracks.asking hq).unique h
    rw [Ending.asking.injEq] at hsame
    exact hf.pending_ne_canceled c (hsame ▸ hq)
  obtain ⟨n, hn, e, he, hcomes⟩ := hf.tracks.goes hnone (hf.outcomes_of_asking h)
  obtain rfl := he.unique h
  rcases hcomes with ⟨hpending, -⟩ | ⟨b, hadds⟩
  · exact absurd hpending ((hf.chronicle n).pending_ne_canceled c)
  · exact ⟨n, hn, b, hadds⟩

/-- A run whose evaluation has exited delivers the outcome in a few steps, or has done so. -/
theorem Follows.delivers (hf : Follows P r s st) {c : Connection} {o : Outcome}
    (h : Evaluates r.course st.exchanges (.exited c o)) :
    ∃ n ≤ 3, (Trampoline.chronicle P r.depth n (s, st)).2.outcomes = [o] := by
  by_cases hout : st.outcomes = []
  · have hnone : st.pending = none := by
      refine Option.eq_none_iff_forall_ne_some.mpr fun q hq => ?_
      cases (hf.tracks.asking hq).unique h
    obtain ⟨n, hn, e, he, hcomes⟩ := hf.tracks.goes hnone hout
    obtain rfl := he.unique h
    rw [Comes, hout] at hcomes
    exact ⟨n, hn, hcomes⟩
  · refine ⟨0, by omega, ?_⟩
    cases hf.tracks with
    | delivered outcomes ending evaluates pending lost still numbered resumed =>
        obtain rfl := evaluates.unique h
        cases ending
        exact outcomes
    | turn stands proceeds home live resumed => exact absurd live.outcomes hout
    | calling place serves waits idle proceeds home live resumed => exact absurd live.outcomes hout
    | suspended idle holds bridge parks completes proceeds live resumed =>
        exact absurd live.outcomes hout
    | lost outcomes lost pending evaluates still numbered resumed => exact absurd outcomes hout

end Trampoline
