import Trampoline.Proofs.Run.Delivery
import Trampoline.Proofs.Run.Transparency

/-!
# What comes later

From a state in which a run is followed, the machine takes steps, and the host brings in
more code whenever it has come to its end.  What has been noted of the run by then is never
taken back.

Main definitions and results:

- Definition `Leads`: the states that come later, with what is known of the run by then.
- Theorem `Leads.follows`: the run is followed in all of them.
- Theorem `Leads.exchanges`: what a run has asked and was answered stays the beginning of
  what it asks.
- Theorem `Leads.noted`: each exchange of a run was noted in a step.
- Theorem `Leads.unchanged`: nothing happens any more to a run at its end.
- Theorem `Follows.terminal_started`: an outcome in the story of a run has been given to the
  terminal of the run, in a step.
-/

namespace Trampoline

variable {S : Closures} {σ : Type}

/-- The states to which the machine can be brought from a given one, with what becomes known
of a run on the way. -/
inductive Leads (P : Program S σ) (r : Origin S) (s : State S σ) (st : Story S) :
    State S σ → Story S → Prop
  | now : Leads P r s st s st
  | next {s' : State S σ} {st' : Story S} (h : Leads P r s st s' st') :
      Leads P r s st (s'.next P) (st'.next r.depth s')
  | again {s' : State S σ} {st' : Story S} (h : Leads P r s st s' st')
      (hs : s'.activations = []) (code : Code S σ Unit) :
      Leads P r s st (.start s'.world code) st'

/-- The bridge of a run that a panic has taken away keeps the terminal and waits for nobody. -/
theorem Tracks.still_of_lost {P : Program S σ} {r : Origin S} {s : State S σ} {st : Story S}
    (h : Tracks P r s st) (hlost : st.lost = true) :
    st.outcomes = [] ∧ st.pending ≠ none ∧ st.resumptions = st.callbacks ∧
      ∀ i, st.bridge = some i → Still i (some r.terminal) s := by
  have hlive : ∀ {q : Option (Question S)}, st.Live q → False := by
    intro q live
    have hfalse := live.lost
    rw [hlost] at hfalse
    cases hfalse
  cases h with
  | turn stands proceeds home live resumed => exact (hlive live).elim
  | calling place serves waits idle proceeds home live resumed => exact (hlive live).elim
  | suspended idle holds bridge parks completes proceeds live resumed => exact (hlive live).elim
  | delivered outcomes ending evaluates pending lost still numbered resumed =>
      rw [hlost] at lost
      cases lost
  | lost outcomes lost pending evaluates still numbered resumed =>
      exact ⟨outcomes, by simp [pending], resumed, still⟩

/-- The bridge of a run that has delivered has no terminal and waits for nobody. -/
theorem Tracks.still_of_delivered {P : Program S σ} {r : Origin S} {s : State S σ}
    {st : Story S} (h : Tracks P r s st) (hout : st.outcomes ≠ []) :
    ∀ i, st.bridge = some i → Still i none s := by
  cases h with
  | turn stands proceeds home live resumed => exact absurd live.outcomes hout
  | calling place serves waits idle proceeds home live resumed => exact absurd live.outcomes hout
  | suspended idle holds bridge parks completes proceeds live resumed =>
      exact absurd live.outcomes hout
  | lost outcomes lost pending evaluates still numbered resumed => exact absurd outcomes hout
  | delivered outcomes ending evaluates pending lost still numbered resumed => exact still

namespace Leads

variable {P : Program S σ} {r : Origin S} {s s' s'' : State S σ} {st st' st'' : Story S}

/-- A run is followed in all states that come later. -/
theorem follows (h : Leads P r s st s' st') (hf : Follows P r s st) : Follows P r s' st' := by
  induction h with
  | now => exact hf
  | next h ih => exact ih.next
  | again h hs code ih => exact ih.again hs code

theorem trans (h : Leads P r s st s' st') (h' : Leads P r s' st' s'' st'') :
    Leads P r s st s'' st'' := by
  induction h' with
  | now => exact h
  | next h' ih => exact ih.next
  | again h' hs code ih => exact ih.again hs code

/-- One step leads to a state that comes later. -/
theorem step (P : Program S σ) (r : Origin S) (s : State S σ) (st : Story S) :
    Leads P r s st (s.next P) (st.next r.depth s) :=
  .next .now

/-- So many steps lead to a state that comes later. -/
theorem chronicle (h : Leads P r s st s' st') (n : Nat) :
    Leads P r s st (chronicle P r.depth n (s', st')).1 (chronicle P r.depth n (s', st')).2 := by
  induction n generalizing s' st' with
  | zero => exact h
  | succ n ih => exact ih h.next

/-- A run that is followed has come from its start. -/
theorem of_follows (hf : Follows P r s st) :
    ∃ w rest, State.Reachable P (.running w r.activation rest) ∧ rest.length = r.depth ∧
      Leads P r (.running w r.activation rest) .beginning s st := by
  induction hf with
  | start h depth => exact ⟨_, _, h, depth, .now⟩
  | next hf ih =>
      obtain ⟨w, rest, h, depth, hl⟩ := ih
      exact ⟨w, rest, h, depth, hl.next⟩
  | again hf hs code ih =>
      obtain ⟨w, rest, h, depth, hl⟩ := ih
      exact ⟨w, rest, h, depth, hl.again hs code⟩

/-- Either nothing has happened since, or what has happened began with a step. -/
theorem first (h : Leads P r s st s' st') (hs : s.activations ≠ []) :
    s' = s ∧ st' = st ∨ Leads P r (s.next P) (st.next r.depth s) s' st' := by
  induction h with
  | now => exact .inl ⟨rfl, rfl⟩
  | next h ih =>
      rcases ih with ⟨rfl, rfl⟩ | ih
      · exact .inr .now
      · exact .inr ih.next
  | again h hs' code ih =>
      rcases ih with ⟨rfl, rfl⟩ | ih
      · exact absurd hs' hs
      · exact .inr (ih.again hs' code)

/-- What a run has asked and was answered stays the beginning of what it asks. -/
theorem exchanges (h : Leads P r s st s' st') (hf : Follows P r s st) :
    st.exchanges <+: st'.exchanges := by
  induction h with
  | now => exact List.prefix_rfl
  | again h hs code ih => exact ih
  | next h ih =>
      refine ih.trans ?_
      rcases (h.follows hf).tracks.gains with hsame | ⟨x, hadds, -⟩
      · exact hsame ▸ List.prefix_rfl
      · rw [hadds]
        exact List.prefix_append _ _

/-- What has been noted since was noted in a step. -/
theorem noted (h : Leads P r s st s' st') (hf : Follows P r s st) {xs ys : List (Exchange S)}
    {x : Exchange S} (hst : st.exchanges <+: xs) (hex : st'.exchanges = xs ++ x :: ys) :
    ∃ s₁ st₁, Leads P r s st s₁ st₁ ∧ st₁.exchanges = xs ∧
      (st₁.next r.depth s₁).exchanges = xs ++ [x] ∧
      Leads P r (s₁.next P) (st₁.next r.depth s₁) s' st' := by
  induction h generalizing ys with
  | now =>
      rw [hex] at hst
      have hlength := hst.length_le
      rw [List.length_append, List.length_cons] at hlength
      omega
  | again h hs code ih =>
      obtain ⟨s₁, st₁, hto, hxs, hx, hfrom⟩ := ih hex
      exact ⟨s₁, st₁, hto, hxs, hx, hfrom.again hs code⟩
  | @next s' st' h ih =>
      have hearlier : (∃ ys, st'.exchanges = xs ++ x :: ys) → ∃ s₁ st₁, Leads P r s st s₁ st₁ ∧
          st₁.exchanges = xs ∧ (st₁.next r.depth s₁).exchanges = xs ++ [x] ∧
          Leads P r (s₁.next P) (st₁.next r.depth s₁) (s'.next P) (st'.next r.depth s') := by
        rintro ⟨ys, hys⟩
        obtain ⟨s₁, st₁, hto, hxs, hx, hfrom⟩ := ih hys
        exact ⟨s₁, st₁, hto, hxs, hx, hfrom.next⟩
      rcases (h.follows hf).tracks.gains with hsame | ⟨y, hadds, -⟩
      · exact hearlier ⟨ys, hsame.symm.trans hex⟩
      · rw [hadds] at hex
        rcases split_concat hex with ⟨hxs, rfl⟩ | hys
        · exact ⟨s', st', h, hxs, by rw [hadds, hxs], .now⟩
        · exact hearlier hys

/-- Nothing happens any more to a run at its end. -/
theorem unchanged (h : Leads P r s st s' st') {t : Option (Terminal S)}
    (still : ∀ i, st.bridge = some i → Still i t s)
    (hover : st.outcomes ≠ [] ∨ st.lost = true) :
    st' = st ∧ ∀ i, st.bridge = some i → Still i t s' := by
  induction h with
  | now => exact ⟨rfl, still⟩
  | next h ih =>
      obtain ⟨rfl, hstill⟩ := ih
      exact ⟨Still.story_next hstill hover, fun i hi => (hstill i hi).next P⟩
  | again h hs code ih =>
      obtain ⟨rfl, hstill⟩ := ih
      exact ⟨rfl, fun i hi => (hstill i hi).again code⟩

end Leads

/-- A run that has an outcome has given it to its terminal in a step, before which it had none.
Where the terminal is code of the host, that step has started the code with the outcome. -/
theorem Follows.terminal_started {P : Program S σ} {r : Origin S} {s : State S σ} {st : Story S}
    (h : Follows P r s st) {o : Outcome} (ho : o ∈ st.outcomes) :
    ∃ s₀ st₀ w rest, Follows P r s₀ st₀ ∧ st₀.outcomes = [] ∧
      (st₀.next r.depth s₀).outcomes = [o] ∧ s₀.next P = .deliver P w r.terminal o rest ∧
      (∀ k, r.terminal = .user k → s₀.next P = .running w (.code (P.terminal k o)) rest) ∧
      Leads P r (s₀.next P) (st₀.next r.depth s₀) s st := by
  induction h with
  | start h depth => simp [Story.beginning] at ho
  | again h hs code ih =>
      obtain ⟨s₀, st₀, w, rest, hf, hnone, hout, hdeliver, huser, hl⟩ := ih ho
      exact ⟨s₀, st₀, w, rest, hf, hnone, hout, hdeliver, huser, hl.again hs code⟩
  | @next s st h ih =>
      rcases h.tracks.next_delivers with hsame | ⟨w, o', rest, hout, hdeliver⟩
      · obtain ⟨s₀, st₀, w, rest, hf, hnone, hout, hdeliver, huser, hl⟩ := ih (hsame ▸ ho)
        exact ⟨s₀, st₀, w, rest, hf, hnone, hout, hdeliver, huser, hl.next⟩
      · have hone := h.next.tracks.outcomes_length_le
        rw [hout, List.length_append, List.length_singleton] at hone
        have hnone : st.outcomes = [] := List.length_eq_zero_iff.mp (by omega)
        rw [hnone, List.nil_append] at hout
        obtain rfl : o = o' := by simpa [hout] using ho
        refine ⟨s, st, w, rest, h, hnone, hout, hdeliver, fun k hk => ?_, .now⟩
        rw [hdeliver, hk]
        rfl

end Trampoline
