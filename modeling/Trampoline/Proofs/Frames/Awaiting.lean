import Trampoline.Proofs.Frames.Tally
import Trampoline.Proofs.Run.Attachment

/-!
# The frames that wait for a run

At every moment before its end, the frames that wait for the outcome of a run are in one place:
in its loop, wherever that stands on the control stack, or in its bridge.  A step that is no turn
of the run moves them from the bridge to a loop, or leaves them where they are.  A turn of the run
pushes one of them, takes some off, moves all to the bridge, or leaves them as they are.

Main definitions and results:

- Definition `Awaiting`: the frames that wait for a run.
- Theorem `Tracks.awaiting_unique`: they are in one place only.
- Definition `Tally.turn`, `Tally.next`: what a step writes down of them.
- Definition `Tally.Right`: the tally keeps up with the machine.
-/

namespace Trampoline

variable {S : Closures} {σ : Type}

/-- These frames wait for the outcome of a run, the next one first. -/
def Awaiting (r : Origin S) (st : Story S) (s : State S σ) (frames : List (Frame S)) : Prop :=
  ∃ c stack, Active r st s c stack ∧ stack.toList = frames

/-- An evaluation that asks is one question within the same frames only. -/
theorem Course.within_ask_inj {q q' : Question S} {next : q.Answer → Course S}
    {next' : q'.Answer → Course S} {frames frames' : List (Frame S)}
    (h : (ask q next).within frames = (ask q' next').within frames') : frames = frames' := by
  have hfront := congrArg front h
  rw [front_within, front_within, Prod.mk.injEq] at hfront
  simpa [front] using hfront.2

namespace Home

variable {r : Origin S} {st : Story S} {w : World S σ} {below : List (Activation S σ)}
  {run : Loop S}

/-- The frames of a loop in its home wait for the run. -/
theorem awaiting (home : Home r st w below run) {act : Activation S σ}
    (hrun : act.loop? = some run) : Awaiting r st (.running w act below) run.stack.toList :=
  ⟨run.connection, run.stack,
    home.active (show _ = [] ++ act :: below from rfl)
      ((Activation.every_iff_of_loop? hrun).mpr hrun), rfl⟩

end Home

namespace Tracks

variable {P : Program S σ} {r : Origin S} {s s' : State S σ} {st st' : Story S}

/-- The frames that wait for a run are in one place only. -/
theorem awaiting_unique (h : Tracks P r s st) (hout : st.outcomes = []) (hlost : st.lost = false)
    {frames frames' : List (Frame S)} (ha : Awaiting r st s frames)
    (ha' : Awaiting r st s frames') : frames = frames' := by
  obtain ⟨c, stack, hactive, rfl⟩ := ha
  obtain ⟨c', stack', hactive', rfl⟩ := ha'
  rcases h.of_active hactive hout hlost with
    ⟨w, act, below, run, m, rfl, stands, rfl, rfl, hnone⟩ | ⟨q, next, hq, hgoes, hlook, hp⟩
  · rcases h.of_active hactive' hout hlost with
      ⟨w', act', below', run', m', hs, stands', rfl, rfl, -⟩ | ⟨q, next, hq, -⟩
    · cases hs
      have hrun := stands.loop?_eq.symm.trans stands'.loop?_eq
      rw [Option.some.injEq] at hrun
      rw [hrun]
    · rw [hnone] at hq
      cases hq
  · rcases h.of_active hactive' hout hlost with
      ⟨_, _, _, _, _, _, _, _, _, hnone⟩ | ⟨q', next', hq', -, -, hp'⟩
    · rw [hnone] at hq
      cases hq
    · exact Course.within_ask_inj (hp.eq_of_asks hp' (Course.head_within_asks rfl _)
        (Course.head_within_asks rfl _))

/-- A run that waits for an answer waits with the frames that the evaluation keeps. -/
theorem awaiting_of_asks (h : Tracks P r s st) (hout : st.outcomes = []) (hlost : st.lost = false)
    {q : Question S} (hq : st.pending = some q) {q' : Question S} {next' : q'.Answer → Course S}
    {frames : List (Frame S)}
    (hp : Proceeds r.course st.exchanges ((Course.ask q' next').within frames)) :
    Awaiting r st s frames := by
  obtain ⟨c, stack, hactive⟩ := h.active hout hlost
  rcases h.of_active hactive hout hlost with
    ⟨_, _, _, _, _, _, _, _, _, hnone⟩ | ⟨q'', next'', -, -, -, hp'⟩
  · rw [hnone] at hq
    cases hq
  · exact ⟨c, stack, hactive, Course.within_ask_inj (hp'.eq_of_asks hp
      (Course.head_within_asks rfl _) (Course.head_within_asks rfl _))⟩

end Tracks

/-! ## What a step writes down -/

namespace Tally

/-- A turn of the run. -/
def turn (t : Tally S) (w : World S σ) : Activation S σ → Tally S
  | .eval (.loop run) node =>
    if w.connections.isCanceled run.connection then t.abandon
    else
      match node with
      | .fail e => t.exit run.stack (.error e)
      | .bind _ frame => t.push frame
      | .map _ f => t.push (.map f)
      | _ => t
  | .value (.loop run) v => t.exit run.stack (.ok v)
  | _ => t

/-- What the next step of the machine does with the frames of a run: a turn of the run may do
something, all other steps leave them alone. -/
def next (t : Tally S) (depth : Nat) (st : Story S) : State S σ → Tally S
  | .running w top rest => if st.takesTurn depth top rest then t.turn w top else t
  | .returned _ | .unwound _ _ => t

/-- The tally of a run is right: it is sound, the frames that it says are left are those that wait
for the run, none is left when the run has delivered, and only a cancellation that is delivered
gives frames up. -/
structure Right (t : Tally S) (r : Origin S) (s : State S σ) (st : Story S) : Prop where
  sound : t.Sound
  awaits : st.outcomes = [] → st.lost = false → ∃ frames, Awaiting r st s frames ∧ t.Holds frames
  emptied : st.outcomes ≠ [] → t.waiting = []
  abandoned : ∀ n, .leave n .abandoned ∈ t.moves → st.outcomes = [.error .cancelled] ∧
    ∃ c, st.exchanges.getLast? = some ⟨.canceled c, true⟩

namespace Right

variable {P : Program S σ} {r : Origin S} {st st' : Story S} {t t' : Tally S} {w w' : World S σ}
  {below : List (Activation S σ)} {act : Activation S σ} {run : Loop S} {frames : List (Frame S)}

/-- While the run goes on, no frame has been given up. -/
theorem kept {s : State S σ} (h : t.Right r s st) (hout : st.outcomes = []) (n : Nat) :
    .leave n .abandoned ∉ t.moves := fun hn => by
  have hcanceled := (h.abandoned n hn).1
  rw [hout] at hcanceled
  cases hcanceled

/-- A loop of the run is on top, with the frames of the tally. -/
theorem of_loop (hsound : t.Sound) (hkept : ∀ n, .leave n .abandoned ∉ t.moves)
    (home : Home r st w below run) (hrun : act.loop? = some run) (hh : t.Holds run.stack.toList)
    (hout : st.outcomes = []) : t.Right r (.running w act below) st where
  sound := hsound
  awaits := fun _ _ => ⟨_, home.awaiting hrun, hh⟩
  emptied := fun hne => absurd hout hne
  abandoned := fun n hn => absurd hn (hkept n)

/-- The run waits for an answer, with the frames that the evaluation keeps. -/
theorem of_asks {s : State S σ} (hsound : t.Sound) (hkept : ∀ n, .leave n .abandoned ∉ t.moves)
    (htracks : Tracks P r s st) (hout : st.outcomes = []) {q q' : Question S}
    {next : q'.Answer → Course S} (hq : st.pending = some q) (hh : t.Holds frames)
    (hp : Proceeds r.course st.exchanges ((Course.ask q' next).within frames)) :
    t.Right r s st where
  sound := hsound
  awaits := fun _ hlost => ⟨frames, htracks.awaiting_of_asks hout hlost hq hp, hh⟩
  emptied := fun hne => absurd hout hne
  abandoned := fun n hn => absurd hn (hkept n)

/-- The run has come to its end, and no frame is left. -/
theorem of_end {s : State S σ} (hsound : t.Sound) (hh : t.Holds [])
    (habandoned : ∀ n, .leave n .abandoned ∈ t.moves → st.outcomes = [.error .cancelled] ∧
      ∃ c, st.exchanges.getLast? = some ⟨.canceled c, true⟩) (hover : st.outcomes ≠ []) :
    t.Right r s st where
  sound := hsound
  awaits := fun hout => absurd hout hover
  emptied := fun _ => List.map_eq_nil_iff.mp hh
  abandoned := habandoned

/-- An exit goes to the next frame that takes it, or out of the run. -/
theorem leave (hsound : t.Sound) (hkept : ∀ n, .leave n .abandoned ∉ t.moves)
    (home : Home r st w below run) (live : st.Live none) (hh : t.Holds run.stack.toList)
    (o : Outcome) :
    (t.exit run.stack o).Right r (State.leave P w run o below) (st.leave run o) := by
  have hkept' : ∀ n, .leave n .abandoned ∉ (t.exit run.stack o).moves := hsound.kept_exit hh hkept
  unfold State.leave Story.leave
  cases htake : run.stack.takeFor o with
  | mk frame stack =>
      cases frame with
      | some frame =>
          obtain ⟨-, -, -, -, -, -, hsound', hh'⟩ := hsound.exit_some hh htake
          exact of_loop hsound' hkept' ((home.withStack stack).of_story rfl rfl) rfl hh'
            live.outcomes
      | none =>
          obtain ⟨-, -, hsound', hh'⟩ := hsound.exit_none hh htake
          refine of_end hsound' hh' (fun n hn => absurd hn (hkept' n)) ?_
          simp [Story.deliver]

end Right

end Tally

end Trampoline
