import Trampoline.Proofs.Partial.Composition
import Trampoline.Proofs.Run.Progress

/-!
# Partial evaluation stops at the first need of a live run

A partial evaluation calls for no code but that of thunks, binders, mapped values and
recoveries, and does nothing else to the world.  What it leaves is an outcome or an
asynchronous boundary.  A run with the same answers tells the same story: it comes to that
outcome without a node that needs a live run, or the first such node that it meets is the one
that is left, with the frames that are pending there.

Main definitions and results:

- Definition `Met`, theorem `Follows.met_iff`: the nodes that a run has met.
- Definition `Question.Direct`, theorem `Unfolds.keepsStill`: what a partial evaluation calls
  for.
- Definition `Effect.Concludes`, theorem `Unfolds.leaves`: what it leaves.
- Definition `MatchesResidue`, theorem `Unfolds.matchesResidue`: what a run does with the same
  answers.
- Definition `Stops`, theorem `Unfolds.stops`: a partial evaluation stops at the first node
  that needs a live run.
-/

namespace Trampoline

variable {S : Closures} {σ : Type}

/-! ## The nodes that a run meets -/

/-- On the way to this state the run has met the node with this loop, on a connection that was
not canceled, when `before` was known of it. -/
def Met (P : Program S σ) (r : Origin S) (s : State S σ) (st before : Story S) (run : Loop S)
    (node : Effect S) : Prop :=
  ∃ w rest, Follows P r (.running w (.eval (.loop run) node) rest) before ∧
    before.takesTurn r.depth (.eval (.loop run) node : Activation S σ) rest = true ∧
    w.connections.isCanceled run.connection = false ∧
    Leads P r (State.next P (.running w (.eval (.loop run) node) rest))
      (before.next r.depth (.running w (.eval (.loop run) node) rest)) s st

section

variable {P : Program S σ} {r : Origin S} {s : State S σ} {st before : Story S} {run : Loop S}
  {node : Effect S}

/-- The evaluation of a run was in front of each node that the run has met. -/
theorem Met.proceeds (h : Met P r s st before run node) :
    before.exchanges ++ [⟨.canceled run.connection, false⟩] <+: st.exchanges ∧
      Proceeds r.course before.exchanges
        ((Course.eval run.connection node).within run.stack.toList) := by
  obtain ⟨w, rest, hf, hturn, hopen, hleads⟩ := h
  refine ⟨?_, (hf.tracks.of_turn_eval hturn).2⟩
  have hadds : (before.next r.depth (.running w (.eval (.loop run) node) rest)).exchanges =
      before.exchanges ++ [⟨.canceled run.connection, false⟩] := by
    simp only [Story.next, hturn, if_true, Story.turn_eval_exchanges, hopen]
  exact hadds ▸ hleads.exchanges hf.next

theorem Met.meets (h : Met P r s st before run node) : r.course.Meets st.exchanges node := by
  obtain ⟨⟨zs, hzs⟩, hproceeds⟩ := h.proceeds
  exact ⟨before.exchanges, run.connection, zs, run.stack.toList, by simp [← hzs], hproceeds⟩

/-- A run has met each node that its evaluation was in front of, with the frames that were
pending there. -/
theorem Follows.met_of_proceeds (hf : Follows P r s st) {c : Connection} {frames : List (Frame S)}
    {ys : List (Exchange S)} (hex : ys ++ [⟨.canceled c, false⟩] <+: st.exchanges)
    (h : Proceeds r.course ys ((Course.eval c node).within frames)) :
    ∃ before run, Met P r s st before run node ∧ before.exchanges = ys ∧
      run.connection = c ∧ run.stack.toList = frames := by
  obtain ⟨zs, hzs⟩ := hex
  rw [List.append_assoc, List.singleton_append] at hzs
  obtain ⟨w, rest, hreachable, depth, hleads⟩ := Leads.of_follows hf
  have hstart : Follows P r (.running w r.activation rest) .beginning := .start hreachable depth
  obtain ⟨s₁, st₁, hto, hys, hadds, hfrom⟩ := hleads.noted hstart List.nil_prefix hzs.symm
  have hf₁ := hto.follows hstart
  rw [← hys] at hadds h
  obtain ⟨w₁, run, node', rest₁, rfl, hturn, rfl, hopen, hproceeds⟩ :=
    hf₁.tracks.loop_of_look hadds
  -- Both the run and the evaluation look at a connection here, so they are in front of one node.
  have hsame := hproceeds.eq_of_asks h (Course.head_within_asks rfl _)
    (Course.head_within_asks rfl _)
  obtain ⟨-, rfl, rfl⟩ := Course.within_eval_inj hsame
  exact ⟨st₁, run, ⟨w₁, rest₁, hf₁, hturn, hopen, hfrom⟩, hys, rfl, rfl⟩

/-- The nodes that a run has met are those that its evaluation has met. -/
theorem Follows.met_iff (hf : Follows P r s st) :
    (∃ before run, Met P r s st before run node) ↔ r.course.Meets st.exchanges node := by
  constructor
  · rintro ⟨before, run, h⟩
    exact h.meets
  · rintro ⟨ys, c, zs, frames, hex, h⟩
    obtain ⟨before, run, hmet, -⟩ := hf.met_of_proceeds ⟨zs, by simp [hex]⟩ h
    exact ⟨before, run, hmet⟩

/-- A run makes the looks of its evaluation, as long as they find nothing. -/
theorem Follows.looks_on (hf : Follows P r s st) {ws : List (Exchange S)} {k : Course S}
    (hk : Proceeds r.course (st.exchanges ++ ws) k) (hlooks : spoken ws = []) (hopen : Open ws)
    (hopens : ∀ n, Open (Trampoline.chronicle P r.depth n (s, st)).2.exchanges) :
    ∃ n, st.exchanges ++ ws <+: (Trampoline.chronicle P r.depth n (s, st)).2.exchanges := by
  induction ws generalizing s st with
  | nil => exact ⟨0, by simp [Trampoline.chronicle]⟩
  | cons x ws ih =>
      have hlook : x.isLook = true := by
        by_contra hx
        rw [spoken_cons (by simpa using hx)] at hlooks
        cases hlooks
      obtain ⟨q, a⟩ := x
      cases q with
      | canceled c =>
          obtain ⟨n, -, b, hadds⟩ := hf.looks hk.asked
          obtain rfl : a = false := by
            cases a with
            | true => exact absurd List.mem_cons_self (hopen c)
            | false => rfl
          obtain rfl : b = false := by
            cases b with
            | true => exact absurd (by simp [hadds]) (hopens n c)
            | false => rfl
          have hlater := fun k => chronicle_add P r.depth n k (s, st)
          rw [List.append_cons, ← hadds] at hk ⊢
          obtain ⟨k, hk⟩ := ih (hf.chronicle n) hk hlooks
            (fun d hd => hopen d (List.mem_cons_of_mem _ hd)) fun k => hlater k ▸ hopens (n + k)
          exact ⟨n + k, hlater k ▸ hk⟩
      | _ => cases hlook

/-- A run that has been given the answers of an evaluation comes as far as that. -/
theorem Follows.arrives (hf : Follows P r s st) {xs : List (Exchange S)} {k : Course S}
    (hk : Proceeds r.course xs k) (hopen : Open xs) (hspoken : spoken st.exchanges = spoken xs)
    (hopens : ∀ n, Open (Trampoline.chronicle P r.depth n (s, st)).2.exchanges) :
    ∃ n, xs <+: (Trampoline.chronicle P r.depth n (s, st)).2.exchanges := by
  obtain ⟨m, hm⟩ := hf.tracks.proceeds
  have halike : SameAnswers st.exchanges xs :=
    .of_spoken (hopens 0) hopen (.of_isPrefix (hspoken ▸ List.prefix_rfl))
  rcases hm.comparable hk halike with ⟨ws, rfl, -⟩ | ⟨ws, hws, -⟩
  · exact hf.looks_on hk (by simpa using hspoken) hopen.of_append.2 hopens
  · exact ⟨0, ws, hws.symm⟩

end

/-! ## What a partial evaluation calls for -/

/-- All that is asked in the story is direct. -/
structure Story.AllDirect (st : Story S) : Prop where
  exchanges : ∀ x ∈ st.exchanges, x.question.Direct
  pending : ∀ q, st.pending = some q → q.Direct

namespace Story.AllDirect

variable {st : Story S}

theorem answer (h : st.AllDirect) (reply : Reply S) : (st.answer reply).AllDirect := by
  unfold Story.answer
  split
  · next q hq =>
      refine ⟨fun x hx => ?_, by simp⟩
      rcases List.mem_append.mp hx with hx | hx
      · exact h.exchanges x hx
      · rw [List.mem_singleton.mp hx]
        exact h.pending q hq
  · exact h

theorem heed (h : st.AllDirect) {α : Type} (w : World S σ) (code : Code S σ α)
    (reply : Except Failure α → Reply S) : (st.heed w code reply).AllDirect := by
  cases code with
  | done a => exact h.answer _
  | panic payload =>
      simp only [Story.heed]
      split
      · exact h.answer _
      · exact ⟨h.exchanges, h.pending⟩
  | _ => exact h

theorem pass (h : st.AllDirect) (stack : CallStack (Frame S)) (o : Outcome) :
    (st.pass stack o).AllDirect := by
  unfold Story.pass
  split
  · exact ⟨h.exchanges, fun q hq => Frame.direct hq⟩
  · exact h

/-- A turn of a partial evaluation asks for direct code only. -/
theorem unfold (h : st.AllDirect) (w : World S σ) (act : Activation S σ) :
    (st.unfold w act).AllDirect := by
  have hasks : ∀ {q : Question S}, q.Direct → (st.ask (some q)).AllDirect := by
    refine fun hq => ⟨h.exchanges, fun q' hq' => ?_⟩
    cases hq'
    exact hq
  cases act with
  | eval d node =>
      cases d with
      | loop run => exact h
      | partially stack resume =>
          cases node with
          | fail e => exact h.pass stack _
          | suspend k => exact hasks trivial
          | delay k => exact hasks trivial
          | _ => exact h
  | value d v => cases d with
    | loop run => exact h
    | partially stack resume => exact h.pass stack _
  | node d code => cases d with
    | loop run => exact h
    | partially stack resume => exact h.heed w code _
  | outcome d code => cases d with
    | loop run => exact h
    | partially stack resume => exact h.heed w code fun r => .outcome (r.bind id)
  | _ => exact h

end Story.AllDirect

theorem Unfolds.allDirect {P : Program S σ} {p : Opening S σ} {s : State S σ} {u : Prelude S}
    (h : Unfolds P p s u) : u.story.AllDirect := by
  induction h with
  | start h depth => exact ⟨by simp [Prelude.beginning, Story.beginning], nofun⟩
  | again h hs code ih => exact ih
  | @next s u h ih =>
      cases s with
      | returned w => exact ih
      | unwound w payload => exact ih
      | running w top rest =>
          simp only [Prelude.next]
          split
          · exact ih.unfold w top
          · exact ih

/-- The step keeps to the place and the world that it starts from, with code that it starts. -/
def State.KeepsStill (P : Program S σ) (c : Connection) (w : World S σ)
    (rest : List (Activation S σ)) (st : Story S) (s : State S σ) : Prop :=
  ∃ act, s = .running w act rest ∧
    ∀ q, st.pending = some q → q.Started P st (.running w (act.live c) rest)

section

variable {P : Program S σ} {w : World S σ} {rest : List (Activation S σ)} {st : Story S}
  {stack : CallStack (Frame S)} {resume : Except Payload (Effect S) → Activation S σ}

theorem State.KeepsStill.of_none {c : Connection} {act : Activation S σ}
    (hnone : st.pending = none) : KeepsStill P c w rest st (.running w act rest) :=
  ⟨act, rfl, by simp [hnone]⟩

/-- An exit that a frame takes starts the code of the frame. -/
theorem State.keepsStill_pass (c : Connection) (o : Outcome) (hnone : st.pending = none) :
    KeepsStill P c w rest (st.pass stack o) (pass P w stack resume o rest) := by
  unfold Story.pass pass
  cases htake : stack.takeFor o with
  | mk frame stack' =>
      cases frame with
      | none => exact .of_none hnone
      | some frame =>
          exact ⟨_, rfl, fun q hq => Frame.started hq P _ w (.passing c stack') rest⟩

/-- A turn of a partial evaluation starts the code of its question, and does nothing else to
the world. -/
theorem State.keepsStill_work {c : Connection} {act : Activation S σ} {run : Loop S}
    {m : Course S} (stands : Stands (act.live c) run m) (behind : act.behind? = some resume)
    (hnone : st.pending = none) :
    KeepsStill P c w rest (st.unfold w act) (work P w rest act) := by
  cases act with
  | eval d node =>
      cases d with
      | loop run' => cases behind
      | partially stack resume =>
          cases node with
          | fail e =>
              simp only [work, State.eval, State.reduce_fail_eq_pass]
              exact keepsStill_pass c (.error e) hnone
          | suspend k =>
              refine ⟨_, rfl, fun q hq => ?_⟩
              cases hq
              exact ⟨w, .passing c stack, rest, rfl⟩
          | delay k =>
              refine ⟨_, rfl, fun q hq => ?_⟩
              cases hq
              exact ⟨w, .passing c stack, rest, rfl⟩
          | _ => exact .of_none hnone
  | value d v =>
      cases d with
      | loop run' => cases behind
      | partially stack resume =>
          simp only [work, State.value_eq_pass]
          exact keepsStill_pass c (.ok v) hnone
  | node d code =>
      cases d with
      | loop run' => cases behind
      | partially stack resume =>
          cases stands
          refine .of_none ?_
          simp [Story.unfold, Story.heed, Story.answer, hnone]
  | outcome d code => cases stands
  | _ => cases behind

end

/-! ## What is left -/

/-- The nodes that a partial evaluation may leave: outcomes and asynchronous boundaries. -/
def Effect.Halts : Effect S → Prop
  | .pure _ | .fail _ | .async _ | .parked _ _ | .deferred _ _ => True
  | _ => False

/-- In front of this node, with these frames pending, this effect is left: a boundary by itself
if no frame is pending, or else a boundary that takes the node up with the frames. -/
structure Effect.StandsFor (left node : Effect S) (frames : List (Frame S)) : Prop where
  needs : node.NeedsRun
  same : left = node ↔ node.Suspends ∧ frames = []
  parked : left ≠ node → ∃ stack, stack.toList = frames ∧ left = .parked node stack

theorem Effect.StandsFor.ne_ofOutcome {left node : Effect S} {frames : List (Frame S)}
    (h : left.StandsFor node frames) (o : Outcome) : left ≠ .ofOutcome o := by
  rintro rfl
  by_cases hsame : Effect.ofOutcome o = node
  · have hneeds := h.needs
    rw [← hsame] at hneeds
    cases o <;> exact hneeds
  · obtain ⟨stack, -, hparked⟩ := h.parked hsame
    cases o <;> cases hparked

/-- A boundary is larger than what it takes up. -/
theorem Effect.parked_ne (node : Effect S) (stack : CallStack (Frame S)) :
    Effect.parked node stack ≠ node := by
  intro h
  have hsize := congrArg sizeOf h
  simp at hsize
  omega

/-- What is left in front of a node that needs a live run. -/
theorem Residue.standsFor_ofNode (stack : CallStack (Frame S)) {node : Effect S}
    (needs : node.NeedsRun) :
    (ofNode stack node).effect.Halts ∧
      (ofNode stack node).effect.StandsFor node stack.toList := by
  have hpending : ¬(node.Suspends ∧ stack.toList = []) →
      (Residue.pending node stack).effect.StandsFor node stack.toList := fun hnot =>
    ⟨needs, iff_of_false (Effect.parked_ne node stack) hnot, fun _ => ⟨stack, rfl, rfl⟩⟩
  have hboundary : node.Suspends → stack.isEmpty = true →
      (Residue.boundary node).effect.StandsFor node stack.toList := fun hs hempty =>
    ⟨needs, iff_of_true rfl ⟨hs, stack.isEmpty_iff.mp hempty⟩, fun hne => absurd rfl hne⟩
  cases node with
  | switchConnection source modify restore => exact ⟨trivial, hpending fun h => h.1⟩
  | async k =>
      simp only [ofNode]
      split
      · next h => exact ⟨trivial, hboundary trivial h⟩
      · next h => exact ⟨trivial, hpending fun hs => h (stack.isEmpty_iff.mpr hs.2)⟩
  | parked inner stack' =>
      simp only [ofNode]
      split
      · next h => exact ⟨trivial, hboundary trivial h⟩
      · next h => exact ⟨trivial, hpending fun hs => h (stack.isEmpty_iff.mpr hs.2)⟩
  | deferred context b =>
      simp only [ofNode]
      split
      · next h => exact ⟨trivial, hboundary trivial h⟩
      · next h => exact ⟨trivial, hpending fun hs => h (stack.isEmpty_iff.mpr hs.2)⟩
  | _ => exact needs.elim

namespace Synchronous

variable {m k : Course S} {ys zs : List (Exchange S)}

/-- An evaluation with the same answers as one that has exited has met nothing on the way. -/
theorem behind_exit {c : Connection} {o : Outcome} (h : Synchronous m zs (.exit c o))
    (hk : Proceeds m ys k) (hopen : Open ys) (alike : SameAnswers zs (spoken ys)) :
    ∃ xs, Proceeds m xs (.exit c o) ∧ Open xs ∧ spoken xs = zs ∧ ys <+: xs ∧
      ∀ node, m.Meets ys node → ¬node.NeedsRun := by
  obtain ⟨xs, hxs, hopen', rfl, hmeets⟩ := h.proceeds
  have hprefix : ys <+: xs := by
    rcases hxs.comparable hk (.of_spoken hopen' hopen alike) with ⟨ws, rfl, hrest⟩ | ⟨ws, hws, -⟩
    · obtain ⟨rfl, -⟩ := hrest.of_outcome (o := o) rfl
      simp
    · exact ⟨ws, hws.symm⟩
  refine ⟨xs, hxs, hopen', rfl, hprefix, fun node ⟨ys', c', ws, frames, hys, hmet⟩ => ?_⟩
  obtain ⟨ws', rfl⟩ := hprefix
  exact hmeets node ⟨ys', c', ws ++ ws', frames, by simp [hys], hmet⟩

section

variable {c : Connection} {node : Effect S} {frames : List (Frame S)}

/-- An evaluation with the same answers as one that has come to a node that needs a live run is
not beyond it, or has met it. -/
theorem beside_node (h : Synchronous m zs ((Course.eval c node).within frames))
    (hk : Proceeds m ys k) (hopen : Open ys) (alike : SameAnswers zs (spoken ys)) :
    ∃ xs, Proceeds m xs ((Course.eval c node).within frames) ∧ Open xs ∧ spoken xs = zs ∧
      (∀ node', m.Meets xs node' → ¬node'.NeedsRun) ∧
      (xs ++ [⟨.canceled c, false⟩] <+: ys ∨
        ∃ ws, xs = ys ++ ws ∧ Proceeds k ws ((Course.eval c node).within frames)) := by
  obtain ⟨xs, hxs, hopen', rfl, hmeets⟩ := h.proceeds
  refine ⟨xs, hxs, hopen', rfl, hmeets, ?_⟩
  rcases hxs.comparable hk (.of_spoken hopen' hopen alike) with ⟨ws, rfl, hrest⟩ | ⟨ws, hws, hrest⟩
  · rcases hrest.taken (Course.head_within_asks rfl frames) with ⟨rfl, rfl⟩ | ⟨a, ws, rfl, -⟩
    · exact .inr ⟨[], by simp, .refl _⟩
    · have hlook : a = false := by
        cases a with
        | true => exact absurd (by simp) (hopen c)
        | false => rfl
      subst hlook
      exact .inl ⟨ws, by simp⟩
  · exact .inr ⟨ws, hws, hrest⟩

/-- An evaluation with an outcome has met the node that it needed a live run for. -/
theorem meets_of_outcome (h : Synchronous m zs ((Course.eval c node).within frames))
    (hk : Proceeds m ys k) (hopen : Open ys) (alike : SameAnswers zs (spoken ys)) {o : Outcome}
    (hout : k.head.outcome? = some o) : m.Meets ys node := by
  obtain ⟨xs, hxs, -, -, -, ⟨ws, hws⟩ | ⟨ws, -, hrest⟩⟩ := h.beside_node hk hopen alike
  · exact ⟨xs, c, ws, frames, by simp [← hws], hxs⟩
  · obtain ⟨-, rfl⟩ := hrest.of_outcome hout
    rw [Course.head_within_asks (m := Course.eval c node) rfl frames] at hout
    cases hout

/-- The first node that needs a live run is met before all others. -/
theorem first (h : Synchronous m zs ((Course.eval c node).within frames)) {c' : Connection}
    {node' : Effect S} {frames' : List (Frame S)}
    (hmet : Proceeds m ys ((Course.eval c' node').within frames')) (hneeds : node'.NeedsRun)
    {ys' : List (Exchange S)} (hys : ys ++ [⟨.canceled c', false⟩] <+: ys') (hopen : Open ys')
    (alike : SameAnswers zs (spoken ys')) :
    ∃ xs, Proceeds m xs ((Course.eval c node).within frames) ∧ spoken xs = zs ∧ xs <+: ys ∧
      xs ++ [⟨.canceled c, false⟩] <+: ys' := by
  have hbefore := (List.prefix_append ys _).trans hys
  obtain ⟨ts, hts⟩ := hbefore
  have hopens : Open ys := (hts ▸ hopen).of_append.1
  obtain ⟨xs, hxs, hopen', hspoken, hmeets, hcases⟩ :=
    h.beside_node hmet hopens (alike.start (spoken_isPrefix ⟨ts, hts⟩))
  refine ⟨xs, hxs, hspoken, ?_⟩
  rcases hcases with hbefore | ⟨ws, rfl, hrest⟩
  · exact ⟨(List.prefix_append xs _).trans hbefore, hbefore.trans ⟨ts, hts⟩⟩
  · rcases hrest.taken (Course.head_within_asks rfl frames') with ⟨rfl, hsame⟩ | ⟨a, ws, rfl, -⟩
    · obtain ⟨rfl, -, -⟩ := Course.within_eval_inj hsame
      exact ⟨by simp, by simpa using hys⟩
    · -- The node would be met on the way to the first one.
      have hlook : a = false := by
        cases a with
        | true => exact absurd (by simp) (hopen' c')
        | false => rfl
      subst hlook
      exact absurd hneeds (hmeets node' ⟨ys, c', ws, frames', rfl, hmet⟩)

end

end Synchronous

/-! ## Where a partial evaluation stops -/

/-- With these answers between looks that find nothing, the effect comes to the outcome, and
meets no node that needs a live run. -/
def Effect.Concludes (e : Effect S) (c : Connection) (zs : List (Exchange S)) (o : Outcome) :
    Prop :=
  ∃ xs, Open xs ∧ spoken xs = zs ∧ Evaluates (.eval c e) xs (.exited c o) ∧
    ∀ node, (Course.eval c e).Meets xs node → ¬node.NeedsRun

/-- A partial evaluation of what halts gives it back, and does nothing to the world. -/
theorem Effect.Halts.again {e : Effect S} (h : e.Halts) (P : Program S σ) (w : World S σ)
    (resume : Except Payload (Effect S) → Activation S σ) (rest : List (Activation S σ)) :
    ∃ k ≤ 2, State.run P k (.running w (.eval (.partially .empty resume) e) rest) =
      .running w (resume (.ok e)) rest := by
  cases e with
  | pure v => exact ⟨2, by omega, rfl⟩
  | fail e => exact ⟨1, by omega, rfl⟩
  | async k => exact ⟨1, by omega, rfl⟩
  | parked inner stack => exact ⟨1, by omega, rfl⟩
  | deferred context b => exact ⟨1, by omega, rfl⟩
  | _ => exact h.elim

/-- A run on open connections that is answered like a partial evaluation has this to do with
what that has left. -/
structure MatchesResidue (P : Program S σ) (r : Origin S) (s : State S σ) (st : Story S)
    (u : Prelude S) (left : Effect S) : Prop where
  /-- The outcome of the run is left if the run has met no node that needs a live run, and only
  then. -/
  delivered : ∀ o, st.outcomes = [o] →
    (left = .ofOutcome o ↔ ∀ before run node, Met P r s st before run node → ¬node.NeedsRun)
  /-- Where an outcome is left, the run meets no such node, and makes the same calls until it
  delivers it. -/
  outcome : ∀ o, left = .ofOutcome o →
    (∀ before run node, Met P r s st before run node → ¬node.NeedsRun) ∧
      SameCalls (fun _ => none) Eq { u.story with outcomes := [o] } st
  /-- It delivers it once it has the answers, if its connection is never canceled. -/
  arrives : ∀ o, left = .ofOutcome o → spoken st.exchanges = u.story.exchanges →
    (∀ n, Open (chronicle P r.depth n (s, st)).2.exchanges) →
      ∃ n, (chronicle P r.depth n (s, st)).2.outcomes = [o]
  /-- The first node that the run meets and that needs a live run is what is left, with the
  frames that are pending there. -/
  first : ∀ before run node, Met P r s st before run node → node.NeedsRun →
    ∃ before' run' node', Met P r s st before' run' node' ∧
      left.StandsFor node' run'.stack.toList ∧ before'.exchanges <+: before.exchanges ∧
      spoken before'.exchanges = u.story.exchanges
  /-- It meets one once it has the answers, if no outcome is left. -/
  meets : (∀ o, left ≠ .ofOutcome o) → spoken st.exchanges = u.story.exchanges →
    (∀ n, Open (chronicle P r.depth n (s, st)).2.exchanges) →
      ∃ n before run node, node.NeedsRun ∧ Met P r (chronicle P r.depth n (s, st)).1
        (chronicle P r.depth n (s, st)).2 before run node

/-- A partial evaluation stops at the first node that needs a live run. -/
structure Stops (P : Program S σ) (p : Opening S σ) (s : State S σ) (u : Prelude S) : Prop where
  /-- It calls for direct code only. -/
  direct : u.story.AllDirect
  /-- In a turn of its own it makes no request and leaves the world alone. -/
  still : ∀ c w top rest, s = .running w top rest →
    u.takesTurn p.depth p.layers top rest = true → u.story.pending = none →
      State.KeepsStill P c w rest (u.next p.depth p.layers s).story (s.next P)
  /-- What is left is given to the code that has asked for it. -/
  handsBack : u.residue = none → ∀ r, (u.next p.depth p.layers s).residue = some r →
    ∃ w rest, rest.length = p.depth ∧
      s.next P = .running w (p.resume (r.map Residue.effect)) rest
  /-- It is an outcome or an asynchronous boundary. -/
  halts : ∀ left, u.residue = some (.ok left) → left.effect.Halts
  /-- It is an outcome if the effect comes to that without a node that needs a live run, and
  only then. -/
  outcome : ∀ left, u.residue = some (.ok left) → ∀ c o,
    left.effect = .ofOutcome o ↔ p.effect.Concludes c u.story.exchanges o
  /-- Else it stands for the first such node, with the frames that are pending there. -/
  boundary : ∀ left, u.residue = some (.ok left) → (∀ o, left.effect ≠ .ofOutcome o) → ∀ c,
    ∃ node frames, left.effect.StandsFor node frames ∧
      Synchronous (.eval c p.effect) u.story.exchanges ((Course.eval c node).within frames)
  /-- So it does for all runs with the same answers. -/
  runs : ∀ left, u.residue = some (.ok left) → ∀ {σ' : Type} (P' : Program S σ') r s' st' c,
    Follows P' r s' st' → r.Fresh p.effect c → Open st'.exchanges →
      SameAnswers u.story.exchanges (spoken st'.exchanges) →
        MatchesResidue P' r s' st' u left.effect
  /-- Partial evaluation of what is left gives it back at once. -/
  again : ∀ left, u.residue = some (.ok left) → ∀ {σ' : Type} (P' : Program S σ') w resume rest,
    ∃ k ≤ 2, State.run P' k (.running w (.eval (.partially .empty resume) left.effect) rest) =
      .running w (resume (.ok left.effect)) rest

theorem Effect.ofOutcome_inj {o o' : Outcome}
    (h : (Effect.ofOutcome o : Effect S) = .ofOutcome o') : o = o' := by
  cases o <;> cases o' <;> cases h <;> rfl

section

variable {P : Program S σ} {p : Opening S σ} {s : State S σ} {u : Prelude S} {left : Residue S}

/-- What a partial evaluation leaves is the outcome of an evaluation that has met no node that
needs a live run, or stands for the first such node. -/
theorem Unfolds.leaves (h : Unfolds P p s u) (hleft : u.residue = some (.ok left))
    (c : Connection) : u.story.pending = none ∧
      ((∃ o, left = .outcome o ∧
          Synchronous (.eval c p.effect) u.story.exchanges (.exit c o)) ∨
        ∃ node frames, left.effect.Halts ∧ left.effect.StandsFor node frames ∧
          Synchronous (.eval c p.effect) u.story.exchanges
            ((Course.eval c node).within frames)) := by
  obtain ⟨story, residue⟩ := u
  cases hleft
  cases h.previews c with
  | ended leaves comes pending =>
      refine ⟨pending, ?_⟩
      cases leaves with
      | outcome o => exact .inl ⟨o, rfl, comes⟩
      | node stack needs =>
          obtain ⟨halts, stands⟩ := Residue.standsFor_ofNode stack needs
          exact .inr ⟨_, _, halts, stands, comes⟩

end

section

variable {P : Program S σ} {r : Origin S} {s : State S σ} {st : Story S} {u : Prelude S}
  {e left : Effect S} {c : Connection}

/-- A run with the answers of a partial evaluation that has left an outcome. -/
theorem MatchesResidue.of_outcome {o : Outcome}
    (comes : Synchronous (.eval c e) u.story.exchanges (.exit c o))
    (hnone : u.story.pending = none) (hf : Follows P r s st) (hr : r.Fresh e c)
    (hopen : Open st.exchanges) (alike : SameAnswers u.story.exchanges (spoken st.exchanges)) :
    MatchesResidue P r s st u (.ofOutcome o) := by
  have hcourse := hr.course_eq
  obtain ⟨k, hk, rests⟩ := hf.tracks.rests
  rw [hcourse] at hk
  obtain ⟨xs, hxs, hopen', hspoken, hprefix, hmeets⟩ := comes.behind_exit hk hopen alike
  have hmet : ∀ before run node, Met P r s st before run node → ¬node.NeedsRun :=
    fun before run node hmet => hmeets node (hcourse ▸ hmet.meets)
  have hcalls : SameCalls (fun _ => none) Eq { u.story with outcomes := [o] } st := by
    have hrecounts : ({ u.story with outcomes := [o] } : Story S).Recounts (.eval c e) := by
      refine ⟨.exit c o, comes.unhindered, fun q hq => ?_, fun o' ho' => ?_⟩
      · rw [hnone] at hq
        cases hq
      · rw [List.mem_singleton.mp ho']
        rfl
    refine hrecounts.sameCalls (hcourse ▸ hf.recounts hopen) ?_
    rwa [← hspoken, spoken_spoken, hspoken]
  refine ⟨fun o' ho' => ⟨fun _ => hmet, fun _ => ?_⟩, fun o' ho' => ?_,
    fun o' ho' hall hopens => ?_,
    fun before run node hbefore hneeds => absurd hneeds (hmet _ _ _ hbefore),
    fun hno => absurd rfl (hno o)⟩
  · rw [(hcalls.both o (by simp) o' (by simp [ho'])).1]
  · obtain rfl := Effect.ofOutcome_inj ho'
    exact ⟨hmet, hcalls⟩
  · obtain rfl := Effect.ofOutcome_inj ho'
    rw [← hcourse] at hxs
    obtain ⟨n, ws, hn⟩ := hf.arrives hxs hopen' (hall.trans hspoken.symm) hopens
    have hf' := hf.chronicle n
    obtain ⟨m, hm⟩ := hf'.tracks.proceeds
    -- Nothing is answered any more after the exit.
    rw [← hn] at hm
    have hnil : ws = [] := by
      rcases hxs.diverge hm with hrest | ⟨hnil, -⟩
      · exact (hrest.of_outcome (o := o) rfl).1
      · exact hnil
    rw [hnil, List.append_nil] at hn
    have hexited : Evaluates r.course xs (.exited c o) := by
      simpa using hxs.evaluates (.exit c o)
    rw [hn] at hexited
    obtain ⟨n', -, hout⟩ := hf'.delivers hexited
    exact ⟨n + n', by rw [chronicle_add]; exact hout⟩

/-- A run with the answers of a partial evaluation that has left a node. -/
theorem MatchesResidue.of_node {node : Effect S} {frames : List (Frame S)}
    (comes : Synchronous (.eval c e) u.story.exchanges ((Course.eval c node).within frames))
    (stands : left.StandsFor node frames) (hf : Follows P r s st) (hr : r.Fresh e c)
    (hopen : Open st.exchanges) (alike : SameAnswers u.story.exchanges (spoken st.exchanges)) :
    MatchesResidue P r s st u left := by
  have hcourse := hr.course_eq
  obtain ⟨k, hk, rests⟩ := hf.tracks.rests
  rw [hcourse] at hk
  refine ⟨fun o ho => ?_, fun o ho => absurd ho (stands.ne_ofOutcome o),
    fun o ho => absurd ho (stands.ne_ofOutcome o), fun before run node' hmet hneeds => ?_,
    fun _ hall hopens => ?_⟩
  · refine iff_of_false (stands.ne_ofOutcome o) fun hnot => ?_
    have hmeets := comes.meets_of_outcome hk hopen alike (rests.outcome o (by simp [ho]))
    rw [← hcourse] at hmeets
    obtain ⟨before, run, hmet⟩ := hf.met_iff.mpr hmeets
    exact hnot before run node hmet stands.needs
  · obtain ⟨hbefore, hmet⟩ := hmet.proceeds
    rw [hcourse] at hmet
    obtain ⟨xs, hxs, hspoken, hprefix, hlook⟩ := comes.first hmet hneeds hbefore hopen alike
    rw [← hcourse] at hxs
    obtain ⟨before', run', hmet', rfl, rfl, rfl⟩ := hf.met_of_proceeds hlook hxs
    exact ⟨before', run', node, hmet', stands, hprefix, hspoken⟩
  · obtain ⟨xs, hxs, hopen', hspoken, -⟩ := comes.proceeds
    rw [← hcourse] at hxs
    have hnext : Proceeds r.course (xs ++ [⟨.canceled c, false⟩])
        ((node.move c).within frames) := hxs.trans ((Proceeds.look c node false).within frames)
    obtain ⟨n, hn⟩ := hf.arrives hnext (hopen'.append (.look c))
      (by rw [hall, ← hspoken, spoken_append]; simp [spoken, Exchange.isLook]) hopens
    obtain ⟨before, run, hmet, -⟩ := (hf.chronicle n).met_of_proceeds hn hxs
    exact ⟨n, before, run, node, stands.needs, hmet⟩

end

section

variable {P : Program S σ} {p : Opening S σ} {s : State S σ} {u : Prelude S} {left : Residue S}

/-- An outcome is left if the effect comes to that without a node that needs a live run, and
only then. -/
theorem Unfolds.concludes_iff (h : Unfolds P p s u) (hleft : u.residue = some (.ok left))
    (c : Connection) (o : Outcome) :
    left.effect = .ofOutcome o ↔ p.effect.Concludes c u.story.exchanges o := by
  obtain ⟨-, ⟨o', rfl, comes⟩ | ⟨node, frames, -, stands, comes⟩⟩ := h.leaves hleft c
  · obtain ⟨xs, hxs, hopen, hspoken, hmeets⟩ := comes.proceeds
    constructor
    · intro ho
      obtain rfl := Effect.ofOutcome_inj ho
      exact ⟨xs, hopen, hspoken, by simpa using hxs.evaluates (.exit c o'), hmeets⟩
    · rintro ⟨ys, hopen', hspoken', hevaluates, -⟩
      obtain ⟨k, hk, hexited⟩ := hevaluates.proceeds
      have hout : k.head.outcome? = some o := by simp [Head.outcome?, hexited, Ending.outcome?]
      have halike : SameAnswers xs ys :=
        .of_spoken hopen hopen' (.of_isPrefix (hspoken.trans hspoken'.symm ▸ List.prefix_rfl))
      rcases hxs.comparable hk halike with ⟨ws, -, hrest⟩ | ⟨ws, -, hrest⟩
      · obtain ⟨-, rfl⟩ := hrest.of_outcome (o := o') rfl
        cases hout
        rfl
      · obtain ⟨-, rfl⟩ := hrest.of_outcome hout
        cases hout
        rfl
  · refine iff_of_false (stands.ne_ofOutcome o) ?_
    rintro ⟨ys, hopen, hspoken, hevaluates, hmeets⟩
    obtain ⟨k, hk, hexited⟩ := hevaluates.proceeds
    have hout : k.head.outcome? = some o := by simp [Head.outcome?, hexited, Ending.outcome?]
    have hmet := comes.meets_of_outcome hk hopen (.of_isPrefix (hspoken ▸ List.prefix_rfl)) hout
    exact hmeets node hmet stands.needs

/-- A partial evaluation stops at the first node that needs a live run. -/
theorem Unfolds.stops (h : Unfolds P p s u) : Stops P p s u where
  direct := h.allDirect
  still := by
    rintro c w top rest rfl hturn hnone
    obtain ⟨st, residue⟩ := u
    simp only [Prelude.next, hturn, if_true]
    cases h.previews c with
    | turn stands behind depth comes pending => exact State.keepsStill_work stands behind pending
    | calling keeps depth comes pending => simp [pending] at hnone
    | ended leaves comes pending => simp [Prelude.takesTurn] at hturn
    | failed payload => simp [Prelude.takesTurn] at hturn
  handsBack := fun hnone r hr => h.hands_back hnone hr
  halts := by
    intro left hleft
    obtain ⟨-, ⟨o, rfl, -⟩ | ⟨node, frames, halts, -, -⟩⟩ := h.leaves hleft .uncancelable
    · cases o <;> trivial
    · exact halts
  outcome := fun left hleft c o => h.concludes_iff hleft c o
  boundary := by
    intro left hleft hno c
    obtain ⟨-, ⟨o, rfl, -⟩ | ⟨node, frames, -, stands, comes⟩⟩ := h.leaves hleft c
    · exact absurd rfl (hno o)
    · exact ⟨node, frames, stands, comes⟩
  runs := by
    intro left hleft σ' P' r s' st' c hf hr hopen alike
    obtain ⟨hnone, ⟨o, rfl, comes⟩ | ⟨node, frames, -, stands, comes⟩⟩ := h.leaves hleft c
    · exact .of_outcome comes hnone hf hr hopen alike
    · exact .of_node comes stands hf hr hopen alike
  again := by
    intro left hleft σ' P' w resume rest
    refine Effect.Halts.again ?_ P' w resume rest
    obtain ⟨-, ⟨o, rfl, -⟩ | ⟨node, frames, halts, -, -⟩⟩ := h.leaves hleft .uncancelable
    · cases o <;> trivial
    · exact halts

end

/-- An errand after a value is left by itself, and one with an errand after it is left with
the frame that waits for it. -/
theorem Errand.stops_errands :
    (unfold (.bind (.pure .null) (.bind (.user answer))) 5).2.residue =
        some (.ok (.boundary (.async answer))) ∧
      Stops program (opening (.bind (.pure .null) (.bind (.user answer))))
        (unfold (.bind (.pure .null) (.bind (.user answer))) 5).1
        (unfold (.bind (.pure .null) (.bind (.user answer))) 5).2 ∧
      (unfold errands 3).2.residue = some (.ok errandsLeft) ∧
      Stops program (opening errands) (unfold errands 3).1 (unfold errands 3).2 :=
  ⟨rfl, Unfolds.stops (unfolds_unfold _ 5), rfl, Unfolds.stops (unfolds_unfold errands 3)⟩

end Trampoline
