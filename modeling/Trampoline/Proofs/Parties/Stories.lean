import Trampoline.Proofs.Parties.Alone
import Trampoline.Proofs.Run.Delivery

/-!
# Runs among others

A run that is followed among the runs of other parties has the story that it has when its party is
alone and undergoes the same.  Its turns are turns there, because the activations of the party are
those of all that are its own, in the same order; and it is taken up by the same completions,
because its bridge belongs to its party.

Main definitions and results:

- Definition `Holdings.Located`: where a run is among the parties.
- Theorems `Holdings.Located.next_own`, `Holdings.Located.next_other`: what a step adds to the story
  of the run.
- Theorem `Holdings.Goes.endure`: the story is told alone as it is among others.
-/

namespace Trampoline

variable {S : Closures} {σ ι : Type}

/-! ## What a step adds to a story -/

namespace Story

/-- A step gives a run a bridge only where a loop parks in a turn of the run. -/
theorem next_bridge (P : Program S σ) (st : Story S) (depth : Nat) (w : World S σ)
    (top : Activation S σ) (rest : List (Activation S σ)) :
    (st.next depth (.running w top rest)).bridge = st.bridge ∨
      st.takesTurn depth top rest = true ∧ ∃ run, top.loop? = some run ∧
        (st.next depth (.running w top rest)).bridge = some (w.arm run).2.bridge ∧
        (State.work P w [] top).world.bridges.size = (w.arm run).1.bridges.size := by
  cases hturn : st.takesTurn depth top rest with
  | false =>
      refine .inl ?_
      simp only [next, hturn, Bool.false_eq_true, if_false]
      split
      · split
        · simp [resume]
        · rfl
      · rfl
  | true =>
      simp only [next, hturn, if_true, true_and]
      refine turn_preserves (φ := fun st' => st'.bridge = st.bridge ∨ ∃ run, top.loop? = some run ∧
        st'.bridge = some (w.arm run).2.bridge ∧
        (State.work P w [] top).world.bridges.size = (w.arm run).1.bridges.size) (.inl rfl)
        (fun _ _ _ h => h) (fun _ _ h => h) (fun st' reply h => ?_) (fun _ _ h => h)
        (fun _ h => h) ?_
      · rwa [answer_bridge]
      · rintro st' run node rfl hc hsuspends -
        refine .inr ⟨run, rfl, rfl, ?_⟩
        simp only [State.work, State.eval, hc, Bool.false_eq_true, if_false,
          State.reduce_bridges_of_suspends P w run hsuspends]

/-- What is lost stays lost. -/
theorem next_lost {st : Story S} (h : st.lost = true) (depth : Nat)
    (s : State S σ) : (st.next depth s).lost = true := by
  cases s with
  | returned w => exact h
  | unwound w payload => exact h
  | running w top rest =>
      simp only [next]
      split
      · refine turn_preserves (φ := fun st => st.lost = true) h (fun _ _ _ h => h) (fun _ _ h => h)
          (fun st' reply h => ?_) (fun _ _ h => h) (fun _ _ => rfl) fun _ _ _ _ _ _ h => h
        rwa [answer_lost]
      · split
        · split
          · simpa [resume] using h
          · exact h
        · exact h

/-- Code that starts a run is none of the run's business. -/
theorem next_command (st : Story S) (depth : Nat) (w : World S σ) {α : Type} (h : Holder S σ α)
    {c : Command S} (next : Unit → Code S σ α) (rest : List (Activation S σ))
    (hc : ∀ cb o, c ≠ .complete cb o) :
    st.next depth (.running w (h.wrap (.command c next)) rest) = st := by
  have hcompletion : (h.wrap (.command c next)).completion? w = none := by
    rw [Activation.completion?_wrap w h fun payload => by simp]
    cases c with
    | complete cb o => exact absurd rfl (hc cb o)
    | _ => rfl
  have hturn : st.turn w (h.wrap (.command c next)) = st := by
    cases h with
    | node d => cases d <;> rfl
    | outcome d => cases d <;> rfl
    | _ => rfl
  simp only [Story.next, hturn, hcompletion]
  split <;> rfl

end Story

/-- A run that has no bridge and has not come to its end had none and had not before. -/
theorem Story.next_direct (P : Program S σ) {st : Story S} {depth : Nat} {w : World S σ}
    {top : Activation S σ} {rest : List (Activation S σ)}
    (hb : (st.next depth (.running w top rest)).bridge = none)
    (ho : (st.next depth (.running w top rest)).outcomes = [])
    (hl : (st.next depth (.running w top rest)).lost = false) :
    st.bridge = none ∧ st.outcomes = [] ∧ st.lost = false := by
  refine ⟨?_, ?_, ?_⟩
  · rcases st.next_bridge P depth w top rest with hsame | ⟨-, run, -, hnew, -⟩
    · rw [← hsame, hb]
    · rw [hb] at hnew
      cases hnew
  · cases hturn : st.takesTurn depth top rest with
    | false => rw [← Story.next_outcomes hturn, ho]
    | true =>
        simp only [Story.next, hturn, if_true, Story.turn_outcomes] at ho
        exact (List.append_eq_nil_iff.mp ho).1
  · cases hlost : st.lost with
    | false => rfl
    | true =>
        rw [Story.next_lost hlost] at hl
        cases hl

/-- A run that has no bridge and has not come to its end is in the place where it has started. -/
theorem Tracks.direct {P : Program S σ} {r : Origin S} {s : State S σ} {st : Story S}
    (h : Tracks P r s st) (hb : st.bridge = none) (ho : st.outcomes = []) (hl : st.lost = false) :
    ∃ above act below, s.activations = above ++ act :: below ∧ below.length = r.depth ∧
      ∀ run, act.loop? = some run → run.outlet = .terminal r.terminal := by
  have hhome : ∀ {w : World S σ} {below : List (Activation S σ)} {run : Loop S},
      Home r st w below run → run.outlet = .terminal r.terminal ∧ below.length = r.depth := by
    intro w below run home
    simpa only [hb] using home.in_place
  cases h with
  | @turn w act below _ run m stands proceeds home live resumed =>
      refine ⟨[], act, below, rfl, (hhome home).2, fun run' hrun => ?_⟩
      cases stands.loop?_eq.symm.trans hrun
      exact (hhome home).1
  | @calling _ above below act _ run _ _ place serves waits idle proceeds home live resumed =>
      refine ⟨above, act, below, place, (hhome home).2, fun run' hrun => ?_⟩
      have hserves := (Activation.every_iff_of_loop? hrun).mp serves
      cases hserves.loop?_eq.symm.trans hrun
      exact (hhome home).1
  | suspended idle holds bridge parks completes proceeds live resumed => cases hb.symm.trans bridge
  | delivered outcomes ending evaluates pending lost still numbered resumed =>
      cases ho.symm.trans outcomes
  | lost outcomes lost pending evaluates still numbered resumed => cases hl.symm.trans lost

/-! ## The story in two worlds -/

namespace Holdings

namespace Like

variable {H : Holdings ι σ} {P : Program S σ} {k : ι} {w w' : World S σ} {top : Activation S σ}

/-- A turn of a run is the same turn in the world of its party. -/
theorem turn_eq (h : H.Like k w w') (idle : ∀ i, H.bridge i ≠ k → top.Idle i)
    (within : top.Within H k w.host)
    (bridges : w.bridges.size < (State.work P w [] top).world.bridges.size →
      H.bridge w.bridges.size = k ∧ w'.bridges.size = w.bridges.size) (st : Story S) :
    st.turn w' top = st.turn w top := by
  have hheed : ∀ {α : Type} (code : Code S σ α) (reply : Except Failure α → Reply S),
      st.heed w' code reply = st.heed w code reply := by
    intro α code reply
    cases code with
    | panic payload => simp only [Story.heed, h.classifier]
    | _ => rfl
  cases top with
  | eval d node =>
      cases d with
      | partially stack resume => rfl
      | loop run =>
          have hrun : H.Has k run := Activation.has_of_idle idle rfl
          simp only [Story.turn, h.isCanceled_eq within]
          cases hc : w.connections.isCanceled run.connection with
          | true => rfl
          | false =>
              simp only [State.work, State.eval, hc, Bool.false_eq_true, if_false] at bridges ⊢
              -- A bridge that is new has the same number in both worlds.
              have hpark : node.Suspends → ∀ st : Story S, st.park w' run = st.park w run := by
                intro hsuspends st
                have harm := (h.arm hrun fun t ht => bridges ?_).2.1
                · simp only [Story.park, harm]
                · rw [State.reduce_bridges_of_suspends P w run hsuspends]
                  simp [World.arm, ht]
              cases node with
              | async name => simp only [Story.meet, hpark trivial]
              | parked inner stack => simp only [Story.meet, hpark trivial]
              | deferred context b => simp only [Story.meet, hpark trivial]
              | _ => rfl
  | value d v => cases d <;> rfl
  | node d code => cases d with
    | loop run => exact hheed code _
    | partially stack resume => rfl
  | outcome d code => cases d with
    | loop run => exact hheed code fun r => .outcome (r.bind id)
    | partially stack resume => rfl
  | switch run source restore code => exact hheed code _
  | _ => rfl

/-- A step of the party completes the same callback in its own world. -/
theorem completion?_eq (h : H.Like k w w') (idle : ∀ i, H.bridge i ≠ k → top.Idle i)
    (within : top.Within H k w.host) : top.completion? w' = top.completion? w := by
  have hover : ∀ {run : Loop S}, H.Has k run → ∀ o,
      w'.handOver? run.outlet o = w.handOver? run.outlet o := by
    intro run hrun o
    simp only [World.handOver?, h.terminal?_eq hrun]
  cases top with
  | eval d node =>
      cases d with
      | partially stack resume => rfl
      | loop run =>
          have hexit : (Activation.eval (.loop run) node : Activation S σ).exit? w' =
              (Activation.eval (.loop run) node : Activation S σ).exit? w := by
            simp only [Activation.exit?, h.isCanceled_eq within]
          simp only [Activation.completion?, Activation.loop?, hexit]
          cases (Activation.eval (.loop run) node : Activation S σ).exit? w with
          | none => rfl
          | some o => exact hover (Activation.has_of_idle idle rfl) o
  | value d v =>
      cases d with
      | partially stack resume => rfl
      | loop run =>
          simp only [Activation.completion?, Activation.loop?, Activation.exit?]
          split
          · next hrun ho =>
              cases hrun
              exact hover (Activation.has_of_idle idle rfl) _
          · rfl
  | owing cb code =>
      cases code with
      | panic payload => simp only [Activation.completion?, h.classifier]
      | _ => rfl
  | _ => rfl

end Like

variable [DecidableEq ι]

/-! ## Where a run is among the parties -/

/-- A run with `depth` activations below its place, of which `d` work for its own party: its bridge
belongs to the party, and until it has one, or has come to its end, so does its place. -/
structure Located (H : Holdings ι σ) (k : ι) (depth d : Nat) (ls : List ι) (st : Story S) :
    Prop where
  bridge : ∀ i, st.bridge = some i → H.bridge i = k
  place : st.bridge = none → st.outcomes = [] → st.lost = false →
    ∃ la lb, ls = la ++ k :: lb ∧ lb.length = depth ∧ lb.count k = d

section

variable {H : Holdings ι σ} {P : Program S σ} {k j : ι} {depth d : Nat} {ls : List ι} {st : Story S}
  {w w' : World S σ} {top : Activation S σ} {rest : List (Activation S σ)}

/-- No step of another party is a turn of the run. -/
theorem Located.takesTurn_other (h : H.Located k depth d (j :: ls) st) (hne : j ≠ k)
    (settled : H.Settled (j :: ls) (top :: rest)) : st.takesTurn depth top rest = false := by
  obtain ⟨idle, hrest⟩ := List.forall₂_cons.mp settled
  have hlength : ls.length = rest.length := Settled.length_eq hrest
  refine Story.takesTurn_of_idle (fun i hi => idle i fun hj => hne (hj.symm.trans (h.bridge i hi)))
    fun hb => ?_
  by_cases ho : st.outcomes = []
  · cases hl : st.lost with
    | true => exact .inr (.inr rfl)
    | false =>
        refine .inl fun hdepth => ?_
        obtain ⟨la, lb, hls, hlb, -⟩ := h.place hb ho hl
        cases la with
        | nil =>
            rw [List.nil_append, List.cons.injEq] at hls
            exact hne hls.1
        | cons x la =>
            rw [List.cons_append, List.cons.injEq] at hls
            have hsize := congrArg List.length hls.2
            simp only [List.length_append, List.length_cons] at hsize
            omega
  · exact .inr (.inl ho)

/-- A step of the party is a turn of the run if it is one where the party is alone. -/
theorem Located.takesTurn_eq (h : H.Located k depth d (k :: ls) st)
    (hlength : ls.length = rest.length) :
    st.takesTurn d top (ownedBy k ls rest) = st.takesTurn depth top rest := by
  unfold Story.takesTurn
  cases top.loop? with
  | none => rfl
  | some run =>
      cases hout : run.outlet with
      | bridge i => simp only [hout]
      | terminal t =>
          simp only [hout, length_ownedBy hlength]
          cases hb : st.bridge with
          | some i => simp
          | none =>
              by_cases ho : st.outcomes = []
              · cases hl : st.lost with
                | true => simp
                | false =>
                    obtain ⟨la, lb, hls, hlb, hd⟩ := h.place hb ho hl
                    have hsame : (ls.count k == d) = (rest.length == depth) := by
                      cases la with
                      | nil =>
                          rw [List.nil_append, List.cons.injEq] at hls
                          obtain ⟨-, rfl⟩ := hls
                          simp [hd, ← hlength, hlb]
                      | cons x la =>
                          rw [List.cons_append, List.cons.injEq] at hls
                          obtain ⟨-, rfl⟩ := hls
                          simp only [List.length_append, List.length_cons] at hlength
                          have hcount : (la ++ k :: lb).count k ≠ d := by
                            simp only [List.count_append, List.count_cons_self]
                            omega
                          have hrest : rest.length ≠ depth := by omega
                          rw [beq_eq_false_iff_ne.mpr hcount, beq_eq_false_iff_ne.mpr hrest]
                    rw [hsame]
              · have hsome : st.outcomes.isEmpty = false := by simpa using ho
                simp [hsome]

/-- A step of the party adds the same to the story of the run where the party is alone. -/
theorem Located.next_own (h : H.Located k depth d (k :: ls) st) (like : H.Like k w w')
    (settled : H.Settled (k :: ls) (top :: rest)) (within : top.Within H k w.host)
    (bridges : w.bridges.size < (State.work P w [] top).world.bridges.size →
      H.bridge w.bridges.size = k ∧ w'.bridges.size = w.bridges.size) :
    st.next d (.running w' top (ownedBy k ls rest)) = st.next depth (.running w top rest) := by
  obtain ⟨idle, hrest⟩ := List.forall₂_cons.mp settled
  simp only [Story.next, h.takesTurn_eq (Settled.length_eq hrest), like.turn_eq idle within bridges,
    like.completion?_eq idle within]
  split
  · rfl
  · split
    · next cb o hc =>
        by_cases hb : st.bridge = some cb.bridge
        · rw [like.isArmed_eq (h.bridge _ hb)]
        · simp [hb]
    · rfl

/-- A step of another party takes the run up, if it completes the callback for which the run waits,
or adds nothing to its story. -/
theorem Located.next_other (h : H.Located k depth d (j :: ls) st) (hne : j ≠ k)
    (settled : H.Settled (j :: ls) (top :: rest)) :
    st.next depth (.running w top rest) =
      match top.completion? w with
      | some (cb, o) =>
        if H.bridge cb.bridge = k then
          if st.bridge = some cb.bridge ∧ w.isArmed cb = true then st.resume cb o else st
        else st
      | none => st := by
  simp only [Story.next, h.takesTurn_other hne settled, Bool.false_eq_true, if_false]
  cases top.completion? w with
  | none => rfl
  | some p =>
      obtain ⟨cb, o⟩ := p
      by_cases hcb : H.bridge cb.bridge = k
      · simp only [if_pos hcb]
      · simp only [if_neg hcb]
        rw [if_neg]
        exact fun hwins => hcb (h.bridge _ hwins.1)

end

/-! ## Every step -/

theorem endure_append (P : Program S σ) (depth : Nat) (p : State S σ × Story S)
    (deeds deeds' : List (Deed S σ)) :
    endure P depth p (deeds ++ deeds') = endure P depth (endure P depth p deeds) deeds' :=
  List.foldl_append

/-- Numbers that are skipped add nothing to a story. -/
theorem endure_skips (P : Program S σ) (depth : Nat) (s : State S σ) (st : Story S)
    {deeds : List (Deed S σ)}
    (h : ∀ deed ∈ deeds, ∃ n, deed = .bridges n ∨ deed = .connections n) :
    endure P depth (s, st) deeds = (s.undergoes P deeds, st) := by
  induction deeds generalizing s with
  | nil => rfl
  | cons deed deeds ih =>
      have hrest := ih (s.undergo P deed) fun x hx => h x (by simp [hx])
      obtain ⟨n, rfl | rfl⟩ := h deed (by simp)
      · exact hrest
      · exact hrest

theorem endure_numbers (P : Program S σ) (depth : Nat) (s : State S σ) (st : Story S)
    (w w₁ : World S σ) :
    endure P depth (s, st) (numbers w w₁) = (s.undergoes P (numbers w w₁), st) := by
  refine endure_skips P depth s st fun deed hd => ?_
  simp only [numbers, List.mem_append] at hd
  rcases hd with hd | hd
  · split at hd
    · exact ⟨_, .inl (List.mem_singleton.mp hd)⟩
    · cases hd
  · split at hd
    · exact ⟨_, .inr (List.mem_singleton.mp hd)⟩
    · cases hd

section

variable {H : Holdings ι σ} {P : Program S σ} {k j : ι} {depth d : Nat} {ls ls' : List ι}
  {st : Story S} {s s' a : State S σ} {new : ι → List (Deed S σ)} {w : World S σ}
  {top : Activation S σ} {rest : List (Activation S σ)}

/-- What happens in a step adds the same to the story of a run where its party is alone. -/
theorem Goes.told (goes : H.Goes P s ls s' ls' new) (silent : H.Silent P)
    (orderly : H.Orderly P s ls) (beside : H.Beside k s ls a) (h : H.Located k depth d ls st) :
    (endure P d (a, st) (new k)).2 = st.next depth s := by
  cases goes with
  | @works w top rest j ls within bridges contained =>
      by_cases hj : j = k
      · subst hj
        obtain ⟨w', hready, hlike, hnew, -⟩ := beside.ready P (State.work P w [] top).world
        simp only [heard, if_true, endure_append, endure_numbers, hready]
        exact h.next_own hlike orderly.settled within fun hlt =>
          ⟨bridges _ (Nat.le_refl _) hlt, hnew hlt⟩
      · obtain ⟨w', hgiven, hdeed⟩ := beside.given silent hj within
        have hskips : endure P d (a, st) (if w.connections.states.size <
              (State.work P w [] top).world.connections.states.size ∧
              H.connection w.connections.states.size = k then
            [.connections (State.work P w [] top).world.connections.states.size]
          else []) = (a.withWorld w', st) := by
          rw [← hdeed]
          refine endure_skips P d a st fun deed hd => ?_
          split at hd
          · exact ⟨_, .inr (List.mem_singleton.mp hd)⟩
          · cases hd
        rw [h.next_other hj orderly.settled]
        simp only [heard, if_neg (Ne.symm hj), endure_append, hskips]
        cases top.completion? w with
        | none => rfl
        | some p =>
            obtain ⟨cb, o⟩ := p
            by_cases hcb : H.bridge cb.bridge = k
            · have harmed : w'.isArmed cb = w.isArmed cb := hgiven.isArmed_eq hcb
              simp only [if_pos hcb, ← harmed]
              simp only [endure, List.foldl_cons, List.foldl_nil, Story.undergo,
                State.world_withWorld]
            · simp only [if_neg hcb]
              rfl
  | @starts _ holder w e c terminal next rest j i ls other contained =>
      rw [Story.next_command st depth w holder next rest fun cb o hc => by cases hc]
      dsimp only
      split
      · rfl
      · split <;> rfl
  | again ended j code =>
      rw [st.next_of_ended depth ended]
      dsimp only
      split <;> rfl

/-- A bridge that a step gives to the run belongs to its party. -/
theorem Located.next_bridge (h : H.Located k depth d (j :: ls) st)
    (settled : H.Settled (j :: ls) (top :: rest))
    (bridges : ∀ i, w.bridges.size ≤ i → i < (State.work P w [] top).world.bridges.size →
      H.bridge i = j) {i : Nat} (hi : (st.next depth (.running w top rest)).bridge = some i) :
    H.bridge i = k := by
  rcases st.next_bridge P depth w top rest with hsame | ⟨hturn, run, hrun, hnew, hsize⟩
  · exact h.bridge i (hsame.symm.trans hi)
  · have hj : j = k := by
      apply Classical.byContradiction
      intro hne
      rw [h.takesTurn_other hne settled] at hturn
      cases hturn
    rw [hnew, Option.some.injEq] at hi
    cases hout : run.outlet with
    | terminal t =>
        have hi' : i = w.bridges.size := by simpa [World.arm, hout] using hi.symm
        rw [hi', ← hj]
        refine bridges _ (Nat.le_refl _) ?_
        rw [hsize]
        simp [World.arm, hout]
    | bridge m =>
        have hm : (w.arm run).2.bridge = m := by
          simp only [World.arm, hout]
          split <;> rfl
        have hst : st.bridge = some m := by
          simpa [Story.takesTurn, hrun, hout] using hturn
        exact h.bridge i (by rw [hst, ← hi, hm])

omit [DecidableEq ι] in
/-- A step of the activation in the place of the run leaves this place to the party, if it leaves it
at all. -/
theorem place_next {above below : List (Activation S σ)} {act : Activation S σ}
    (place : ((State.running w top rest).next P).activations = above ++ act :: below)
    (hlength : below.length = rest.length)
    (hterminal : ∀ run, act.loop? = some run → ∃ t, run.outlet = .terminal t) :
    (State.work P w [] top).activations.map (H.mark k) = above.map (H.mark k) ++ [k] := by
  rw [State.next_running] at place
  have hsize := congrArg List.length place
  rw [State.length_activations_onto, List.length_append, List.length_cons] at hsize
  have hwork : (State.work P w [] top).activations = above ++ [act] := by
    generalize State.work P w [] top = s₀ at place hsize
    cases s₀ with
    | returned w₀ =>
        simp only [State.activations_returned, List.length_nil] at hsize
        omega
    | unwound w₀ payload =>
        simp only [State.activations_unwound, List.length_nil] at hsize
        omega
    | running w₀ top₀ above₀ =>
        have hsplit : (top₀ :: above₀) ++ rest = (above ++ [act]) ++ below := by
          simpa [State.onto] using place
        exact (List.append_inj' hsplit hlength.symm).1
  have hact : H.mark k act = k := by
    rcases H.mark_cases k act with hsame | ⟨run, i, hrun, hout, -⟩
    · exact hsame
    · obtain ⟨t, ht⟩ := hterminal run hrun
      rw [ht] at hout
      cases hout
  rw [hwork, List.map_append, List.map_singleton, hact]

/-- A step keeps a run where it is among the parties. -/
theorem Goes.located {r : Origin S} (goes : H.Goes P s ls s' ls' new) (orderly : H.Orderly P s ls)
    (tracks : Tracks P r s st) (h : H.Located k r.depth d ls st) :
    H.Located k r.depth d ls' (st.next r.depth s) := by
  cases goes with
  | @works w top rest j ls within bridges contained =>
      refine ⟨fun i hi => h.next_bridge orderly.settled bridges hi, fun hb ho hl => ?_⟩
      obtain ⟨hb₀, ho₀, hl₀⟩ := Story.next_direct P hb ho hl
      obtain ⟨la, lb, hls, hlb, hd⟩ := h.place hb₀ ho₀ hl₀
      cases la with
      | cons x la =>
          rw [List.cons_append, List.cons.injEq] at hls
          refine ⟨(State.work P w [] top).activations.map (H.mark j) ++ la, lb, ?_, hlb, hd⟩
          rw [hls.2, List.append_assoc]
      | nil =>
          rw [List.nil_append, List.cons.injEq] at hls
          obtain ⟨rfl, rfl⟩ := hls
          have hlength : (j :: ls).length = (top :: rest).length := orderly.settled.length_eq
          obtain ⟨above, act, below, hplace, hbelow, hterminal⟩ :=
            (tracks.next orderly.bounded).direct hb ho hl
          refine ⟨above.map (H.mark j), ls, ?_, hlb, hd⟩
          rw [place_next hplace (by simp at hlength; omega) fun run hrun => ⟨_, hterminal run hrun⟩,
            List.append_assoc, List.singleton_append]
  | @starts _ holder w e c terminal next rest j i ls other contained =>
      rw [Story.next_command st r.depth w holder next rest fun cb o hc => by cases hc]
      refine ⟨h.bridge, fun hb ho hl => ?_⟩
      obtain ⟨la, lb, hls, hlb, hd⟩ := h.place hb ho hl
      exact ⟨i :: la, lb, by rw [hls, List.cons_append], hlb, hd⟩
  | again ended j code =>
      rw [st.next_of_ended r.depth ended]
      refine ⟨h.bridge, fun hb ho hl => ?_⟩
      obtain ⟨la, lb, hls, -, -⟩ := h.place hb ho hl
      simp at hls

end

/-! ## Every run -/

section

variable {H : Holdings ι σ} {P : Program S σ} {host : σ} {k : ι} {r : Origin S} {s : State S σ}
  {ls : List ι} {st : Story S} {log since : ι → List (Deed S σ)}

/-- A machine that works for parties takes steps of the machine. -/
theorem SharedRun.reachable (h : H.SharedRun P host s ls log) : State.Reachable P s := by
  induction h with
  | start thread k code => exact .start host thread code
  | next h goes ih =>
      cases goes with
      | works within bridges contained => exact ih.next
      | starts holder other contained => exact ih.next
      | again ended k code => exact ih.again ended code

/-- A run that is followed among others is followed. -/
theorem Follows.forget (h : H.Follows P host k r s ls st log since) :
    Trampoline.Follows P r s st := by
  induction h with
  | start h depth => exact .start h.reachable depth
  | @next s s' _ _ st _ _ _ h goes ih =>
      cases goes with
      | works within bridges contained => exact ih.next
      | starts holder other contained => exact ih.next
      | again ended k code =>
          rw [st.next_of_ended r.depth ended]
          exact ih.again ended code

/-- The parties are kept apart while a run is followed. -/
theorem Follows.orderly (h : H.Follows P host k r s ls st log since) : H.Orderly P s ls := by
  induction h with
  | start h depth => exact h.orderly
  | next h goes ih => exact goes.orderly ih

end

end Holdings

end Trampoline
