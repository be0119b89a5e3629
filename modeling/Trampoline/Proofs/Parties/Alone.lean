import Trampoline.Proofs.Parties.Borders
import Trampoline.Proofs.Parties.SameStep
import Trampoline.Proofs.Parties.Others

/-!
# A party alone

What happens to a party among others can happen to it alone.  A machine that works for it alone has
those of the activations of all that work for the party, and what belongs to it in the world of all.
A step of the party is the same step there; a completion of one of its callbacks by others, a run
that they start for it and a connection that they make for it come from outside; and all else that
others do is nothing.

Main definitions and results:

- Definition `Holdings.Beside`: the machine of one party beside that of all.
- Theorem `Holdings.Beside.works`: a step of the party.
- Theorem `Holdings.Beside.passes`: a step of another party.
- Theorem `Holdings.Goes.beside`: whatever happens to the party happens to it alone.
-/

namespace Trampoline

variable {S : Closures} {σ ι : Type}

namespace State

@[simp]
theorem withWorld_world (s : State S σ) : s.withWorld s.world = s := by
  cases s <;> rfl

theorem undergoes_append (P : Program S σ) (s : State S σ) (deeds deeds' : List (Deed S σ)) :
    s.undergoes P (deeds ++ deeds') = (s.undergoes P deeds).undergoes P deeds' :=
  List.foldl_append

end State

variable [DecidableEq ι]

namespace Holdings

variable {H : Holdings ι σ} {P : Program S σ} {k j : ι} {s a : State S σ} {w : World S σ}
  {top : Activation S σ} {rest : List (Activation S σ)} {ls : List ι}

/-- A machine that works for one party has the activations of this party, and what belongs to it. -/
structure Beside (H : Holdings ι σ) (k : ι) (s : State S σ) (ls : List ι) (a : State S σ) :
    Prop where
  owned : a.activations = ownedBy k ls s.activations
  like : H.Like k s.world a.world

/-! ## Steps of the party -/

/-- With the numbers that a step of the party hands out, the party is ready for the same step. -/
theorem Beside.ready (h : H.Beside k (.running w top rest) (k :: ls) a) (P : Program S σ)
    (w₁ : World S σ) :
    ∃ w', a.undergoes P (numbers w w₁) = .running w' top (ownedBy k ls rest) ∧ H.Like k w w' ∧
      (w.bridges.size < w₁.bridges.size → w'.bridges.size = w.bridges.size) ∧
      (w.connections.states.size < w₁.connections.states.size →
        w'.connections.states.size = w.connections.states.size) := by
  have howned : a.activations = top :: ownedBy k ls rest := by
    rw [h.owned, State.activations_running, ownedBy_cons_self]
  have hlike : H.Like k w a.world := h.like
  cases a with
  | returned w' => cases howned
  | unwound w' payload => cases howned
  | running w' top' rest' =>
      cases howned
      obtain ⟨hskip, hsize⟩ := hlike.skipBridges
      have hconnections : ∀ v : World S σ, H.Like k w v →
          H.Like k w (v.skipConnections w.connections.states.size) ∧
            (v.skipConnections w.connections.states.size).connections.states.size =
              w.connections.states.size := by
        intro v hv
        have hcreated := hv.created
        refine ⟨hv.skipConnections (Nat.le_refl _) (fun _ _ _ => rfl) fun i _ hle hlt => ?_, ?_⟩
        · omega
        · simp only [World.skipConnections, Array.size_append, Array.size_replicate]
          omega
      unfold numbers
      by_cases hb : w.bridges.size < w₁.bridges.size
      · by_cases hc : w.connections.states.size < w₁.connections.states.size
        · obtain ⟨hboth, hcsize⟩ := hconnections _ hskip
          rw [if_pos hb, if_pos hc]
          exact ⟨_, rfl, hboth, fun _ => hsize, fun _ => hcsize⟩
        · rw [if_pos hb, if_neg hc]
          exact ⟨_, rfl, hskip, fun _ => hsize, fun h => absurd h hc⟩
      · by_cases hc : w.connections.states.size < w₁.connections.states.size
        · obtain ⟨hboth, hcsize⟩ := hconnections _ hlike
          rw [if_neg hb, if_pos hc]
          exact ⟨_, rfl, hboth, fun h => absurd h hb, fun _ => hcsize⟩
        · rw [if_neg hb, if_neg hc]
          exact ⟨_, rfl, hlike, fun h => absurd h hb, fun h => absurd h hc⟩

/-- After the same step in both worlds, the machine of the party is beside that of all. -/
theorem AfterSameStep.beside {s₀ a₀ : State S σ} (h : H.AfterSameStep k s₀ a₀)
    (idle : ∀ x ∈ a₀.activations, ∀ i, H.bridge i ≠ k → x.Idle i)
    (hlength : ls.length = rest.length)
    (escapes : ∀ w payload, s₀ = .unwound w payload → ∀ i ∈ ls.head?, i = k) :
    H.Beside k (s₀.onto rest) (s₀.activations.map (H.mark k) ++ ls)
      (a₀.onto (ownedBy k ls rest)) := by
  refine ⟨?_, by simpa using h.world⟩
  cases h with
  | running like top above =>
      have hown : ∀ x ∈ top :: above, H.mark k x = k := fun x hx => mark_of_idle (idle x hx)
      rw [State.running_onto, State.running_onto, State.activations_running,
        State.activations_running, State.activations_running, ← List.cons_append,
        ← List.cons_append, ownedBy_append (by simp), ownedBy_of_all hown]
  | returned like =>
      simp [State.onto]
  | unwound like payload =>
      cases rest with
      | nil =>
          cases ls with
          | nil => rfl
          | cons i ls => cases hlength
      | cons x rest =>
          cases ls with
          | nil => cases hlength
          | cons i ls =>
              have hi : i = k := escapes _ payload rfl i (by simp)
              subst hi
              simp [State.onto]
  | elsewhere like outlet other node above =>
      rename_i run i
      have hmark : H.mark k (.eval (.loop run) node : Activation S σ) = H.bridge i := by
        simp [mark, Activation.loop?, outlet]
      have hown : ∀ x ∈ above, H.mark k x = k := by
        intro x hx
        refine mark_of_idle (idle x ?_)
        rwa [State.activations_resume]
      rw [State.running_onto, State.resume_onto, State.activations_running,
        State.activations_running, State.activations_resume, List.map_cons, hmark, List.cons_append,
        ownedBy_cons_of_ne other, ownedBy_append (by simp), ownedBy_of_all hown]

/-- A step of the party is the same step in its own machine. -/
theorem Beside.works (h : H.Beside k (.running w top rest) (k :: ls) a) (silent : H.Silent P)
    (orderly : H.Orderly P (.running w top rest) (k :: ls)) (within : top.Within H k w.host)
    (bridges : ∀ i, w.bridges.size ≤ i → i < (State.work P w [] top).world.bridges.size →
      H.bridge i = k)
    (contained : (State.running w top rest).StepContained P) :
    H.Beside k ((State.running w top rest).next P)
      ((State.work P w [] top).activations.map (H.mark k) ++ ls)
      (a.undergoes P (H.heard P w top k k)) := by
  obtain ⟨idle, hrest⟩ := List.forall₂_cons.mp orderly.settled
  obtain ⟨w', hready, hlike, hbridges, hconnections⟩ := h.ready P (State.work P w [] top).world
  have hsame : H.AfterSameStep k (State.work P w [] top)
      (State.work P (w'.onThread w.thread) [] top) :=
    sameStep_work (hlike.onThread w.thread) silent rfl idle within
      (fun hlt => ⟨bridges _ (Nat.le_refl _) hlt, hbridges hlt⟩) hconnections
  have hidle : ∀ x ∈ (State.work P (w'.onThread w.thread) [] top).activations,
      ∀ i, H.bridge i ≠ k → x.Idle i := by
    intro x hx i hi
    refine (State.quiet_work P (idle i hi) fun cb o _ hw => ?_).all_idle (by simp) x hx
    have harmed : (w'.onThread w.thread).isArmed cb = false :=
      (hlike.onThread w.thread).not_armed (hw.1.symm ▸ hi)
    rw [hw.2] at harmed
    cases harmed
  have hbeside := hsame.beside hidle (Settled.length_eq hrest) fun w₀ payload hs =>
    orderly.bordersStopPanics.escapes contained hs
  rw [← State.next_running, ← State.next_running] at hbeside
  simp only [heard, if_true, State.undergoes_append, hready]
  exact hbeside

/-! ## Steps of others -/

/-- What works for others is of no account to the party. -/
theorem ownedBy_onto_of_none {s₀ : State S σ} (marks : ∀ x ∈ s₀.activations, H.mark j x ≠ k)
    (hlength : ls.length = rest.length)
    (escapes : ∀ w payload, s₀ = .unwound w payload → ∀ i ∈ ls.head?, i ≠ k) :
    ownedBy k (s₀.activations.map (H.mark j) ++ ls) (s₀.onto rest).activations =
      ownedBy k ls rest := by
  cases s₀ with
  | running w top above =>
      have hnone : ownedBy k ((top :: above).map (H.mark j)) (top :: above) = [] :=
        ownedBy_of_none marks
      rw [State.running_onto, State.activations_running, State.activations_running,
        ← List.cons_append, ownedBy_append (by simp), hnone, List.nil_append]
  | returned w => simp [State.onto]
  | unwound w payload =>
      cases rest with
      | nil =>
          cases ls with
          | nil => rfl
          | cons i ls => cases hlength
      | cons x rest =>
          cases ls with
          | nil => cases hlength
          | cons i ls =>
              have hi : i ≠ k := escapes w payload rfl i (by simp)
              rw [State.activations_unwound, List.map_nil, List.nil_append, State.onto,
                State.activations_unwind_cons, ownedBy_cons_of_ne hi, ownedBy_cons_of_ne hi]

omit [DecidableEq ι] in
/-- What keeps away from the bridges of the party works for others. -/
theorem mark_ne {x : Activation S σ} (hne : j ≠ k) (h : ∀ i, H.bridge i = k → x.Idle i) :
    H.mark j x ≠ k := by
  intro hk
  rcases H.mark_cases j x with hsame | ⟨run, i, hrun, hout, hmark⟩
  · exact hne (hsame.symm.trans hk)
  · exact (Activation.idle_iff_of_loop? hrun).mp (h i (hmark.symm.trans hk)) hout

/-- What takes a run of the party up leaves nothing else that works for the party. -/
theorem ownedBy_onto_of_resumes {s₀ : State S σ} {i : Nat} {b : Bridge S} {o : Outcome}
    (h : Resumes i b o w [] s₀) (hne : j ≠ k) (hi : H.bridge i = k)
    (idle : ∀ x ∈ s₀.activations, ∀ i', H.bridge i' = k → i' ≠ i → x.Idle i') :
    ownedBy k (s₀.activations.map (H.mark j) ++ ls) (s₀.onto rest).activations =
      .eval (.loop ⟨b.connection, b.stack, .bridge i⟩) (.ofOutcome o) :: ownedBy k ls rest := by
  cases h with
  | mk w₁ new size bridge idle' =>
      have hnone : ∀ x ∈ new ++ [], H.mark j x ≠ k := by
        intro x hx
        refine mark_ne hne fun i' hi' => ?_
        by_cases hii' : i' = i
        · rw [List.append_nil] at hx
          exact hii' ▸ idle' x hx
        · exact idle x (List.mem_cons_of_mem _ hx) i' hi' hii'
      have hmark : H.mark j (.eval (.loop ⟨b.connection, b.stack, .bridge i⟩) (.ofOutcome o) :
          Activation S σ) = k := hi
      rw [State.running_onto, State.activations_running, State.activations_running, List.map_cons,
        hmark, List.cons_append, ownedBy_cons_self, ownedBy_append (by simp),
        ownedBy_of_none hnone, List.nil_append]

section

variable (h : H.Beside k (.running w top rest) (j :: ls) a) (silent : H.Silent P) (hne : j ≠ k)
  (orderly : H.Orderly P (.running w top rest) (j :: ls)) (within : top.Within H j w.host)
  (bridges : ∀ i, w.bridges.size ≤ i → i < (State.work P w [] top).world.bridges.size →
    H.bridge i = j)

include hne orderly

omit [DecidableEq ι] in
/-- A step of another party leaves a bridge of the party alone if it does not complete what the
bridge waits for. -/
theorem Orderly.quiet {i : Nat} (hi : H.bridge i = k)
    (hwins : ∀ cb o, top.completion? w = some (cb, o) → ¬w.Wins i cb) :
    Quiet i w [] (State.work P w [] top) := by
  obtain ⟨idle, -⟩ := List.forall₂_cons.mp orderly.settled
  exact State.quiet_work P (idle i fun hj => hne (hj.symm.trans hi)) hwins

include bridges

omit [DecidableEq ι] in
theorem Orderly.bridge_eq {i : Nat} (hi : H.bridge i = k)
    (hwins : ∀ cb o, top.completion? w = some (cb, o) → ¬w.Wins i cb) :
    (State.work P w [] top).world.bridges[i]? = w.bridges[i]? := by
  by_cases hlt : i < w.bridges.size
  · exact (orderly.quiet hne hi hwins).bridge_eq hlt
  · have hle := Nat.le_of_not_lt hlt
    rw [Array.getElem?_eq_none hle, Array.getElem?_eq_none]
    exact Nat.le_of_not_lt fun hnew => hne ((bridges i hle hnew).symm.trans hi)

omit orderly bridges

include h silent within

/-- A connection that another party makes for the party is given to it. -/
theorem Beside.given : ∃ w', H.Like k
    { (State.work P w [] top).world with bridges := w.bridges } w' ∧
      a.undergoes P (if w.connections.states.size <
            (State.work P w [] top).world.connections.states.size ∧
            H.connection w.connections.states.size = k then
          [.connections (State.work P w [] top).world.connections.states.size]
        else []) = a.withWorld w' := by
  refine ⟨_, h.like.spared (leavesAlone_work silent within hne.symm []), ?_⟩
  by_cases hgiven : w.connections.states.size <
      (State.work P w [] top).world.connections.states.size ∧
      H.connection w.connections.states.size = k
  · rw [if_pos hgiven, State.world_running, if_pos hgiven]
    rfl
  · rw [if_neg hgiven, State.world_running, if_neg hgiven, State.withWorld_world]
    rfl

include orderly bridges

/-- A step of another party that completes no callback of the party. -/
theorem Beside.ignores (contained : (State.running w top rest).StepContained P)
    (hwins : ∀ cb o, top.completion? w = some (cb, o) → H.bridge cb.bridge = k →
      w.isArmed cb = false) :
    H.Beside k ((State.running w top rest).next P)
      ((State.work P w [] top).activations.map (H.mark j) ++ ls)
      (a.undergoes P (H.heard P w top j k)) := by
  obtain ⟨idle, hrest⟩ := List.forall₂_cons.mp orderly.settled
  have hnot : ∀ i, H.bridge i = k → ∀ cb o, top.completion? w = some (cb, o) → ¬w.Wins i cb := by
    intro i hi cb o hc hw
    have harmed := hwins cb o hc (hw.1.symm ▸ hi)
    rw [hw.2] at harmed
    cases harmed
  obtain ⟨w', hgiven, hdeed⟩ := h.given silent hne within
  have hlike : H.Like k (State.work P w [] top).world w' :=
    hgiven.onBridges (fun i hi => orderly.bridge_eq hne bridges hi (hnot i hi)) orderly.size_le
  have howned : a.activations = ownedBy k ls rest := by
    rw [h.owned, State.activations_running, ownedBy_cons_of_ne hne]
  -- What the party has keeps, whatever is reported to it.
  have hbeside : ∀ a' : State S σ, a'.activations = a.activations →
      H.Like k (State.work P w [] top).world a'.world →
      H.Beside k ((State.running w top rest).next P)
        ((State.work P w [] top).activations.map (H.mark j) ++ ls) a' := by
    intro a' hsame hworld
    rw [State.next_running]
    refine ⟨?_, by rwa [State.world_onto]⟩
    rw [hsame, howned, ownedBy_onto_of_none _ (Settled.length_eq hrest)]
    · intro w₀ payload hs i hi
      rw [orderly.bordersStopPanics.escapes contained hs i hi]
      exact hne
    · exact fun x hx => mark_ne hne fun i hi =>
        (orderly.quiet hne hi (hnot i hi)).all_idle (by simp) x hx
  have hself : H.Beside k ((State.running w top rest).next P)
      ((State.work P w [] top).activations.map (H.mark j) ++ ls) (a.withWorld w') :=
    hbeside _ (by simp) (by simpa using hlike)
  simp only [heard, if_neg hne.symm, State.undergoes_append, hdeed]
  cases hc : top.completion? w with
  | none => exact hself
  | some p =>
      obtain ⟨cb, o⟩ := p
      by_cases hcb : H.bridge cb.bridge = k
      · have harmed : (w'.onThread w.thread).isArmed cb = false :=
          ((hgiven.onThread w.thread).isArmed_eq hcb).trans (hwins cb o hc hcb)
        simp only [if_pos hcb, State.undergoes, List.foldl_cons, List.foldl_nil, State.undergo,
          State.world_withWorld, State.activations_withWorld,
          State.complete_of_not_armed P o harmed]
        refine hbeside _ (by simp) ?_
        rw [State.world_resume]
        exact (hlike.onThread w.thread).noted silent _
      · simp only [if_neg hcb]
        exact hself

/-- A step of another party that completes the callback for which a run of the party waits takes
this run up. -/
theorem Beside.resumes {cb : Callback} {o : Outcome} (hc : top.completion? w = some (cb, o))
    (hcb : H.bridge cb.bridge = k) (harmed : w.isArmed cb = true) :
    H.Beside k ((State.running w top rest).next P)
      ((State.work P w [] top).activations.map (H.mark j) ++ ls)
      (a.undergoes P (H.heard P w top j k)) := by
  obtain ⟨idle, hrest⟩ := List.forall₂_cons.mp orderly.settled
  obtain ⟨w', hgiven, hdeed⟩ := h.given silent hne within
  have howned : a.activations = ownedBy k ls rest := by
    rw [h.owned, State.activations_running, ownedBy_cons_of_ne hne]
  obtain ⟨b, hb, hba⟩ := World.isArmed_eq_true_iff.mp harmed
  have hnot : ∀ i, H.bridge i = k → i ≠ cb.bridge → ∀ cb' o', top.completion? w = some (cb', o') →
      ¬w.Wins i cb' := by
    intro i _ hne' cb' o' hc' hw
    rw [hc, Option.some.injEq, Prod.mk.injEq] at hc'
    exact hne' (hw.1.symm.trans (congrArg Callback.bridge hc'.1.symm))
  have hcbidle : top.Idle cb.bridge := idle _ fun hj => hne (hj.symm.trans hcb)
  have hresumes : Resumes cb.bridge b o w [] (State.work P w [] top) :=
    State.resumes_work P hcbidle hc rfl hb hba
  have hsame : ∀ i, H.bridge i = k → (State.work P w [] top).world.bridges[i]? =
      (w.setBridge cb.bridge { b with armed := none, stack := .empty }).bridges[i]? := by
    intro i hi
    by_cases hi' : i = cb.bridge
    · subst hi'
      rw [World.setBridge_bridges_self hb]
      exact hresumes.bridge_eq
    · rw [World.setBridge_bridges_of_ne (Ne.symm hi')]
      exact orderly.bridge_eq hne bridges hi (hnot i hi hi')
  have hsize : (w.setBridge cb.bridge { b with armed := none, stack := .empty }).bridges.size ≤
      (State.work P w [] top).world.bridges.size := by
    rw [World.setBridge_size]
    exact orderly.size_le
  have hlike : H.Like k (State.work P w [] top).world
      (w'.setBridge cb.bridge { b with armed := none, stack := .empty }) :=
    (hgiven.setBridge hcb _).onBridges hsame hsize
  have harmed' : (w'.onThread w.thread).bridges[cb.bridge]? = some b :=
    (hgiven.bridges _ hcb).trans hb
  simp only [heard, if_neg hne.symm, State.undergoes_append, hdeed, hc, if_pos hcb]
  simp only [State.undergoes, List.foldl_cons, List.foldl_nil, State.undergo, State.world_withWorld,
    State.activations_withWorld, State.complete_of_armed P o harmed' hba]
  rw [State.next_running]
  refine ⟨?_, ?_⟩
  · have hidle : ∀ x ∈ (State.work P w [] top).activations, ∀ i, H.bridge i = k → i ≠ cb.bridge →
        x.Idle i := fun x hx i hi hi' =>
      (orderly.quiet hne hi (hnot i hi hi')).all_idle (by simp) x hx
    rw [ownedBy_onto_of_resumes hresumes hne hcb hidle, State.activations_running, howned]
  · rw [State.world_onto]
    exact (hlike.onThread w.thread).noted silent _

/-- A step of another party. -/
theorem Beside.passes (contained : (State.running w top rest).StepContained P) :
    H.Beside k ((State.running w top rest).next P)
      ((State.work P w [] top).activations.map (H.mark j) ++ ls)
      (a.undergoes P (H.heard P w top j k)) := by
  by_cases hwins : ∃ cb o, top.completion? w = some (cb, o) ∧ H.bridge cb.bridge = k ∧
      w.isArmed cb = true
  · obtain ⟨cb, o, hc, hcb, harmed⟩ := hwins
    exact h.resumes silent hne orderly within bridges hc hcb harmed
  · refine h.ignores silent hne orderly within bridges contained fun cb o hc hcb => ?_
    simpa using fun harmed => hwins ⟨cb, o, hc, hcb, harmed⟩

end

/-! ## Every step -/

/-- A command that starts a run for the party, or that the party gives to start one for others. -/
theorem Beside.starts {α : Type} {holder : Holder S σ α} {e : Effect S} {c : Connection}
    {terminal : Terminal S} {next : Unit → Code S σ α} {i : ι}
    (h : H.Beside k (.running w (holder.wrap (.command (.run e c terminal) next)) rest) (j :: ls) a)
    (other : i ≠ j) : H.Beside k
      (.running w (.eval (.loop ⟨c, .empty, .terminal terminal⟩) e) (holder.wrap (next ()) :: rest))
      (i :: j :: ls) (a.undergoes P
        (if k = i then [.run w.thread e c terminal] else if k = j then [.skip] else [])) := by
  have howned := h.owned
  rw [State.activations_running] at howned
  by_cases hi : k = i
  · subst hi
    rw [if_pos rfl]
    refine ⟨?_, h.like.onThread w.thread⟩
    rw [ownedBy_cons_of_ne other.symm] at howned
    rw [State.activations_running, ownedBy_cons_self, ownedBy_cons_of_ne other.symm]
    exact congrArg _ howned
  rw [if_neg hi]
  by_cases hj : k = j
  · subst hj
    rw [ownedBy_cons_self] at howned
    have hlike := h.like
    rw [if_pos rfl]
    cases a with
    | returned w' => cases howned
    | unwound w' payload => cases howned
    | running w' top' rest' =>
        cases howned
        refine ⟨?_, hlike⟩
        rw [State.activations_running, ownedBy_cons_of_ne other, ownedBy_cons_self]
        simp [State.undergoes, State.undergo, State.skip, Code.skip]
  · rw [if_neg hj]
    refine ⟨?_, h.like⟩
    rw [ownedBy_cons_of_ne (Ne.symm hj)] at howned
    rw [State.activations_running, ownedBy_cons_of_ne (Ne.symm hi), ownedBy_cons_of_ne (Ne.symm hj)]
    exact howned

/-- The host brings in code for the party, or for others. -/
theorem beside_start {a : State S σ} (like : H.Like k w a.world) (ended : a.activations = [])
    (j : ι) (code : Code S σ Unit) : H.Beside k (.start w code) [j]
      (a.undergoes P (if k = j then [.call w.thread code] else [])) := by
  by_cases hj : k = j
  · subst hj
    rw [if_pos rfl]
    refine ⟨?_, like.onThread w.thread⟩
    rw [State.start, State.activations_running, ownedBy_cons_self]
    exact congrArg _ ended
  · rw [if_neg hj]
    refine ⟨?_, like⟩
    rw [State.start, State.activations_running, ownedBy_cons_of_ne (Ne.symm hj)]
    exact ended

/-- Whatever happens to the party among others happens to it alone. -/
theorem Goes.beside {s' : State S σ} {ls' : List ι} {new : ι → List (Deed S σ)}
    (goes : H.Goes P s ls s' ls' new) (silent : H.Silent P) (orderly : H.Orderly P s ls)
    (h : H.Beside k s ls a) : H.Beside k s' ls' (a.undergoes P (new k)) := by
  cases goes with
  | @works w top rest j ls within bridges contained =>
      by_cases hjk : j = k
      · subst hjk
        exact h.works silent orderly within bridges contained
      · exact h.passes silent hjk orderly within bridges contained
  | starts holder other contained =>
      rw [State.next, State.work_run]
      exact h.starts other
  | again ended j code =>
      have hended : a.activations = [] := by rw [h.owned, ended]; rfl
      exact beside_start h.like hended j code

/-- A machine that works for one party, in a world in which nothing has happened, undergoes what
happens to the party among others. -/
theorem SharedRun.beside {host host' : σ} {log : ι → List (Deed S σ)}
    (h : H.SharedRun P host s ls log) (silent : H.Silent P)
    (part : H.part k host' = H.part k host) (thread : String) :
    H.Beside k s ls ((State.returned (.initial host' thread)).undergoes P (log k)) := by
  induction h with
  | start thread' j code => exact beside_start (like_initial part thread' thread) rfl j code
  | next h goes ih =>
      rw [State.undergoes_append]
      exact goes.beside silent h.orderly ih

end Holdings

end Trampoline
