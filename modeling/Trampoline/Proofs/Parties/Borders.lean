import Trampoline.Proofs.Parties.Holdings
import Trampoline.Proofs.Machine.Completion
import Trampoline.Proofs.Machine.Reachable
import Mathlib.Data.List.Forall2

/-!
# Borders between parties

A step for a party puts activations on the control stack that work for this party, but for a run of
another party that a completion takes up.  So no loop of a party works for a bridge of another, and
each border between parties on the control stack is one that a call of the engine has made.  No
panic crosses a border, because none leaves such a call.

Main definitions and results:

- Definition `Holdings.Settled`, theorem `Holdings.settled_work`: each activation keeps away from
  the bridges of others.
- Theorem `Holdings.work_cases`: for whom the activations work that a step leaves.
- Definition `BordersStopPanics`, theorem `BordersStopPanics.next`: what is above a border lets no
  panic out.
- Definition `Holdings.Orderly`, theorem `Holdings.SharedRun.orderly`: the parties are kept apart.
-/

namespace Trampoline

variable {S : Closures} {σ ι : Type}

namespace Holdings

variable {H : Holdings ι σ} {k : ι} {P : Program S σ}

/-! ## Whose work it is -/

/-- Activations work for parties, each for no bridge of another party. -/
def Settled (H : Holdings ι σ) (ls : List ι) (as : List (Activation S σ)) : Prop :=
  List.Forall₂ (fun k a => ∀ i, H.bridge i ≠ k → a.Idle i) ls as

/-- What a step leaves that works for another party is the loop of a bridge of that party. -/
theorem mark_cases (H : Holdings ι σ) (k : ι) (a : Activation S σ) :
    H.mark k a = k ∨
      ∃ run i, a.loop? = some run ∧ run.outlet = .bridge i ∧ H.mark k a = H.bridge i := by
  unfold mark
  cases hrun : a.loop? with
  | none => exact .inl rfl
  | some run =>
      cases hout : run.outlet with
      | terminal t => exact .inl (by simp [hout])
      | bridge i => exact .inr ⟨run, i, rfl, hout, by simp [hout]⟩

/-- Activations that are idle for the bridges of others work for the party. -/
theorem mark_of_idle {a : Activation S σ} (h : ∀ i, H.bridge i ≠ k → a.Idle i) :
    H.mark k a = k := by
  rcases H.mark_cases k a with hsame | ⟨run, i, hrun, hout, hmark⟩
  · exact hsame
  · rw [hmark]
    apply Classical.byContradiction
    intro hne
    exact (Activation.idle_iff_of_loop? hrun).mp (h i hne) hout

/-- What a step for a party leaves works for this party, but for the run of another party that it
takes up by a completion. -/
theorem work_cases (P : Program S σ) (w : World S σ) {top : Activation S σ}
    (idle : ∀ i, H.bridge i ≠ k → top.Idle i) :
    (∀ a ∈ (State.work P w [] top).activations, ∀ i, H.bridge i ≠ k → a.Idle i) ∨
      ∃ cb o b w' new, top.completion? w = some (cb, o) ∧ H.bridge cb.bridge ≠ k ∧
        w.bridges[cb.bridge]? = some b ∧ b.armed = some cb.epoch ∧
        State.work P w [] top = .running w'
          (.eval (.loop ⟨b.connection, b.stack, .bridge cb.bridge⟩) (.ofOutcome o)) new ∧
        ∀ a ∈ new, ∀ i, H.bridge i ≠ k → a.Idle i := by
  have hquiet : ∀ i, H.bridge i ≠ k →
      (∀ cb o, top.completion? w = some (cb, o) → ¬w.Wins i cb) →
      ∀ a ∈ (State.work P w [] top).activations, a.Idle i := fun i hi hwins =>
    (State.quiet_work P (idle i hi) hwins).all_idle (by simp)
  by_cases hwins : ∃ cb o, top.completion? w = some (cb, o) ∧ H.bridge cb.bridge ≠ k ∧
      w.isArmed cb = true
  · obtain ⟨cb, o, hc, hcb, harmed⟩ := hwins
    obtain ⟨b, hb, hba⟩ := World.isArmed_eq_true_iff.mp harmed
    have hresumes : Resumes cb.bridge b o w [] (State.work P w [] top) :=
      State.resumes_work P (idle _ hcb) hc rfl hb hba
    generalize State.work P w [] top = s at hquiet hresumes ⊢
    cases hresumes with
    | mk w' new size bridge idle' =>
        rw [List.append_nil] at hquiet ⊢
        refine .inr ⟨cb, o, b, w', new, hc, hcb, hb, hba, rfl, fun a ha i hi => ?_⟩
        by_cases hi' : i = cb.bridge
        · exact hi' ▸ idle' a ha
        · refine hquiet i hi (fun cb' o' hc' hw => ?_) a (by simp [ha])
          rw [hc, Option.some.injEq, Prod.mk.injEq] at hc'
          obtain ⟨rfl, rfl⟩ := hc'
          exact hi' hw.1.symm
  · refine .inl fun a ha i hi => hquiet i hi (fun cb o hc hw => ?_) a ha
    exact hwins ⟨cb, o, hc, hw.1.symm ▸ hi, hw.2⟩

/-- All that a step leaves below its first activation works for the party. -/
theorem marks_tail (H : Holdings ι σ) (P : Program S σ) (w : World S σ) {top : Activation S σ}
    (idle : ∀ i, H.bridge i ≠ k → top.Idle i) :
    ∀ j ∈ ((State.work P w [] top).activations.map (H.mark k)).tail, j = k := by
  have hown : ∀ as : List (Activation S σ), (∀ a ∈ as, ∀ i, H.bridge i ≠ k → a.Idle i) →
      ∀ j ∈ as.map (H.mark k), j = k := by
    intro as has j hj
    obtain ⟨a, ha, rfl⟩ := List.mem_map.mp hj
    exact mark_of_idle (has a ha)
  rcases H.work_cases P w idle with hall | ⟨cb, o, b, w', new, -, -, -, -, hs, hnew⟩
  · exact fun j hj => hown _ hall j (List.mem_of_mem_tail hj)
  · rw [hs]
    exact hown new hnew

/-- What a step leaves keeps away from the bridges of others. -/
theorem settled_work (P : Program S σ) (w : World S σ) {top : Activation S σ}
    (idle : ∀ i, H.bridge i ≠ k → top.Idle i) :
    H.Settled ((State.work P w [] top).activations.map (H.mark k))
      (State.work P w [] top).activations := by
  have hown : ∀ as : List (Activation S σ), (∀ a ∈ as, ∀ i, H.bridge i ≠ k → a.Idle i) →
      H.Settled (as.map (H.mark k)) as := by
    intro as has
    induction as with
    | nil => exact .nil
    | cons a as ih =>
        have ha := has a (by simp)
        refine .cons ?_ (ih fun b hb => has b (by simp [hb]))
        rwa [mark_of_idle ha]
  rcases H.work_cases P w idle with hall | ⟨cb, o, b, w', new, -, -, -, -, hs, hnew⟩
  · exact hown _ hall
  · rw [hs]
    refine .cons (fun i hi => ?_) (hown new hnew)
    rw [Activation.idle_eval, Driver.idle_loop]
    intro hout
    cases hout
    exact hi rfl

/-- Two stacks above each other are settled if both are. -/
theorem Settled.append {ls ls' : List ι} {as as' : List (Activation S σ)} (h : H.Settled ls as)
    (h' : H.Settled ls' as') : H.Settled (ls ++ ls') (as ++ as') := by
  induction h with
  | nil => exact h'
  | cons ha h ih => exact .cons ha ih

/-- There is one party for each activation. -/
theorem Settled.length_eq {ls : List ι} {as : List (Activation S σ)} (h : H.Settled ls as) :
    ls.length = as.length := by
  induction h with
  | nil => rfl
  | cons ha h ih => simp [ih]

/-- A state on top of activations keeps away from the bridges of others if both do. -/
theorem Settled.onto {s : State S σ} {ls : List ι} {rest : List (Activation S σ)}
    (h : H.Settled (s.activations.map (H.mark k)) s.activations) (hrest : H.Settled ls rest) :
    H.Settled (s.activations.map (H.mark k) ++ ls) (s.onto rest).activations := by
  cases s with
  | running w top above => exact h.append hrest
  | returned w =>
      rw [State.onto, State.activations_resume]
      exact hrest
  | unwound w payload =>
      cases hrest with
      | nil => exact .nil
      | cons ha hrest => exact .cons (fun i hi => (ha i hi).panicking payload) hrest

end Holdings

/-! ## Borders -/

/-- A call is in hand, or in the hands of code that lets no panic out. -/
def State.Held (P : Program S σ) (s : State S σ) : Prop :=
  Handled P s ∨ s.NeverUnwinds P

/-- A call that lets no panic out goes on so. -/
theorem State.Held.next {P : Program S σ} {s : State S σ} (h : s.Held P)
    (hcontained : PanicsContained P s) : (s.next P).Held P :=
  h.elim (fun hhandled => hhandled.next hcontained) fun hnever => .inr hnever.next

/-- A call that lets no panic out has not been unwound. -/
theorem State.Held.ne_unwound {P : Program S σ} {w : World S σ} {payload : Payload}
    (h : (State.unwound w payload).Held P) : False :=
  h.elim Handled.ne_unwound fun hnever => hnever 0 w payload rfl

/-- A command that starts a run puts its loop on top of what gave it. -/
theorem State.work_run (P : Program S σ) (w : World S σ) (rest : List (Activation S σ)) {α : Type}
    (h : Holder S σ α) (e : Effect S) (c : Connection) (terminal : Terminal S)
    (next : Unit → Code S σ α) : work P w rest (h.wrap (.command (.run e c terminal) next)) =
      .running w (.eval (.loop ⟨c, .empty, .terminal terminal⟩) e) (h.wrap (next ()) :: rest) := by
  rw [work_wrap]
  rfl

/-- A loop that is alone lets no panic out. -/
theorem State.Held.loop {P : Program S σ} {s : State S σ} (hs : s.activations.length = 1)
    (hloop : ∀ a ∈ s.activations.head?, ∃ run, a.loop? = some run) : s.Held P := by
  cases s with
  | returned w => cases hs
  | unwound w payload => cases hs
  | running w top above =>
      have habove : above = [] := by simpa using hs
      subst habove
      obtain ⟨run, hrun⟩ := hloop top rfl
      exact .inl (.loop hrun)

/-- What is below a stack is not on top of it. -/
theorem State.head?_onto {s : State S σ} {below : List (Activation S σ)} (h : s.activations ≠ []) :
    (s.onto below).activations.head? = s.activations.head? := by
  cases s with
  | running w top rest => rfl
  | returned w => exact absurd rfl h
  | unwound w payload => exact absurd rfl h

/-- What is on top of a stack is known from its height. -/
theorem State.eq_of_onto {s s' : State S σ} {below below' : List (Activation S σ)}
    (h : s.onto below = s'.onto below') (hne : s.activations ≠ [])
    (hlength : s.activations.length = s'.activations.length) : s = s' := by
  cases s with
  | returned w => exact absurd rfl hne
  | unwound w payload => exact absurd rfl hne
  | running w top above =>
      cases s' with
      | returned w' => cases hlength
      | unwound w' payload => cases hlength
      | running w' top' above' =>
          rw [running_onto, running_onto, State.running.injEq] at h
          obtain ⟨rfl, rfl, hrest⟩ := h
          rw [(List.append_inj hrest (by simpa using hlength)).1]

/-- What is above a border between parties is a call that lets no panic out. -/
def BordersStopPanics (P : Program S σ) (s : State S σ) (ls : List ι) : Prop :=
  ∀ (s₁ : State S σ) below la j k lb, s = s₁.onto below → ls = la ++ j :: k :: lb →
    s₁.activations.length = la.length + 1 → j ≠ k → s₁.Held P

namespace BordersStopPanics

variable {H : Holdings ι σ} {k : ι} {P : Program S σ} {w : World S σ} {top : Activation S σ}
  {rest : List (Activation S σ)} {ls : List ι}

/-- A panic that leaves an activation goes on in the same party. -/
theorem escapes (h : BordersStopPanics P (.running w top rest) (k :: ls))
    (contained : (State.running w top rest).StepContained P) {w' : World S σ} {payload : Payload}
    (hs : State.work P w [] top = .unwound w' payload) : ∀ j ∈ ls.head?, j = k := by
  intro j hj
  cases ls with
  | nil => cases hj
  | cons j' ls =>
      cases hj
      apply Classical.byContradiction
      intro hne
      have hheld : (State.running w top []).Held P :=
        h _ rest [] k j ls rfl rfl rfl fun hkj => hne hkj.symm
      have hnext := hheld.next (contained w top rest rfl)
      rw [State.next, hs] at hnext
      exact hnext.ne_unwound

/-- A border below what a step has left was there before. -/
theorem next_below (h : BordersStopPanics P (.running w top rest) (k :: ls))
    (hlength : ls.length = rest.length) {s₁ : State S σ} {below : List (Activation S σ)}
    {la lb : List ι} {j j' : ι}
    (hs : (State.work P w [] top).onto rest = s₁.onto below)
    (hs₁ : s₁.activations.length = (State.work P w [] top).activations.length + la.length + 1)
    (hls : ls = la ++ j :: j' :: lb) (hne : j ≠ j') : s₁.Held P := by
  subst hls
  have hlt : la.length + 1 ≤ rest.length := by
    rw [← hlength]
    simp
  have hold : (State.running w top (rest.take (la.length + 1))).Held P := by
    refine h _ (rest.drop (la.length + 1)) (k :: la) j j' lb ?_ rfl ?_ hne
    · rw [State.running_onto, List.take_append_drop]
    · simp only [State.activations_running, List.length_cons, List.length_take]
      omega
  have hsplit : (State.work P w [] top).onto rest =
      ((State.running w top (rest.take (la.length + 1))).next P).onto
        (rest.drop (la.length + 1)) := by
    rw [← State.next_onto, State.running_onto, List.take_append_drop, State.next_running]
  have hsame : s₁ = (State.running w top (rest.take (la.length + 1))).next P := by
    refine State.eq_of_onto (hs.symm.trans hsplit) (fun hnil => by simp [hnil] at hs₁) ?_
    rw [hs₁, State.next_running, State.length_activations_onto, List.length_take]
    omega
  rw [hsame]
  refine hold.next (.of_ne fun w' top' hs' => ?_)
  have hlen := congrArg (fun s => s.activations.length) hs'
  simp only [State.activations_running, List.length_cons, List.length_take, List.length_nil] at hlen
  omega

/-- A step keeps the borders, and a run of another party that it takes up is behind a border. -/
theorem next (h : BordersStopPanics P (.running w top rest) (k :: ls))
    (contained : (State.running w top rest).StepContained P)
    (settled : H.Settled (k :: ls) (top :: rest)) :
    BordersStopPanics P ((State.running w top rest).next P)
      ((State.work P w [] top).activations.map (H.mark k) ++ ls) := by
  obtain ⟨idle, hrest⟩ := List.forall₂_cons.mp settled
  have hlength : ls.length = rest.length := Holdings.Settled.length_eq hrest
  intro s₁ below la j j' lb hs hls hs₁ hne
  rw [State.next_running] at hs
  have hs₁ne : s₁.activations ≠ [] := by
    intro hnil
    simp [hnil] at hs₁
  rcases List.append_eq_append_iff.mp hls with ⟨la', hla, hls'⟩ | ⟨lb', hmarks, hlb⟩
  · exact h.next_below hlength hs (by simp [hs₁, hla]) hls' hne
  cases lb' with
  | nil =>
      have hls' : ls = [] ++ j :: j' :: lb := by simpa using hlb.symm
      refine h.next_below hlength hs ?_ hls' hne
      rw [hs₁, ← List.length_map (H.mark k), hmarks]
      simp
  | cons x lb' =>
      rw [List.cons_append, List.cons.injEq] at hlb
      obtain ⟨rfl, hlb⟩ := hlb
      have htail := H.marks_tail P w idle
      rw [hmarks] at htail
      by_cases hj : j = k
      · -- The border is right below what the step has left, where it was below the activation.
        subst hj
        cases lb' with
        | cons y lb' =>
            rw [List.cons_append, List.cons.injEq] at hlb
            refine absurd ?_ (hlb.1 ▸ hne)
            cases la <;> exact (htail y (by simp)).symm
        | nil =>
            have hold : (State.running w top []).Held P :=
              h _ rest [] j j' lb rfl (congrArg (j :: ·) hlb.symm) rfl hne
            have hsame : s₁ = State.work P w [] top := by
              refine State.eq_of_onto hs.symm hs₁ne ?_
              rw [hs₁, ← List.length_map (H.mark j), hmarks]
              simp
            rw [hsame]
            exact hold.next (contained w top rest rfl)
      · -- The run of another party is alone behind its border.
        cases la with
        | cons y la => exact absurd (htail j (by simp)) hj
        | nil =>
            refine .loop hs₁ fun a ha => ?_
            have hhead := congrArg (fun s => s.activations.head?) hs
            have hwork : (State.work P w [] top).activations ≠ [] := by
              intro hnil
              simp [hnil] at hmarks
            simp only [State.head?_onto hs₁ne, State.head?_onto hwork] at hhead
            have hmark : H.mark k a = j := by
              have hmap := congrArg List.head? hmarks
              rw [List.head?_map, hhead, Option.mem_def.mp ha] at hmap
              exact Option.some.inj hmap
            rcases H.mark_cases k a with hsame | ⟨run, i, hrun, -, -⟩
            · exact absurd (hmark.symm.trans hsame) hj
            · exact ⟨run, hrun⟩

/-- A loop on top may work for any party. -/
theorem relabel {s : State S σ} {j : ι} (h : BordersStopPanics P s (k :: ls))
    (hloop : ∀ a ∈ s.activations.head?, ∃ run, a.loop? = some run) :
    BordersStopPanics P s (j :: ls) := by
  intro s₁ below la i i' lb hs hls hs₁ hne
  cases la with
  | cons x la =>
      rw [List.cons_append, List.cons.injEq] at hls
      exact h s₁ below (k :: la) i i' lb hs (congrArg (k :: ·) hls.2) hs₁ hne
  | nil =>
      refine .loop hs₁ fun a ha => hloop a ?_
      rwa [hs, State.head?_onto fun hnil => by simp [hnil] at hs₁]

/-- Where one party works there is no border. -/
theorem single (P : Program S σ) (s : State S σ) (k : ι) : BordersStopPanics P s [k] := by
  intro s₁ below la j j' lb _ hls
  have hlength := congrArg List.length hls
  simp only [List.length_append, List.length_cons, List.length_nil] at hlength
  omega

end BordersStopPanics

namespace Holdings

variable {H : Holdings ι σ} {P : Program S σ}

/-- The activations work for their parties, and there are borders between them. -/
structure Orderly (H : Holdings ι σ) (P : Program S σ) (s : State S σ) (ls : List ι) : Prop where
  settled : H.Settled ls s.activations
  bordersStopPanics : BordersStopPanics P s ls
  bounded : s.Bounded

/-- The number of bridges does not fall in a step. -/
theorem Orderly.size_le {w : World S σ} {top : Activation S σ} {rest : List (Activation S σ)}
    {ls : List ι} (h : H.Orderly P (.running w top rest) ls) :
    w.bridges.size ≤ (State.work P w [] top).world.bridges.size :=
  (State.quiet_work P (h.bounded w.bridges.size (Nat.le_refl _) top (by simp)) fun cb _ _ =>
    World.not_wins_of_size_le (Nat.le_refl _) cb).size_le

/-- Code that the host brings in works for one party. -/
theorem orderly_start (H : Holdings ι σ) (P : Program S σ) (w : World S σ) (k : ι)
    (code : Code S σ Unit) : H.Orderly P (.start w code) [k] where
  settled := .cons (fun i _ => Activation.idle_code i code) .nil
  bordersStopPanics := .single P _ k
  bounded := fun i _ _ ha => List.mem_singleton.mp ha ▸ Activation.idle_code i code

section

variable [DecidableEq ι]

/-- Whatever the machine does for parties that keep to themselves, it keeps them apart. -/
theorem Goes.orderly {s s' : State S σ} {ls ls' : List ι} {new : ι → List (Deed S σ)}
    (h : H.Goes P s ls s' ls' new) (ho : H.Orderly P s ls) : H.Orderly P s' ls' := by
  cases h with
  | works within bridges contained =>
      obtain ⟨idle, hrest⟩ := List.forall₂_cons.mp ho.settled
      refine ⟨?_, ho.bordersStopPanics.next contained ho.settled, ho.bounded.next P⟩
      rw [State.next_running]
      exact (H.settled_work P _ idle).onto hrest
  | @starts _ h w e c terminal next rest k j ls other contained =>
      obtain ⟨idle, hrest⟩ := List.forall₂_cons.mp ho.settled
      have hwork := State.work_run P w [] h e c terminal next
      have hnext := State.work_run P w rest h e c terminal next
      have hmark : H.mark k (h.wrap (next ())) = k := by
        refine H.marks_tail P w idle _ ?_
        rw [hwork]
        simp
      have hsettled := (H.settled_work P w idle).onto hrest
      have hborders := ho.bordersStopPanics.next contained ho.settled
      have hbounded := ho.bounded.next P
      rw [← State.next_running, State.next, hnext, hwork, State.activations_running, List.map_cons,
        List.map_singleton, hmark] at hsettled
      rw [State.next, hnext, hwork, State.activations_running, List.map_cons, List.map_singleton,
        hmark] at hborders
      rw [State.next, hnext] at hbounded ⊢
      refine ⟨.cons (fun i _ => ?_) (List.forall₂_cons.mp hsettled).2, hborders.relabel ?_,
        hbounded⟩
      · rw [Activation.idle_eval, Driver.idle_loop]
        intro hout
        cases hout
      · rintro a ⟨⟩
        exact ⟨_, rfl⟩
  | again ended k code => exact orderly_start H P s.world k code

/-- The parties of a machine are kept apart. -/
theorem SharedRun.orderly {host : σ} {s : State S σ} {ls : List ι} {log : ι → List (Deed S σ)}
    (h : H.SharedRun P host s ls log) : H.Orderly P s ls := by
  induction h with
  | start thread k code => exact orderly_start H P _ k code
  | next h goes ih => exact goes.orderly ih

end

end Holdings

end Trampoline
