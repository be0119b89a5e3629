import Trampoline.Proofs.Partial.Unhindered

/-!
# What needs no live run

A partial evaluation goes on as long as no node needs a live run.  The evaluator without a
stack can be stopped there too: it looks at no connection and meets no boundary and no
region, so that what is left is in front of the first node that needs a run, if there is one.

Main definitions and results:

- Definition `Effect.NeedsRun`: the nodes that need a live run.
- Definition `Course.Meets`: the nodes that an evaluation has met.
- Definition `Synchronous`: an evaluation that has met none of them.
- Theorem `Synchronous.proceeds`: it is one on open connections.
-/

namespace Trampoline

variable {S : Closures} {σ : Type}

/-! ## Evaluations without a live run -/

/-- A node that needs a live run: a boundary or a region. -/
def Effect.NeedsRun : Effect S → Prop
  | .async _ | .parked _ _ | .deferred _ _ | .switchConnection _ _ _ => True
  | _ => False

/-- With these answers, and without the looks, one evaluation becomes another that has met no
node that needs a live run. -/
inductive Synchronous : Course S → List (Exchange S) → Course S → Prop
  | refl (m : Course S) : Synchronous m [] m
  | goes {m m' n : Course S} {zs : List (Exchange S)} (hm : m.head = .goes m')
      (h : Synchronous m' zs n) : Synchronous m zs n
  | meets {c : Connection} {node : Effect S} {frames : List (Frame S)} {n : Course S}
      {zs : List (Exchange S)} (hnode : ¬node.NeedsRun)
      (h : Synchronous ((node.move c).within frames) zs n) :
      Synchronous ((Course.eval c node).within frames) zs n
  | answered {q : Question S} {next : q.Answer → Course S} {a : q.Answer}
      {frames : List (Frame S)} {n : Course S} {zs : List (Exchange S)}
      (hq : ∀ c, q ≠ .canceled c) (h : Synchronous ((next a).within frames) zs n) :
      Synchronous ((Course.ask q next).within frames) (⟨q, a⟩ :: zs) n

/-- An evaluation that has been answered like this has met the node, on a connection that was
not canceled. -/
def Course.Meets (m : Course S) (xs : List (Exchange S)) (node : Effect S) : Prop :=
  ∃ ys c zs frames, xs = ys ++ ⟨.canceled c, false⟩ :: zs ∧
    Proceeds m ys ((Course.eval c node).within frames)

namespace Synchronous

variable {m n k : Course S} {ys zs : List (Exchange S)}

theorem trans (h : Synchronous m ys n) (h' : Synchronous n zs k) :
    Synchronous m (ys ++ zs) k := by
  induction h with
  | refl m => exact h'
  | goes hm _ ih => exact .goes hm (ih h')
  | meets hnode _ ih => exact .meets hnode (ih h')
  | answered hq _ ih => exact .answered hq (ih h')

/-- What follows without a question adds nothing. -/
theorem onward (h : Synchronous m zs n) (h' : Synchronous n [] k) : Synchronous m zs k := by
  simpa using h.trans h'

/-- What goes on by itself needs no run. -/
theorem of_proceeds (h : Proceeds m [] n) : Synchronous m [] n := by
  generalize hxs : ([] : List (Exchange S)) = xs at h
  induction h with
  | refl m => exact .refl m
  | goes hm _ ih => exact .goes hm (ih hxs)
  | answered hm _ _ => cases hxs

/-- It has proceeded on open connections, and has met no node that needs a live run. -/
theorem proceeds (h : Synchronous m zs n) : ∃ xs, Proceeds m xs n ∧ Open xs ∧ spoken xs = zs ∧
    ∀ node, m.Meets xs node → ¬node.NeedsRun := by
  induction h with
  | refl m => exact ⟨[], .refl m, .nil, rfl, fun node ⟨ys, c, zs, frames, hxs, _⟩ => by simp at hxs⟩
  | @goes m m' n zs hm _ ih =>
      obtain ⟨xs, hp, hopen, hspoken, hmeets⟩ := ih
      refine ⟨xs, .goes hm hp, hopen, hspoken, fun node ⟨ys, c, ws, frames, hxs, hys⟩ => ?_⟩
      rcases hys.gone hm with ⟨-, hself⟩ | hys
      · rw [← hself, Course.head_within_asks rfl] at hm
        cases hm
      · exact hmeets node ⟨ys, c, ws, frames, hxs, hys⟩
  | @meets c node frames n zs hnode _ ih =>
      obtain ⟨xs, hp, hopen, hspoken, hmeets⟩ := ih
      have hhead := Course.head_within_asks (m := Course.eval c node) rfl frames
      refine ⟨⟨.canceled c, false⟩ :: xs, .answered hhead hp, (Open.look c).append hopen, hspoken,
        fun node' ⟨ys, c', ws, frames', hxs, hys⟩ => ?_⟩
      rcases hys.taken hhead with ⟨-, hself⟩ | ⟨a, ys', rfl, hrest⟩
      · obtain ⟨-, rfl, -⟩ := Course.within_eval_inj hself
        exact hnode
      · rw [List.cons_append, List.cons.injEq] at hxs
        obtain ⟨hx, hxs⟩ := hxs
        cases hx
        exact hmeets node' ⟨ys', c', ws, frames', hxs, hrest⟩
  | @answered q next a frames n zs hq _ ih =>
      obtain ⟨xs, hp, hopen, hspoken, hmeets⟩ := ih
      have hlook := Question.isLook_of_ne hq a
      have hhead := Course.head_within_asks (m := Course.ask q next) rfl frames
      refine ⟨⟨q, a⟩ :: xs, .answered hhead hp, (Open.of_not_look hlook).append hopen,
        by rw [spoken_cons hlook, hspoken], fun node ⟨ys, c, ws, frames', hxs, hys⟩ => ?_⟩
      rcases hys.taken hhead with ⟨-, hself⟩ | ⟨a', ys', rfl, hrest⟩
      · have hasks := Course.head_within_asks (m := Course.eval c node) rfl frames'
        rw [hself, hhead, Head.asks.injEq] at hasks
        exact absurd hasks.1 (hq c)
      · rw [List.cons_append, List.cons.injEq] at hxs
        obtain ⟨hx, hxs⟩ := hxs
        cases hx
        exact hmeets node ⟨ys', c, ws, frames', hxs, hrest⟩

/-- It is an evaluation on open connections. -/
theorem unhindered (h : Synchronous m zs n) : Unhindered m (spoken zs) n := by
  obtain ⟨xs, hp, hopen, rfl, -⟩ := h.proceeds
  refine ⟨xs, hp, hopen, ?_⟩
  simp [spoken]

end Synchronous

end Trampoline
