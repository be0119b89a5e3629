import Trampoline.Proofs.Run.Switches

/-!
# The connection under which a run stands

An evaluation stands under one connection wherever it is, and after an abortion it stands under
the connection that was found canceled.  What it has been answered determines which one that is.

Main definitions and results:

- Theorem `Course.Under.aborted`: only a look that finds the active connection canceled aborts an
  evaluation.
- Theorem `Proceeds.stands_under`: an evaluation always stands under some connection.
- Definition `Origin.On`, theorem `Origin.On.unique`: the connection under which the evaluation of
  a run stands.
- Theorem `Origin.On.unswitched`: it stays the same up to the next switch.
-/

namespace Trampoline

variable {S : Closures}

/-! ## Abortions -/

theorem Frame.head_move_ne_aborted (frame : Frame S) (c : Connection) (o : Outcome) :
    (frame.move c o).head ≠ .aborted := by
  have hbinder : ∀ (f : Binder S) (v : Value), (f.move c v).head ≠ .aborted := by
    intro f v
    cases f <;> simp [Binder.move, Course.head]
  have hrecovery : ∀ (h : Recovery S) (e : Failure), (h.move c e).head ≠ .aborted := by
    intro h e
    cases h <;> simp [Recovery.move, Course.head]
  cases frame with
  | bind f => cases o with
    | ok v => exact hbinder f v
    | error e => simp [Frame.move, Course.head]
  | map k => cases o <;> simp [Frame.move, Course.head]
  | handle h => cases o with
    | ok v => simp [Frame.move, Course.head]
    | error e => exact hrecovery h e
  | fold f h => cases o with
    | ok v => exact hbinder f v
    | error e => exact hrecovery h e
  | restore old r => simp [Frame.move, Course.head]

namespace Course

theorem head_region_ne_aborted (source : Effect S) (restore : Option (Restorer S))
    (old new : Connection) : (region source restore old new).head ≠ .aborted := by
  cases restore <;> simp [region, head]

/-- An evaluation that goes on without a question is not aborted by that. -/
theorem not_aborted_of_goes {m n : Course S} (h : m.head = .goes n) : n.head ≠ .aborted := by
  induction m generalizing n with
  | seq m frame ih =>
      simp only [head] at h
      cases hm : m.head with
      | exited c o =>
          simp only [hm, Head.goes.injEq] at h
          exact h ▸ frame.head_move_ne_aborted c o
      | goes m' =>
          simp only [hm, Head.goes.injEq] at h
          subst h
          have hm' := ih hm
          cases hh : m'.head <;> simp_all [head]
      | aborted => simp [hm] at h
      | asks q next => simp [hm] at h
  | _ => cases h

/-- An exit is no abortion, whatever frames wait for it. -/
theorem head_within_exit_ne_aborted (c : Connection) (o : Outcome) (frames : List (Frame S)) :
    ((exit c o).within frames).head ≠ .aborted := by
  cases frames with
  | nil => simp [head]
  | cons frame frames =>
      rw [within_cons, head_within_goes (head_seq_exited rfl frame) frames]
      simp

end Course

/-- The choice of a connection does not abort an evaluation. -/
theorem Modifier.head_choose_ne_aborted (m : Modifier S) (c old : Connection) (source : Effect S)
    (restore : Option (Restorer S)) :
    (m.choose c (.region source restore old)).head ≠ .aborted := by
  cases m with
  | user k => simp [Modifier.choose, Course.head]
  | uncancelable => exact Course.head_region_ne_aborted source restore old _
  | restoring exit before r =>
      cases r with
      | user k => simp [Modifier.choose, Restorer.choose, Course.head]
      | old => exact Course.head_region_ne_aborted source restore old _

/-- A node that has been found open does not abort the evaluation. -/
theorem Effect.head_move_ne_aborted (e : Effect S) (c : Connection) :
    (e.move c).head ≠ .aborted := by
  cases e with
  | switchConnection source modify restore =>
      exact modify.head_choose_ne_aborted c c source restore
  | _ => simp [Effect.move, Course.head]

/-- Only a look at a connection may abort an evaluation. -/
theorem Question.GoesOn.head_ne_aborted {c : Connection} {q : Question S}
    {next : q.Answer → Course S} (h : q.GoesOn c next) (hlook : ∀ d, q ≠ .canceled d)
    (a : q.Answer) : (next a).head ≠ .aborted := by
  have hnode : ∀ r : Except Failure (Effect S), (Course.node c r).head ≠ .aborted := by
    intro r
    cases r <;> simp [Course.node, Course.head]
  have hresult : ∀ o : Outcome, (Course.result c o : Course S).head ≠ .aborted := by
    intro o
    cases o <;> simp [Course.result, Course.head]
  have hregion : ∀ (source : Effect S) restore old (r : Except Failure Connection),
      (Course.connection c (.region source restore old) r).head ≠ .aborted := by
    intro source restore old r
    cases r with
    | ok new => exact Course.head_region_ne_aborted source restore old new
    | error e => simp [Course.connection, Course.head]
  cases q with
  | canceled d => exact absurd rfl (hlook d)
  | thunk k => exact h ▸ hnode a
  | bind k v => exact h ▸ hnode a
  | handler k e => exact h ▸ hnode a
  | delay k => exact h ▸ hresult a
  | modify k d =>
      obtain ⟨source, restore, old, rfl⟩ := h
      exact hregion source restore old a
  | restore k exit before d =>
      obtain ⟨source, restore, old, rfl⟩ := h
      exact hregion source restore old a
  | _ =>
      obtain rfl : next = Course.completion c := h
      simp [Course.completion, Course.head]

namespace Course

variable {c : Connection}

/-- Only a look that finds the active connection canceled aborts an evaluation. -/
theorem Under.aborted {m : Course S} (h : m.Under c) {q : Question S}
    {next : q.Answer → Course S} (hm : m.head = .asks q next) {a : q.Answer}
    (ha : (next a).head = .aborted) : (⟨q, a⟩ : Exchange S) = ⟨.canceled c, true⟩ := by
  induction m generalizing q with
  | ask q' next' _ =>
      cases hm
      obtain ⟨-, hgoes, hlook⟩ := h
      exact absurd ha (hgoes.head_ne_aborted hlook a)
  | eval d e =>
      cases hm
      obtain rfl : d = c := h
      cases a with
      | true => rfl
      | false => exact absurd ha (e.head_move_ne_aborted d)
  | seq m frame ih =>
      have hsource : m.Under c := h
      simp only [head] at hm
      cases hh : m.head with
      | asks q' next' =>
          simp only [hh] at hm
          cases hm
          refine ih hsource hh ?_
          cases hn : (next' a).head <;> simp_all [head]
      | exited d o => simp [hh] at hm
      | aborted => simp [hh] at hm
      | goes m' => simp [hh] at hm
  | _ => cases hm

/-- An evaluation that has not been aborted is under one connection only. -/
theorem Under.unique {d : Connection} {m : Course S} (h : m.Under c) (h' : m.Under d)
    (stays : m.head ≠ .aborted) : c = d := by
  induction m with
  | exit e o => exact h.symm.trans h'
  | abort => exact absurd rfl stays
  | ask q next _ => exact h.2.1.unique h'.2.1
  | eval e node => exact h.symm.trans h'
  | seq m frame ih => exact ih h h' fun hm => stays (head_seq_aborted hm frame)

end Course

/-! ## The connection under which a run stands -/

/-- The choice of a connection goes on under that, or under the one that was active. -/
theorem Modifier.under_choose_some (m : Modifier S) (c old : Connection) (source : Effect S)
    (restore : Option (Restorer S)) : ∃ d, (m.choose c (.region source restore old)).Under d := by
  have hregion : ∀ new, (Course.region source restore old new).Under new := by
    intro new
    cases restore <;> rfl
  cases hq : m.question? c with
  | some q => exact ⟨c, Modifier.under_choose (by simp [hq]) old source restore⟩
  | none =>
      cases m with
      | user k => cases hq
      | uncancelable => exact ⟨_, hregion _⟩
      | restoring exit before r =>
          cases r with
          | user k => cases hq
          | old => exact ⟨_, hregion _⟩

theorem Effect.under_move_some (e : Effect S) (c : Connection) : ∃ d, (e.move c).Under d := by
  cases e with
  | switchConnection source modify restore => exact modify.under_choose_some c c source restore
  | _ => exact ⟨c, Effect.under_move (by simp)⟩

/-- With any answer, an evaluation goes on under some connection. -/
theorem Course.Under.next {c : Connection} {m : Course S} (h : m.Under c) {q : Question S}
    {next : q.Answer → Course S} (hm : m.head = .asks q next) (a : q.Answer) :
    ∃ d, (next a).Under d := by
  induction m generalizing q with
  | ask q' next' _ =>
      cases hm
      obtain ⟨-, hgoes, hlook⟩ := h
      have hregion : ∀ (source : Effect S) restore old new,
          (Course.region source restore old new).Under new := by
        intro source restore old new
        cases restore <;> rfl
      by_cases hs : (Course.ask q' next').Switches ⟨q', a⟩
      · cases hs with
        | modify k d new =>
            obtain ⟨source, restore, old, rfl⟩ := hgoes
            exact ⟨new, hregion source restore old new⟩
        | restore k exit before d new =>
            obtain ⟨source, restore, old, rfl⟩ := hgoes
            exact ⟨new, hregion source restore old new⟩
        | atOnce front silent => cases front
      · exact ⟨c, hgoes.under hlook hs⟩
  | eval d e =>
      cases hm
      cases a with
      | true => exact ⟨d, trivial⟩
      | false => exact e.under_move_some d
  | seq m frame ih =>
      have hsource : m.Under c := h
      simp only [head] at hm
      cases hh : m.head with
      | asks q' next' =>
          simp only [hh] at hm
          cases hm
          exact ih hsource hh a
      | exited d o => simp [hh] at hm
      | aborted => simp [hh] at hm
      | goes m' => simp [hh] at hm
  | _ => cases hm

/-- An evaluation always stands under some connection. -/
theorem Proceeds.stands_under {m n : Course S} {xs : List (Exchange S)} (h : Proceeds m xs n)
    {c : Connection} (hm : m.Under c) : ∃ d, n.Under d := by
  induction h generalizing c with
  | refl m => exact ⟨c, hm⟩
  | goes hhead _ ih => exact ih (hm.goes hhead)
  | answered hhead _ ih =>
      obtain ⟨d, hd⟩ := hm.next hhead _
      exact ih hd

/-- With these answers, the evaluation of a run stands under this connection.  An abortion is
under the connection that was found canceled. -/
def Origin.On (r : Origin S) (xs : List (Exchange S)) (c : Connection) : Prop :=
  ∃ m, Proceeds r.course xs m ∧ m.Under c ∧
    (m.head = .aborted → xs.getLast? = some ⟨.canceled c, true⟩)

/-- Without a question, an evaluation is not aborted. -/
theorem Proceeds.aborted_of_aborted {m n : Course S} (h : Proceeds m [] n)
    (hn : n.head = .aborted) : m.head = .aborted := by
  generalize hxs : ([] : List (Exchange S)) = xs at h
  induction h with
  | refl m => exact hn
  | goes hhead _ ih => exact absurd (ih hn hxs) (Course.not_aborted_of_goes hhead)
  | answered hhead _ ih => cases hxs

/-- The evaluation of a run stands under one connection only. -/
theorem Origin.On.unique {r : Origin S} {xs : List (Exchange S)} {c d : Connection}
    (h : r.On xs c) (h' : r.On xs d) : c = d := by
  obtain ⟨m, hm, hc, hlast⟩ := h
  obtain ⟨n, hn, hd, hlast'⟩ := h'
  -- One of both evaluations has come from the other one without a question.
  have hsame : ∀ {k l : Course S} {e f : Connection}, Proceeds k [] l → k.Under e → l.Under f →
      l.head ≠ .aborted → e = f := fun hkl hk hl stays => (hkl.under hk).unique hl stays
  have hboth : m.head = .aborted ↔ n.head = .aborted := by
    rcases hm.diverge ((List.append_nil xs).symm ▸ hn) with hmn | ⟨-, hnm⟩
    · refine ⟨fun ha => ?_, hmn.aborted_of_aborted⟩
      obtain ⟨-, rfl⟩ := hmn.of_outcome (by rw [ha]; rfl)
      exact ha
    · refine ⟨hnm.aborted_of_aborted, fun ha => ?_⟩
      obtain ⟨-, rfl⟩ := hnm.of_outcome (by rw [ha]; rfl)
      exact ha
  by_cases ha : m.head = .aborted
  · have hlooks := (hlast ha).symm.trans (hlast' (hboth.mp ha))
    rw [Option.some.injEq] at hlooks
    cases hlooks
    rfl
  · rcases hm.diverge ((List.append_nil xs).symm ▸ hn) with hmn | ⟨-, hnm⟩
    · exact hsame hmn hc hd fun hn' => ha (hboth.mpr hn')
    · exact (hsame hnm hd hc ha).symm

/-- The last answer of an evaluation that is aborted was that a connection has been canceled. -/
theorem Proceeds.last_of_aborted {m n : Course S} {xs : List (Exchange S)} (h : Proceeds m xs n)
    {c : Connection} (hm : m.Under c) (stays : m.head ≠ .aborted) (hn : n.head = .aborted) :
    ∃ d, xs.getLast? = some ⟨.canceled d, true⟩ := by
  induction h generalizing c with
  | refl m => exact absurd hn stays
  | goes hhead _ ih => exact ih (hm.goes hhead) (Course.not_aborted_of_goes hhead) hn
  | @answered m n q next a ys hhead hrest ih =>
      by_cases ha : (next a).head = .aborted
      · obtain ⟨rfl, -⟩ := hrest.of_outcome (by rw [ha]; rfl)
        exact ⟨c, congrArg some (hm.aborted hhead ha)⟩
      · obtain ⟨d, hd⟩ := hm.next hhead a
        obtain ⟨d', hlast⟩ := ih hd ha hn
        exact ⟨d', by simp [List.getLast?_cons, hlast]⟩

/-- Up to the next switch, an evaluation that is aborted has found its connection canceled. -/
theorem ProceedsUnswitched.aborted {c : Connection} {m n : Course S} {ys : List (Exchange S)}
    (h : ProceedsUnswitched m ys n) (hm : m.Under c) (stays : m.head ≠ .aborted)
    (hn : n.head = .aborted) :
    ys.getLast? = some ⟨.canceled c, true⟩ := by
  induction h with
  | refl m => exact absurd hn stays
  | goes hhead _ ih => exact ih (hm.goes hhead) (Course.not_aborted_of_goes hhead) hn
  | @answered m n q next a ys hhead keeps hrest ih =>
      by_cases ha : (next a).head = .aborted
      · obtain ⟨rfl, -⟩ := hrest.proceeds.of_outcome (by rw [ha]; rfl)
        rw [hm.aborted hhead ha]
        rfl
      · have hlast := ih ((hm.answered hhead).2 a keeps) ha hn
        simp [List.getLast?_cons, hlast]

/-- Up to the next switch, the evaluation of a run stands under the same connection. -/
theorem Origin.On.unswitched {r : Origin S} {xs ys : List (Exchange S)} {m n : Course S}
    {c : Connection} (hm : Proceeds r.course xs m) (under : m.Under c)
    (stays : m.head ≠ .aborted) (h : ProceedsUnswitched m ys n) : r.On (xs ++ ys) c := by
  refine ⟨n, hm.trans h.proceeds, (h.under under).1, fun hn => ?_⟩
  rw [List.getLast?_append, h.aborted under stays hn]
  rfl

end Trampoline
