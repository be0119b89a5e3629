import Trampoline.Proofs.Partial.Tandem
import Trampoline.Proofs.Partial.Unfolding
import Trampoline.Proofs.Run.Regions

/-!
# Partial evaluation preserves meaning

An effect is evaluated in part, and what is left goes on with a chain of links in a run.  With
what the partial evaluation has done before and, if a boundary has been left, with what the run
inside of it does, that run does what a run of the effect with the same links does: it calls
for the same code of the host with the same arguments in the same order, and delivers the same
outcome, as long as the surroundings answer alike.  It does not matter what has been left.

Main definitions and results:

- Definition `Story.Recounts`: a story that is what an evaluation on open connections comes to.
- Definition `IsRegion`: regions of chosen connections.
- Theorem `Tandem.Stage.recounts`: both runs of a boundary as one.
- Definitions `Continues`, `Preserves`, theorem `Unfolds.preserves`: a partial evaluation makes
  no difference in a composition.
-/

namespace Trampoline

variable {S : Closures} {σ : Type}

/-! ## Stories that recount an evaluation -/

/-- What is known of a run on open connections is what an evaluation comes to, looks apart. -/
def Story.Recounts (st : Story S) (m : Course S) : Prop :=
  ∃ n, Unhindered m (spoken st.exchanges) n ∧
    (∀ q, st.pending = some q → (∀ c, q ≠ .canceled c) → ∃ next, n.head = .asks q next) ∧
    ∀ o ∈ st.outcomes, n.head.outcome? = some o

/-- The story of a run with what has been asked before it. -/
def Story.after (st : Story S) (earlier : List (Exchange S)) : Story S :=
  { st with exchanges := earlier ++ st.exchanges }

/-- Only the calls and the outcomes of runs matter for whether they make the same calls. -/
theorem SameCalls.congr {hop : S.Registration → Option Outcome}
    {like : Question S → Question S → Prop} {st st₁ st' st₁' : Story S}
    (h : SameCalls hop like st₁ st₁') (calls : st.calls hop = st₁.calls hop)
    (outcomes : st.outcomes = st₁.outcomes) (calls' : st'.calls hop = st₁'.calls hop)
    (outcomes' : st'.outcomes = st₁'.outcomes) : SameCalls hop like st st' where
  calls := by
    rw [calls, calls']
    exact h.calls
  first := by
    rw [calls, calls', outcomes]
    exact h.first
  second := by
    rw [calls, calls', outcomes']
    exact h.second
  both := by
    rw [calls, calls', outcomes, outcomes']
    exact h.both

/-- A run on open connections recounts its evaluation. -/
theorem Follows.recounts {P : Program S σ} {r : Origin S} {s : State S σ} {st : Story S}
    (h : Follows P r s st) (hopen : Open st.exchanges) : st.Recounts r.course := by
  obtain ⟨n, hn, rests⟩ := h.tracks.rests
  exact ⟨n, hn.unhindered hopen, fun q hq _ => rests.pending q hq, rests.outcome⟩

namespace Story.Recounts

variable {st st' : Story S} {m m' : Course S}

/-- What has been asked before is asked first. -/
theorem after (h : st.Recounts m') {earlier : List (Exchange S)}
    (hm : Unhindered m (spoken earlier) m') : (st.after earlier).Recounts m := by
  obtain ⟨n, hn, hpending, houtcome⟩ := h
  refine ⟨n, ?_, hpending, houtcome⟩
  rw [Story.after, spoken_append]
  exact hm.trans hn

/-- Nothing is known of what an evaluation does without a question. -/
theorem ahead (h : st.Recounts m) (hm : Unhindered m [] m') : st.Recounts m' := by
  obtain ⟨n, hn, hpending, houtcome⟩ := h
  have hmore : Unhindered m ([] ++ spoken st.exchanges) n := hn
  rcases hm.ahead hmore with hrest | ⟨hsilent, hrest⟩
  · exact ⟨n, hrest, hpending, houtcome⟩
  · -- Where the story asks or has an outcome, the evaluation is not behind.
    refine ⟨m', hsilent ▸ .refl m', fun q hq hlook => ?_, fun o ho => ?_⟩
    · obtain ⟨next, hnext⟩ := hpending q hq hlook
      rcases hrest.taken hnext hlook with ⟨-, rfl⟩ | ⟨a, ys, hcons, -⟩
      · exact ⟨next, hnext⟩
      · cases hcons
    · have hout := houtcome o ho
      obtain ⟨xs, hproceeds, -⟩ := hrest
      obtain ⟨-, rfl⟩ := hproceeds.of_outcome hout
      exact hout

/-- The story of an evaluation that has asked nothing but looks. -/
theorem of_silent (hsilent : spoken st.exchanges = []) (hpending : st.pending = none)
    (houtcomes : st.outcomes = []) (m : Course S) : st.Recounts m :=
  ⟨m, hsilent ▸ .refl m, by simp [hpending], by simp [houtcomes]⟩

/-- A run that recounts an evaluation that asks has no outcome before the answer. -/
theorem outcomes_eq_nil (h : st.Recounts m) (hsilent : spoken st.exchanges = [])
    {q : Question S} {next : q.Answer → Course S} (hm : m.head = .asks q next)
    (hlook : ∀ c, q ≠ .canceled c) : st.outcomes = [] := by
  obtain ⟨n, hn, -, houtcome⟩ := h
  rw [hsilent] at hn
  rcases hn.taken hm hlook with ⟨-, rfl⟩ | ⟨a, ys, hcons, -⟩
  · refine List.eq_nil_iff_forall_not_mem.mpr fun o ho => ?_
    have hout := houtcome o ho
    simp [hm] at hout
  · cases hcons

/-- What is known of a run can be told without the looks that it waits for. -/
theorem rests (h : st.Recounts m) : ∃ (st₁ : Story S) (n : Course S),
    Proceeds m st₁.exchanges n ∧ Rests st₁ n ∧ Open st₁.exchanges ∧
      spoken st₁.exchanges = spoken st.exchanges ∧ st.called = st₁.called ∧
      st.outcomes = st₁.outcomes := by
  obtain ⟨n, ⟨xs, hproceeds, hopen, hspoken⟩, hpending, houtcome⟩ := h
  have hcalled : calledIn st.exchanges = calledIn xs := by
    rw [← calledIn_spoken st.exchanges, ← hspoken, calledIn_spoken]
  refine ⟨{ st with
    exchanges := xs
    pending := st.pending.filter (Question.isCall fun _ => none) }, n, hproceeds,
    ⟨fun q hq => ?_, houtcome⟩, hopen, hspoken, ?_, rfl⟩
  · obtain ⟨hq', hcall⟩ := Option.filter_eq_some_iff.mp hq
    refine hpending q hq' ?_
    rintro c rfl
    cases hcall
  · unfold calledIn at hcalled
    simp only [Story.called, Story.calls, hcalled]
    cases hq : st.pending with
    | none => rfl
    | some q =>
        cases hcall : q.isCall (fun _ => none) <;> simp [Option.filter, hcall]

/-- Runs that recount one evaluation, with the same answers, make the same calls. -/
theorem sameCalls (h : st.Recounts m) (h' : st'.Recounts m)
    (alike : SameAnswers (spoken st.exchanges) (spoken st'.exchanges)) :
    SameCalls (fun _ => none) Eq st st' := by
  obtain ⟨st₁, n, hproceeds, rests, hopen, hspoken, hcalled, houtcomes⟩ := h.rests
  obtain ⟨st₁', n', hproceeds', rests', hopen', hspoken', hcalled', houtcomes'⟩ := h'.rests
  rw [← hspoken, ← hspoken'] at alike
  exact (Rests.sameCalls hproceeds hproceeds' (.of_spoken hopen hopen' alike) rests rests').congr
    hcalled houtcomes hcalled' houtcomes'

end Story.Recounts

/-! ## Regions -/

/-- The regions that a switch with a restorer makes, and those of the uncancelable connection. -/
def IsRegion (m : Modifier S) (r : Restorer S) : Prop :=
  (m = .uncancelable ∧ r = .old) ∨ ∃ k k', m = .user k ∧ r = .user k'

/-- All restorers that are asked give the connection from before their region back. -/
def GivesBack (xs : List (Exchange S)) : Prop :=
  ∀ k exit old c r, (⟨.restore k exit old c, r⟩ : Exchange S) ∈ xs → r = .ok old

/-- Surroundings in which no connection is canceled and restorers give the connection back. -/
def Surroundings.undisturbed (P : Program S σ) : Surroundings S where
  answers q a := q.Yields P a ∧ Open [⟨q, a⟩] ∧ GivesBack [⟨q, a⟩]
  active _ := True
  region := IsRegion
  looks c _ h := h.2.1 c List.mem_cons_self
  begins := by
    rintro m r (⟨rfl, -⟩ | ⟨k, -, rfl, -⟩)
    · exact .inl ⟨rfl, trivial⟩
    · exact .inr ⟨k, rfl, fun _ _ _ => trivial⟩
  ends := by
    rintro m r (⟨-, rfl⟩ | ⟨-, k, -, rfl⟩)
    · exact .inl rfl
    · exact .inr ⟨k, rfl, fun exit old c a h => h.2.2 k exit old c a List.mem_cons_self⟩

/-- An evaluation on open connections settles as before. -/
theorem Unhindered.settles {P : Program S σ} {X : Effect S → Prop} {c : Connection}
    {m n : Course S} {zs : List (Exchange S)} (h : Unhindered m zs n)
    (hX : ∀ e, X e → e.Regional (Surroundings.undisturbed P).answers IsRegion X)
    (hm : m.Settles (Surroundings.undisturbed P) X c)
    (yields : ∀ x ∈ zs, x.question.Yields P x.answer) (restores : GivesBack zs) :
    n.Settles (Surroundings.undisturbed P) X c := by
  obtain ⟨xs, hproceeds, hopen, rfl⟩ := h
  refine hproceeds.settles hX hm fun x hx => ?_
  have hopened : Open [x] := fun d hd => hopen d (List.mem_singleton.mp hd ▸ hx)
  cases hlook : x.isLook with
  | false =>
      have hmem : x ∈ spoken xs := by simp [spoken, hx, hlook]
      refine ⟨yields x hmem, hopened, fun k exit old d r hr => ?_⟩
      exact restores k exit old d r (List.mem_singleton.mp hr ▸ hmem)
  | true =>
      obtain ⟨q, a⟩ := x
      cases q with
      | canceled d => exact ⟨trivial, hopened, fun k exit old d' r hr => by simp at hr⟩
      | _ => cases hlook

/-- An evaluation that has exited is an exit. -/
theorem Course.eq_exit_of_head {m : Course S} {c : Connection} {o : Outcome}
    (h : m.head = .exited c o) : m = .exit c o := by
  cases m with
  | exit c' o' =>
      cases h
      rfl
  | seq m frame =>
      simp only [head] at h
      cases hm : m.head <;> simp [hm] at h
  | _ => cases h

/-- An evaluation that settles exits under its connection. -/
theorem Course.Settles.eq_exit {G : Surroundings S} {X : Effect S → Prop} {m : Course S}
    {c : Connection} (h : m.Settles G X c) {o : Outcome} (hm : m.head.outcome? = some o) :
    m = .exit c o := by
  cases hhead : m.head with
  | exited c' o' =>
      obtain ⟨rfl, -⟩ := h.exited hhead
      simp only [hhead, Head.outcome?_exited, Option.some.injEq] at hm
      exact hm ▸ eq_exit_of_head hhead
  | aborted => exact absurd hhead h.not_aborted
  | asks q next => simp [hhead] at hm
  | goes n => simp [hhead] at hm

/-! ## A boundary as one run -/

/-- What the run inside of a boundary has asked, with the answers. -/
def Tandem.inside (t : Tandem S) : List (Exchange S) :=
  match t.inner with
  | some (_, st) => st.exchanges
  | none => []

/-- One of both runs comes to the ending of its evaluation in a few steps. -/
def Tandem.Goes (P : Program S σ) (r : Origin S) (s : State S σ) (t : Tandem S) : Prop :=
  (∃ n ≤ 3, Advances P r n s t.outer) ∨
    ∃ r' st, t.inner = some (r', st) ∧ ∃ n ≤ 3, Advances P r' n s st

/-- No look of both runs finds its connection canceled if none of the joined story does. -/
theorem Open.of_joined {t : Tandem S} (h : Open t.joined.exchanges) :
    Open t.outer.exchanges ∧ ∀ r st, t.inner = some (r, st) → Open st.exchanges := by
  obtain ⟨outer, inner⟩ := t
  cases inner with
  | none => exact ⟨h, fun r st hst => by cases hst⟩
  | some p =>
      obtain ⟨r, st⟩ := p
      have hsplit : Open (outer.exchanges.takeWhile Exchange.isLook ++ st.exchanges ++
        (outer.exchanges.dropWhile Exchange.isLook).tail) := h
      obtain ⟨⟨hbefore, hinner⟩, hafter⟩ := And.imp_left Open.of_append hsplit.of_append
      refine ⟨?_, fun r' st' hst => by cases hst; exact hinner⟩
      rw [← List.takeWhile_append_dropWhile (p := Exchange.isLook) (l := outer.exchanges)]
      refine hbefore.append ?_
      cases hdrop : outer.exchanges.dropWhile Exchange.isLook with
      | nil => exact .nil
      | cons x xs =>
          rw [hdrop] at hafter
          have hnot := List.head?_dropWhile_not Exchange.isLook outer.exchanges
          rw [hdrop] at hnot
          have hx : x.isLook = false := by simpa using hnot
          exact (Open.of_not_look hx).append hafter

namespace Tandem.Stage

variable {P : Program S σ} {r : Origin S} {node : Effect S} {stack : CallStack (Frame S)}
  {c : Connection} {s : State S σ} {t : Tandem S} {frames : List (Frame S)}

/-- Both runs as one recount the evaluation of what is inside of the boundary, with the frames
that wait for the boundary. -/
theorem recounts (h : t.Stage P r node stack c s) (meets : Unhindered r.course []
      ((Course.ask (.parked node stack c) (Course.completion c)).within frames))
    (hopen : Open t.joined.exchanges)
    (exits : ∀ r' inner n o, t.inner = some (r', inner) →
      Unhindered ((Course.eval c node).within stack.toList) (spoken inner.exchanges) n →
      n.head.outcome? = some o → n = .exit c o) :
    t.joined.Recounts (((Course.eval c node).within stack.toList).within frames) := by
  obtain ⟨hopened, hinner⟩ := hopen.of_joined
  have hhead := Course.head_within_asks
    (m := Course.ask (.parked node stack c) (Course.completion c)) rfl frames
  cases h with
  | before follows pending silent =>
      refine .of_silent silent pending ?_ _
      exact ((follows.recounts hopened).ahead meets).outcomes_eq_nil silent hhead (by simp)
  | @inside st inner r' cb follows started course terminal last pending lost silent outcomes =>
      obtain ⟨hbefore, hafter⟩ := spoken_split st.exchanges
      have hout : st.outcomes = [] :=
        ((follows.recounts hopened).ahead meets).outcomes_eq_nil silent hhead (by simp)
      obtain ⟨n, hn, hpending, -⟩ := started.recounts (hinner r' inner rfl)
      rw [course] at hn
      refine ⟨n.within frames, ?_, fun q hq hlook => ?_, ?_⟩
      · simpa [Tandem.joined, Story.around, hbefore, hafter, silent] using hn.within frames
      · have hq' : inner.pending = some q := by
          simpa [Tandem.joined, Story.around, outcomes] using hq
        obtain ⟨next, hnext⟩ := hpending q hq' hlook
        exact ⟨_, Course.head_within_asks hnext frames⟩
      · simp [Tandem.joined, Story.around, hout]
  | @after st inner r' o ys follows started course outcomes answered =>
      obtain ⟨hbefore, hafter⟩ := spoken_split st.exchanges
      obtain ⟨n, hn, -, houtcome⟩ := started.recounts (hinner r' inner rfl)
      rw [course] at hn
      obtain rfl := exits r' inner n o rfl hn (houtcome o (by simp [outcomes]))
      -- The run outside goes on in front of the outcome of the run inside.
      have hrest : ({ st with exchanges := (st.exchanges.dropWhile Exchange.isLook).tail } :
          Story S).Recounts ((Course.completion c o).within frames) := by
        obtain ⟨k, hk, hpending, hout⟩ := (follows.recounts hopened).ahead meets
        rw [answered] at hk
        rcases hk.taken hhead (by simp) with ⟨hnil, -⟩ | ⟨a, zs, hcons, hk⟩
        · cases hnil
        · cases hcons
          refine ⟨k, ?_, hpending, hout⟩
          rw [hafter, answered]
          exact hk
      obtain ⟨k, hk, hpending, hout⟩ := hrest.ahead ((Unhindered.outcome c o).within frames)
      refine ⟨k, ?_, fun q hq hlook => ?_, hout⟩
      · rw [hafter] at hk
        simpa [Tandem.joined, Story.around, hbefore, hafter] using (hn.within frames).trans hk
      · exact hpending q (by simpa [Tandem.joined, Story.around, outcomes] using hq) hlook

/-- All answers to the run inside come from the code of its questions. -/
theorem yields (h : t.Stage P r node stack c s) :
    ∀ x ∈ t.inside, x.question.Yields P x.answer := by
  cases h with
  | before follows pending silent => simp [Tandem.inside]
  | inside follows started course terminal last pending lost silent outcomes =>
      exact started.yields
  | after follows started course outcomes answered => exact started.yields

/-- While both runs as one wait for no answer, the run inside goes on, or the run outside if
that has its outcome. -/
theorem goes (h : t.Stage P r node stack c s) (hnone : t.joined.pending = none)
    (hout : t.joined.outcomes = []) : t.Goes P r s := by
  cases h with
  | before follows pending silent => exact .inl (follows.tracks.goes hnone hout)
  | inside follows started course terminal last pending lost silent outcomes =>
      have hinner := started.tracks.goes
        (by simpa [Tandem.joined, Story.around, outcomes] using hnone) outcomes
      exact .inr ⟨_, _, rfl, hinner⟩
  | after follows started course outcomes answered =>
      refine .inl (follows.tracks.goes ?_ hout)
      simpa [Tandem.joined, Story.around, outcomes] using hnone

end Tandem.Stage

/-! ## A partial evaluation in a composition -/

/-- A run of an effect on a connection, with nothing pending. -/
structure Origin.Fresh (r : Origin S) (e : Effect S) (c : Connection) : Prop where
  effect : r.effect = e
  connection : r.connection = c
  stack : r.stack.toList = []

theorem Origin.Fresh.course_eq {r : Origin S} {e : Effect S} {c : Connection} (h : r.Fresh e c) :
    r.course = .eval c e := by
  rw [Origin.course, h.effect, h.connection, h.stack, Course.within_nil]

/-- A run that begins with what a partial evaluation has left: where that is a boundary with
frames pending, the run inside of it belongs to it. -/
inductive Continues (P : Program S σ) (r : Origin S) : Residue S → State S σ → Tandem S → Prop
  | outcome {s : State S σ} {st : Story S} (o : Outcome) (h : Follows P r s st) :
      Continues P r (.outcome o) s ⟨st, none⟩
  | boundary {s : State S σ} {st : Story S} (node : Effect S) (h : Follows P r s st) :
      Continues P r (.boundary node) s ⟨st, none⟩
  | pending {s : State S σ} {t : Tandem S} (node : Effect S) (stack : CallStack (Frame S))
      (h : FollowsWithInner P r s t) : Continues P r (.pending node stack) s t

/-- A run with a partial evaluation before it and a run without do the same. -/
structure Preserves (P : Program S σ) {σ' : Type} (P' : Program S σ') (r r' : Origin S)
    (earlier : List (Exchange S)) (s : State S σ) (t : Tandem S) (s' : State S σ')
    (st' : Story S) : Prop extends
    SameCalls (fun _ => none) Eq (t.joined.after earlier) st' where
  /-- While the one waits for no answer it goes on, until it has its outcome. -/
  goes : t.joined.pending = none → t.joined.outcomes = [] → t.Goes P r s
  /-- So does the other. -/
  goes' : st'.pending = none → st'.outcomes = [] → ∃ n ≤ 3, Advances P' r' n s' st'

/-- A run of what is left is one of the evaluation that is left, with the links as frames. -/
theorem Continues.recounts {P : Program S σ} {r : Origin S} {left : Residue S} {s : State S σ}
    {t : Tandem S} {links : List (Link S)} {c : Connection} (h : Continues P r left s t)
    (hr : r.Fresh (left.effect.chain links) c) (hopen : Open t.joined.exchanges)
    (exits : ∀ zs n o, zs = spoken t.inside → (∀ x ∈ zs, x.question.Yields P x.answer) →
      Unhindered (left.course c) zs n → n.head.outcome? = some o → n = .exit c o) :
    t.joined.Recounts ((left.course c).within (links.map Link.frame)) ∧
      (t.joined.pending = none → t.joined.outcomes = [] → t.Goes P r s) := by
  have hchain : Unhindered r.course [] ((Course.eval c left.effect).within
      (links.map Link.frame)) := hr.course_eq ▸ Unhindered.chain c left.effect links
  cases h with
  | outcome o h =>
      refine ⟨(h.recounts hopen).ahead (hchain.onward ?_), fun hnone hout =>
        .inl (h.tracks.goes hnone hout)⟩
      exact (Unhindered.outcome c o).within _
  | boundary node h =>
      exact ⟨(h.recounts hopen).ahead hchain, fun hnone hout => .inl (h.tracks.goes hnone hout)⟩
  | pending node stack h =>
      have hmeets := hchain.onward ((Unhindered.look c (.parked node stack)).within _)
      have hstage := h.stage hmeets hopen.of_joined.1
      refine ⟨hstage.recounts hmeets hopen fun r' inner n o hinner hn ho => ?_, hstage.goes⟩
      have hinside : t.inside = inner.exchanges := by simp [Tandem.inside, hinner]
      refine exits _ n o (by rw [hinside]) (fun x hx => ?_) hn ho
      exact hstage.yields x (hinside ▸ (List.mem_filter.mp hx).1)

/-- A partial evaluation makes no difference in a composition: what it has done, and what a run
of the rest with some links does, is what a run of the effect with these links does. -/
theorem Unfolds.preserves {σ' : Type} {P : Program S σ} {P' : Program S σ'} {p : Opening S σ}
    {s₀ s : State S σ} {s' : State S σ'} {u : Prelude S} {left : Residue S} {t : Tandem S}
    {st' : Story S} {r r' : Origin S} {links : List (Link S)} {c : Connection}
    (hu : Unfolds P p s₀ u) (hleft : u.residue = some (.ok left)) (h : Continues P r left s t)
    (hr : r.Fresh (left.effect.chain links) c) (h' : Follows P' r' s' st')
    (hr' : r'.Fresh (p.effect.chain links) c) (regions : p.effect.SwitchesOnly P IsRegion)
    (restores : GivesBack (u.story.exchanges ++ t.inside)) (hopen : Open t.joined.exchanges)
    (hopen' : Open st'.exchanges)
    (alike : SameAnswers (spoken (t.joined.after u.story.exchanges).exchanges)
      (spoken st'.exchanges)) :
    Preserves P P' r r' u.story.exchanges s t s' st' := by
  obtain ⟨X, he, hX⟩ := regions
  have hregional : ∀ e, X e → e.Regional (Surroundings.undisturbed P).answers IsRegion X :=
    fun e hxe => (hX e hxe).mono fun q a hqa => hqa.1
  obtain ⟨story, residue⟩ := u
  cases hleft
  cases hu.partialProgress c with
  | ended _ comes =>
      have hspoken : ∀ {xs : List (Exchange S)} {x : Exchange S}, x ∈ spoken xs → x ∈ xs :=
        fun hx => (List.mem_filter.mp hx).1
      have hsettles : (left.course c).Settles (Surroundings.undisturbed P) X c := by
        refine comes.settles hregional ⟨trivial, .plain (hregional _ he)⟩
          (fun x hx => hu.yields x (hspoken hx)) fun k exit old d a ha => ?_
        exact restores k exit old d a (List.mem_append_left _ (hspoken ha))
      obtain ⟨hrecounts, hgoes⟩ := h.recounts hr hopen fun zs n o hzs hyields hn ho => by
        subst hzs
        refine (hn.settles hregional hsettles hyields fun k exit old d a ha => ?_).eq_exit ho
        exact restores k exit old d a (List.mem_append_right _ (hspoken ha))
      have hdirect := h'.recounts hopen'
      rw [hr'.course_eq] at hdirect
      have hprelude := (Unhindered.chain c p.effect links).trans (comes.within _)
      exact ⟨(hrecounts.after hprelude).sameCalls hdirect alike, hgoes, h'.tracks.goes⟩

namespace Errand

/-- A partial evaluation of an effect on behalf of code that does nothing with what is left. -/
def opening (e : Effect closures) : Opening closures Unit where
  effect := e
  resume
    | .ok _ => .code (.done ())
    | .error payload => .code (.panic payload)
  depth := 0

/-- So many steps of a partial evaluation on the small host. -/
def unfold (e : Effect closures) (n : Nat) : State closures Unit × Prelude closures :=
  Prelude.chronicle program 0 1 n
    (.running (.initial () "main") (opening e).activation [], .beginning)

theorem unfolds_unfold (e : Effect closures) (n : Nat) :
    Unfolds program (opening e) (unfold e n).1 (unfold e n).2 := by
  have hreachable := (State.Reachable.start (P := program) () "main"
    (.step e fun _ => .done ())).next
  have hopening : State.next program (.start (.initial () "main") (.step e fun _ => .done ())) =
      .running (.initial () "main") (opening e).activation [] := by
    simp only [State.next, State.start, State.work, State.advance, Opening.activation, opening]
    congr
    funext r
    cases r <;> rfl
  rw [hopening] at hreachable
  exact Unfolds.chronicle (.start hreachable rfl) n

/-- So many steps of a run on the small host, with the run inside of its boundary. -/
def together (e : Effect closures) (n : Nat) : State closures Unit × Tandem closures :=
  Tandem.chronicle program 1 n
    (.running (.initial () "main") (origin e).activation [.code (.done ())], .beginning)

theorem followsWithInner_together (e : Effect closures) (n : Nat)
    (alone : ∀ k < n, (together e k).2.completesAlone (together e k).1 = true) :
    FollowsWithInner program (origin e) (together e n).1 (together e n).2 :=
  FollowsWithInner.chronicle (.start (.next (.start () "main"
    (.perform (.run e .uncancelable (.user ()))))) rfl) n alone

/-- An effect that goes on with an errand after one in a region. -/
def region : Effect closures :=
  .bind (.uncancelable (.async answer)) (.bind (.user answer))

/-- The region and the frame that waits for it. -/
def regionLeft : Residue closures :=
  .pending (.uncancelable (.async answer)) (CallStack.empty.push (.bind (.user answer)))

/-- The links of a chain. -/
def links : List (Link closures) :=
  [.flatMap answer, .attempt]

/-- What follows an errand is an errand. -/
theorem switchesOnly_bind (source : Effect closures)
    (h : ∀ X, source.Regional (Question.Yields program) IsRegion X) (k : Errand) :
    (Effect.bind source (.bind (.user k))).SwitchesOnly program IsRegion := by
  refine ⟨fun e => e = .bind source (.bind (.user k)) ∨ ∃ k, e = .async k, .inl rfl, ?_⟩
  rintro e (rfl | ⟨k', rfl⟩)
  · refine ⟨h _, fun v e he => .inr ⟨k, ?_⟩⟩
    cases he
    rfl
  · trivial

theorem switchesOnly_region : region.SwitchesOnly program IsRegion :=
  switchesOnly_bind (.uncancelable (.async answer))
    (fun _ => ⟨trivial, .old, rfl, .inl ⟨rfl, rfl⟩⟩) answer

/-- With a partial evaluation before it and without, the effect does the same errands in a
chain. -/
theorem preserves_region :
    (together (regionLeft.effect.chain links) 32).2.joined.outcomes = [.ok .null] ∧
      (play (region.chain links) 32).2.outcomes = [.ok .null] ∧
      Preserves program program (origin (regionLeft.effect.chain links))
        (origin (region.chain links)) []
        (together (regionLeft.effect.chain links) 32).1
        (together (regionLeft.effect.chain links) 32).2
        (play (region.chain links) 32).1 (play (region.chain links) 32).2 := by
  have halone : ∀ k < 32, (together (regionLeft.effect.chain links) k).2.completesAlone
      (together (regionLeft.effect.chain links) k).1 = true := by decide +kernel
  have hspoken : spoken ((together (regionLeft.effect.chain links) 32).2.joined.after
      (unfold region 3).2.story.exchanges).exchanges =
      [⟨.async answer .uncancelable, .ok .null⟩, ⟨.bind answer .null, .ok (.async answer)⟩,
        ⟨.async answer .uncancelable, .ok .null⟩, ⟨.bind answer .null, .ok (.async answer)⟩,
        ⟨.async answer .uncancelable, .ok .null⟩] := rfl
  have hspoken' : spoken (play (region.chain links) 32).2.exchanges =
      [⟨.async answer .uncancelable, .ok .null⟩, ⟨.bind answer .null, .ok (.async answer)⟩,
        ⟨.async answer .uncancelable, .ok .null⟩, ⟨.bind answer .null, .ok (.async answer)⟩,
        ⟨.async answer .uncancelable, .ok .null⟩] := rfl
  refine ⟨rfl, rfl, Unfolds.preserves (unfolds_unfold region 3) rfl
    (.pending _ _ (followsWithInner_together _ 32 halone)) ⟨rfl, rfl, rfl⟩ (follows_play _ 32)
    ⟨rfl, rfl, rfl⟩ switchesOnly_region (fun k => nomatch k) (by decide +kernel)
    (by decide +kernel) ?_⟩
  rw [hspoken, hspoken']
  exact .of_isPrefix List.prefix_rfl

/-- Two errands, one after the other. -/
def errands : Effect closures :=
  .bind (.async answer) (.bind (.user answer))

/-- The first errand and the frame that waits for it. -/
def errandsLeft : Residue closures :=
  .pending (.async answer) (CallStack.empty.push (.bind (.user answer)))

/-- The context of a thread that cannot have its name. -/
def nameless : Context closures.Executor :=
  .newThread "\x00" true

/-- A value that moves to that context, and an errand. -/
def shifted : Effect closures :=
  .bind (.continueOn nameless (.pure .null)) (.bind (.user answer))

/-- The move and the frame that waits for it. -/
def shiftedLeft : Residue closures :=
  .pending (.deferred nameless (.succeed .null))
    ((CallStack.empty.push (.bind (.user answer))).push (.bind (.shift nameless))).popNext.2

/-- Two differences show.  The run inside of a boundary has its own epochs, so the text of a
callback that is handed out later is another one.  And a panic of the submission to a context,
which the run without a boundary does not see, leaves the run inside and is the outcome of the
boundary. -/
theorem boundary_shows :
    (errands.SwitchesOnly program IsRegion ∧ ∃ s₀ u s t s' st',
      Unfolds program (opening errands) s₀ u ∧ u.residue = some (.ok errandsLeft) ∧
      Continues program (origin (errandsLeft.effect.chain [.flatMap describe])) errandsLeft s t ∧
      Follows program (origin (errands.chain [.flatMap describe])) s' st' ∧
      Open t.joined.exchanges ∧ Open st'.exchanges ∧
      t.joined.outcomes = [.ok (.text (Callback.describe ⟨0, 2⟩))] ∧
      st'.outcomes = [.ok (.text (Callback.describe ⟨0, 3⟩))] ∧
      Callback.describe ⟨0, 2⟩ ≠ Callback.describe ⟨0, 3⟩) ∧
    (shifted.SwitchesOnly program IsRegion ∧ ∃ s₀ u s st w payload st' v,
      Unfolds program (opening shifted) s₀ u ∧ u.residue = some (.ok shiftedLeft) ∧
      Follows program (origin (shiftedLeft.effect.chain [.attempt])) s st ∧
      Follows program (origin (shifted.chain [.attempt])) (.unwound w payload) st' ∧
      Open st.exchanges ∧ Open st'.exchanges ∧ w.classifier payload = true ∧
      st.outcomes = [.ok v] ∧ st'.outcomes = []) := by
  have halone : ∀ k < 20,
      (together (errandsLeft.effect.chain [.flatMap describe]) k).2.completesAlone
        (together (errandsLeft.effect.chain [.flatMap describe]) k).1 = true := by decide +kernel
  have hunwound : ∃ w payload, (play (shifted.chain [.attempt]) 10).1 = .unwound w payload ∧
      w.classifier payload = true := ⟨_, _, rfl, rfl⟩
  obtain ⟨w, payload, hs, hclassifier⟩ := hunwound
  have hfollows := follows_play (shifted.chain [.attempt]) 10
  rw [hs] at hfollows
  refine ⟨⟨switchesOnly_bind (.async answer) (fun _ => trivial) answer, _, _, _, _, _, _,
      unfolds_unfold errands 3, rfl, .pending _ _ (followsWithInner_together _ 20 halone),
      follows_play _ 20, by decide +kernel, by decide +kernel, rfl, rfl, by decide⟩,
    switchesOnly_bind (.continueOn nameless (.pure .null)) (fun _ => trivial) answer, _, _, _, _,
      w, payload, _, _, unfolds_unfold shifted 8, rfl, follows_play _ 9, hfollows,
      by decide +kernel, by decide +kernel, hclassifier, rfl, rfl⟩

end Errand

end Trampoline
