import Trampoline.Proofs.Threads.Places
import Trampoline.Proofs.Run.Attachment

/-!
# The threads of a run

A run is entered by the code that starts it, and then by each completion that takes it up again.
From one suspension to the next, all that it does, and all code that it calls, is done where it has
been entered: in one place on the control stack, and so on one thread.

Main definitions and results:

- Definitions `FollowsOnThreads`, `LeadsOnThreads`: a run with the threads on which it has been
  entered.
- Theorem `Tracks.place_unique`: a run is in one place only.
- Definition `Posted`, theorem `Posted.next`: that place has the thread of the last entry.
- Theorem `FollowsOnThreads.thread`: whenever the run takes a turn, the machine is on that thread.
- Definition `segment`, theorem `LeadsOnThreads.thread`: the thread of each turn that a run has
  taken.
-/

namespace Trampoline

variable {S : Closures} {σ : Type}

/-- A run that is followed from its start, with the threads on which it has been entered: that of
the code that has started it, and those of the completions that have taken it up again. -/
inductive FollowsOnThreads (P : Program S σ) (r : Origin S) :
    State S σ → Story S → List String → Prop
  | start {w : World S σ} {rest : List (Activation S σ)}
      (h : State.Reachable P (.running w r.activation rest)) (depth : rest.length = r.depth) :
      FollowsOnThreads P r (.running w r.activation rest) .beginning [w.thread]
  | next {s : State S σ} {st : Story S} {ts : List String} (h : FollowsOnThreads P r s st ts) :
      FollowsOnThreads P r (s.next P) (st.next r.depth s) (ts ++ List.replicate
        ((st.next r.depth s).resumptions.length - st.resumptions.length) s.world.thread)
  | again {s : State S σ} {st : Story S} {ts : List String} (h : FollowsOnThreads P r s st ts)
      (hs : s.activations = []) (code : Code S σ Unit) :
      FollowsOnThreads P r (.start s.world code) st ts

/-- So many steps of the machine, with what they add to the story of a run and to its entries. -/
def itinerary (P : Program S σ) (depth : Nat) :
    Nat → State S σ × Story S × List String → State S σ × Story S × List String
  | 0, p => p
  | n + 1, (s, st, ts) => itinerary P depth n (s.next P, st.next depth s, ts ++ List.replicate
      ((st.next depth s).resumptions.length - st.resumptions.length) s.world.thread)

namespace FollowsOnThreads

variable {P : Program S σ} {r : Origin S} {s : State S σ} {st : Story S} {ts : List String}

/-- The threads of some more steps are followed. -/
theorem itinerary (h : FollowsOnThreads P r s st ts) (n : Nat) :
    let p := Trampoline.itinerary P r.depth n (s, st, ts)
    FollowsOnThreads P r p.1 p.2.1 p.2.2 := by
  induction n generalizing s st ts with
  | zero => exact h
  | succ n ih => exact ih h.next

/-- A run that is followed on its threads is followed. -/
theorem follows (h : FollowsOnThreads P r s st ts) : Follows P r s st := by
  induction h with
  | start h depth => exact .start h depth
  | next h ih => exact ih.next
  | again h hs code ih => exact ih.again hs code

/-- Every run that is followed has been entered on some threads. -/
theorem of_follows (h : Follows P r s st) : ∃ ts, FollowsOnThreads P r s st ts := by
  induction h with
  | start h depth => exact ⟨_, .start h depth⟩
  | next h ih =>
      obtain ⟨ts, hts⟩ := ih
      exact ⟨_, hts.next⟩
  | again h hs code ih =>
      obtain ⟨ts, hts⟩ := ih
      exact ⟨ts, hts.again hs code⟩

end FollowsOnThreads

/-- What happens to a run that has been entered on some threads, and on which threads it is entered
on the way. -/
inductive LeadsOnThreads (P : Program S σ) (r : Origin S) (s : State S σ) (st : Story S)
    (ts : List String) : State S σ → Story S → List String → Prop
  | now : LeadsOnThreads P r s st ts s st ts
  | next {s' : State S σ} {st' : Story S} {ts' : List String}
      (h : LeadsOnThreads P r s st ts s' st' ts') :
      LeadsOnThreads P r s st ts (s'.next P) (st'.next r.depth s') (ts' ++ List.replicate
        ((st'.next r.depth s').resumptions.length - st'.resumptions.length) s'.world.thread)
  | again {s' : State S σ} {st' : Story S} {ts' : List String}
      (h : LeadsOnThreads P r s st ts s' st' ts') (hs : s'.activations = [])
      (code : Code S σ Unit) :
      LeadsOnThreads P r s st ts (.start s'.world code) st' ts'

namespace LeadsOnThreads

variable {P : Program S σ} {r : Origin S} {s s' : State S σ} {st st' : Story S}
  {ts ts' : List String}

/-- What comes later on threads comes later. -/
theorem leads (h : LeadsOnThreads P r s st ts s' st' ts') : Leads P r s st s' st' := by
  induction h with
  | now => exact .now
  | next h ih => exact ih.next
  | again h hs code ih => exact ih.again hs code

/-- No entry is forgotten. -/
theorem prefix_entries (h : LeadsOnThreads P r s st ts s' st' ts') : ts <+: ts' := by
  induction h with
  | now => exact List.prefix_rfl
  | next h ih => exact ih.trans (List.prefix_append _ _)
  | again h hs code ih => exact ih

/-- What the run has been answered since was answered in a step. -/
theorem noted (h : LeadsOnThreads P r s st ts s' st' ts') (hf : Follows P r s st)
    {xs ys : List (Exchange S)}
    {x : Exchange S} (hst : st.exchanges <+: xs) (hex : st'.exchanges = xs ++ x :: ys) :
    ∃ s₁ st₁ ts₁, LeadsOnThreads P r s st ts s₁ st₁ ts₁ ∧ st₁.exchanges = xs ∧
      (st₁.next r.depth s₁).exchanges = xs ++ [x] ∧
      LeadsOnThreads P r (s₁.next P) (st₁.next r.depth s₁) (ts₁ ++ List.replicate
        ((st₁.next r.depth s₁).resumptions.length - st₁.resumptions.length) s₁.world.thread)
        s' st' ts' := by
  induction h generalizing ys with
  | now =>
      rw [hex] at hst
      have hlength := hst.length_le
      rw [List.length_append, List.length_cons] at hlength
      omega
  | again h hs code ih =>
      obtain ⟨s₁, st₁, ts₁, hto, hxs, hx, hfrom⟩ := ih hex
      exact ⟨s₁, st₁, ts₁, hto, hxs, hx, hfrom.again hs code⟩
  | @next s' st' ts' h ih =>
      rcases (h.leads.follows hf).tracks.gains with hsame | ⟨y, hadds, -⟩
      · obtain ⟨s₁, st₁, ts₁, hto, hxs, hx, hfrom⟩ := ih (hsame.symm.trans hex)
        exact ⟨s₁, st₁, ts₁, hto, hxs, hx, hfrom.next⟩
      · rw [hadds] at hex
        rcases split_concat hex with ⟨hxs, rfl⟩ | ⟨ys', hys⟩
        · exact ⟨s', st', ts', h, hxs, by rw [hadds, hxs], .now⟩
        · obtain ⟨s₁, st₁, ts₁, hto, hxs, hx, hfrom⟩ := ih hys
          exact ⟨s₁, st₁, ts₁, hto, hxs, hx, hfrom.next⟩

end LeadsOnThreads

/-! ## The place of a run -/

/-- A run that has not come to its end is in one place at most. -/
theorem Tracks.place_unique {P : Program S σ} {r : Origin S} {s : State S σ} {st : Story S}
    (h : Tracks P r s st) (hout : st.outcomes = []) (hlost : st.lost = false)
    {above above' below below' : List (Activation S σ)} {act act' : Activation S σ}
    (place : s.activations = above ++ act :: below) (hact : act.WorksFor r st below)
    (place' : s.activations = above' ++ act' :: below') (hact' : act'.WorksFor r st below') :
    above' = above ∧ act' = act ∧ below' = below := by
  cases h with
  | @turn w act₀ below₀ _ run m stands proceeds home live resumed =>
      have place₀ : (State.running w act₀ below₀).activations = [] ++ act₀ :: below₀ := rfl
      obtain ⟨rfl, rfl, rfl⟩ := home.place_unique place₀ (by simp) place hact
      exact home.place_unique place₀ (by simp) place' hact'
  | calling place₀ serves waits idle proceeds home live resumed =>
      obtain ⟨rfl, rfl, rfl⟩ := home.place_unique place₀ idle place hact
      exact home.place_unique place₀ idle place' hact'
  | @suspended _ _ i _ _ _ _ _ idle holds bridge parks completes proceeds live resumed suspends =>
      exact absurd (idle act (by simp [place])) (hact.not_idle bridge)
  | delivered outcomes ending evaluates pending lost still numbered resumed =>
      rw [hout] at outcomes
      cases outcomes
  | lost outcomes lost pending evaluates still numbered resumed =>
      rw [hlost] at lost
      cases lost

/-! ## The thread of that place -/

/-- A turn of the run does not take it up again. -/
theorem Story.turn_resumptions (st : Story S) (w : World S σ) (act : Activation S σ) :
    (st.turn w act).resumptions = st.resumptions := by
  refine turn_preserves (φ := fun st' => st'.resumptions = st.resumptions) rfl (fun _ _ _ h => h)
    (fun _ _ h => h) (fun st' reply h => ?_) (fun _ _ h => h) (fun _ h => h) fun _ _ _ _ _ _ h => h
  rwa [answer_resumptions]

/-- What takes the run up is a completion. -/
theorem Story.completes_of_resumptions {st : Story S} {depth : Nat} {w : World S σ}
    {top : Activation S σ} {rest : List (Activation S σ)}
    (h : (st.next depth (.running w top rest)).resumptions ≠ st.resumptions) :
    ∃ cb o, top.completion? w = some (cb, o) := by
  simp only [Story.next] at h
  split at h
  · exact absurd (st.turn_resumptions w top) h
  · split at h
    · next cb o hc => exact ⟨cb, o, hc⟩
    · exact absurd rfl h

/-- Until it comes to its end, a run is in a place of this thread, or it is suspended, and nothing
works for it. -/
def Posted (r : Origin S) (s : State S σ) (st : Story S) (thread : String) : Prop :=
  st.outcomes = [] → st.lost = false →
    (∃ above act below, s.activations = above ++ act :: below ∧ act.WorksFor r st below ∧
      seen s.world.thread above = thread) ∨
    ∃ i, st.bridge = some i ∧ ∀ a ∈ s.activations, a.Idle i

namespace Posted

variable {P : Program S σ} {r : Origin S} {st : Story S} {w : World S σ}
  {below : List (Activation S σ)} {run : Loop S} {act : Activation S σ}

/-- A loop of the run is on top. -/
theorem of_loop (home : Home r st w below run) (hrun : act.loop? = some run) :
    Posted r (.running w act below) st w.thread := fun _ _ =>
  have hworks := home.worksFor ((Activation.every_iff_of_loop? hrun).mpr hrun)
  .inl ⟨[], act, below, rfl, hworks, rfl⟩

/-- The run has come to its end. -/
theorem of_end {s : State S σ} {thread : String} (h : st.outcomes ≠ []) : Posted r s st thread :=
  fun hout => absurd hout h

/-- The run is suspended. -/
theorem of_suspends {s : State S σ} {thread : String} (h : Tracks P r s st) {q : Question S}
    (hq : st.pending = some q) (hs : q.Suspends) : Posted r s st thread := fun _ hlost =>
  have ⟨i, _, _, _, _, parked⟩ := h.parked_of_suspends hq hs hlost
  .inr ⟨i, parked.bridge, parked.idle⟩

/-- A loop exits. -/
theorem leave (home : Home r st w below run) (o : Outcome) :
    Posted r (State.leave P w run o below) (st.leave run o) w.thread := by
  unfold State.leave Story.leave
  cases htake : run.stack.takeFor o with
  | mk frame stack =>
      cases frame with
      | some frame => exact of_loop ((home.withStack stack).of_story rfl rfl) rfl
      | none => exact of_end (by simp [Story.deliver])

/-- A loop in front of a node. -/
theorem eval (home : Home r st w below run) {node : Effect S}
    (htracks : Tracks P r (State.eval P w (.loop run) node below)
      (st.turn w (.eval (.loop run) node : Activation S σ))) :
    Posted r (State.eval P w (.loop run) node below)
      (st.turn w (.eval (.loop run) node : Activation S σ)) w.thread := by
  simp only [State.eval, Story.turn] at htracks ⊢
  cases hc : w.connections.isCanceled run.connection with
  | true => exact of_end (by simp [Story.deliver])
  | false =>
      simp only [hc, Bool.false_eq_true, if_false] at htracks ⊢
      have home' : Home r (st.look run.connection false) w below run := home.of_story rfl rfl
      cases node with
      | pure v => exact of_loop home' rfl
      | continueOn context source => exact of_loop home' rfl
      | bind source frame => exact of_loop (home'.withStack _) rfl
      | map source f => exact of_loop (home'.withStack _) rfl
      | fail e =>
          rw [State.reduce_fail_eq_leave]
          exact leave home' (.error e)
      | suspend k => exact of_loop (home'.of_story rfl rfl) rfl
      | delay k => exact of_loop (home'.of_story rfl rfl) rfl
      | async k => exact of_suspends htracks rfl trivial
      | parked inner stack => exact of_suspends htracks rfl trivial
      | deferred context b => exact of_suspends htracks rfl trivial
      | switchConnection source modify restore => exact of_loop (home'.of_story rfl rfl) rfl

/-- A loop whose connection has been chosen. -/
theorem switched (home : Home r st w below run) (source : Effect S)
    (restore : Option (Restorer S)) (new : Connection) :
    Posted r (State.switched w run source restore new below) st w.thread := by
  have hloop : ∀ node, Posted r (.running (w.followSwitch run new)
      (.eval (.loop { run with connection := new }) node) below) st w.thread := by
    intro node
    rw [← State.thread_followSwitch w run new]
    exact of_loop (home.followSwitch new) rfl
  unfold State.switched
  cases restore with
  | none => exact hloop _
  | some r' => exact hloop _

/-- A step above the place of the run, or of code that works for it there, leaves it there. -/
theorem stays {s : State S σ} (hopen : s.Open) {above : List (Activation S σ)} {thread : String}
    (place : s.activations = above ++ act :: below) (hact : act.WorksFor r st below)
    (hthread : seen s.world.thread above = thread) {q : Question S} {next : q.Answer → Course S}
    (home : Home r st s.world below run) {i : Nat}
    (h : Stays (Activation.Serves P run q next) i s.world below (s.next P)) :
    Posted r (s.next P) st thread := fun _ _ => by
  obtain ⟨above', a, place', -, ha, -⟩ := h.place
  have hworks : a.WorksFor r st below := home.worksFor (ha.mono fun b hb => hb.loop?_eq)
  have hinner : ∀ {b : Activation S σ}, b.WorksFor r st below → b.Inner := fun hb =>
    Activation.inner_of_every (fun _ h => ⟨h.choose, h.choose_spec.1⟩) hb
  have hseen : ∀ (t : String) (as : List (Activation S σ)) {b : Activation S σ},
      b.WorksFor r st below → seen t (as ++ [b]) = seen t as := by
    intro t as b hb
    simp only [seen, List.foldl_append, List.foldl_cons, List.foldl_nil]
    exact (hinner hb).under_eq _
  refine .inl ⟨above', a, below, place', hworks, ?_⟩
  rw [← hthread, ← hseen _ above hact, ← hseen _ above' hworks]
  exact State.seen_next hopen (by simpa using place) (by simpa using place') (by simp) rfl

/-- A turn of the run while it waits for no answer. -/
theorem takes_turn {m : Course S} (stands : Stands act run m) (home : Home r st w below run)
    (live : st.Live none) (htracks : Tracks P r (State.work P w below act) (st.turn w act)) :
    Posted r (State.work P w below act) (st.turn w act) w.thread := by
  cases stands with
  | eval _ e => exact eval home htracks
  | value _ v =>
      simp only [State.work, Story.turn, State.value_eq_leave]
      exact leave home (.ok v)
  | node _ e =>
      simp only [State.work, State.advance, Story.turn, Story.heed,
        Story.answer_of_none live.pending]
      exact of_loop home rfl
  | switch _ source restore new =>
      simp only [State.work, State.advance, Story.turn, Story.heed,
        Story.answer_of_none live.pending]
      exact switched home source restore new

/-- The end of the code that works on a question. -/
theorem serves_turn {q : Question S} {next : q.Answer → Course S}
    (hopen : (State.running w act below).Open) (serves : act.Serves P run q next)
    (home : Home r st w below run) (live : st.Live (some q)) :
    Posted r (State.work P w below act) (st.turn w act) w.thread := by
  obtain ⟨α, h, code, rfl, hserves⟩ := serves.wrap
  have hloop := hserves.loop
  rw [Story.turn_wrap st w hloop]
  have hhome : ∀ reply, Home r (st.answer reply) w below run := fun reply =>
    home.of_story (by simp [Story.answer, live.pending]) (by simp [Story.answer, live.pending])
  by_cases hdone : ∃ a, code = .done a
  · obtain ⟨a, rfl⟩ := hdone
    rw [State.work_wrap, State.advance]
    rcases h.finish_cases w below hloop a with
      ⟨act', hrun, hfinish⟩ | ⟨source, restore, new, hfinish⟩
    · rw [hfinish]
      exact of_loop (hhome _) hrun
    · rw [hfinish]
      exact switched (hhome _) source restore new
  by_cases hpanic : ∃ payload, code = .panic payload
  · obtain ⟨payload, rfl⟩ := hpanic
    rw [State.work_wrap]
    simp only [State.advance, Story.heed, h.escape_eq P w below hloop, State.panicIn,
      State.contain]
    cases hc : w.classifier payload with
    | true =>
        simp only [if_true]
        exact of_loop ((hhome _).congr fun _ _ => rfl) rfl
    | false => exact fun _ hlost => by cases hlost
  · have hdone' : ∀ a, code ≠ .done a := fun a ha => hdone ⟨a, ha⟩
    have hpanic' : ∀ payload, code ≠ .panic payload := fun payload hp => hpanic ⟨payload, hp⟩
    rw [st.heed_of_goes_on w hdone' hpanic']
    have place : (State.running w (h.wrap code) below).activations = [] ++ h.wrap code :: below :=
      rfl
    exact stays hopen place
      (home.worksFor (serves.every.mono fun b hb => hb.loop?_eq)) rfl home
      (State.stays_work_wrap P (Activation.stable_serves P run q next) h serves.every hdone'
        hpanic' fun cb _ _ => home.not_wins cb)

/-- A run with a loop in its home is in the place of that. -/
theorem thread_eq {s : State S σ} {thread : String} {above : List (Activation S σ)}
    (h : Posted r s st thread) (hout : st.outcomes = []) (hlost : st.lost = false)
    (place : s.activations = above ++ act :: below)
    (idle : ∀ i, st.bridge = some i → ∀ a ∈ above, a.Idle i) (home : Home r st s.world below run)
    (hact : act.WorksFor r st below) : seen s.world.thread above = thread := by
  rcases h hout hlost with ⟨above', act', below', place', hact', hseen⟩ | ⟨i, hi, hidle⟩
  · obtain ⟨rfl, -, -⟩ := home.place_unique place idle place' hact'
    exact hseen
  · exact absurd (hidle act (by simp [place])) (hact.not_idle hi)

/-- A completion that takes a parked run up puts it in a place of the current thread. -/
theorem resumes {top : Activation S σ} {rest : List (Activation S σ)} {i : Nat}
    {stack : CallStack (Frame S)} {c : Connection} {earlier : List (Park S)} {q : Question S}
    {next : q.Answer → Course S} {o : Outcome}
    (parked : Parked r (.running w top rest) st i stack c earlier q next)
    (hresume : st.next r.depth (.running w top rest) = st.resume ⟨i, earlier.length + 1⟩ o)
    (hresumes : Resumes i
      ⟨c, some r.terminal, stack, some (earlier.length + 1), earlier.length + 1⟩ o w rest
      (State.work P w rest top)) :
    Posted r (State.work P w rest top) (st.resume ⟨i, earlier.length + 1⟩ o) w.thread := by
  have hgrows : (st.next r.depth (.running w top rest)).resumptions ≠ st.resumptions := by
    simp [hresume, (parked.resume_eq _ o).2.2]
  obtain ⟨cb, o', hc⟩ := Story.completes_of_resumptions hgrows
  have hthread := State.thread_work_of_completion P hc rest
  generalize State.work P w rest top = s' at hresumes hthread
  cases hresumes with
  | mk w' new size hb hidle =>
      rw [State.world_running] at hthread
      refine fun _ _ => .inl ⟨[], _, _, rfl, ⟨_, rfl, ?_⟩, hthread⟩
      simp [Story.resume, Story.answer, parked.live.pending, parked.bridge]

/-- A step of the machine leaves a run in a place of its thread, or takes it up on the current
thread. -/
theorem next {s : State S σ} {thread : String} (h : Posted r s st thread)
    (htracks : Tracks P r s st) (hbounded : s.Bounded) (hopen : s.Open) :
    ((st.next r.depth s).resumptions = st.resumptions ∧
        Posted r (s.next P) (st.next r.depth s) thread) ∨
      (∃ cb, (st.next r.depth s).resumptions = st.resumptions ++ [cb]) ∧
        Posted r (s.next P) (st.next r.depth s) s.world.thread := by
  have hnext : Tracks P r (s.next P) (st.next r.depth s) := htracks.next hbounded
  cases htracks with
  | @turn w act below _ run m stands proceeds home live resumed =>
      have hturn := home.takesTurn live.outcomes live.lost stands.loop?_eq
      have place : (State.running w act below).activations = [] ++ act :: below := rfl
      have hthread : w.thread = thread := h.thread_eq live.outcomes live.lost place (by simp) home
        (home.worksFor (stands.every stands.loop?_eq))
      simp only [State.next, Story.next, hturn, if_true] at hnext ⊢
      exact .inl ⟨st.turn_resumptions w act, hthread ▸ takes_turn stands home live hnext⟩
  | @calling _ above below act _ run q next place serves waits idle proceeds home live resumed =>
      have hact : act.WorksFor r st below :=
        home.worksFor (serves.mono fun b hb => hb.loop?_eq)
      have hthread := h.thread_eq live.outcomes live.lost place idle home hact
      cases s with
      | returned w => simp [State.activations] at place
      | unwound w payload => simp [State.activations] at place
      | running w top rest =>
          rcases Tracks.step_calling P hbounded place serves waits idle home with
            ⟨rfl, hs⟩ | ⟨hsame, hstays⟩
          · rw [State.activations_running, List.nil_append, List.cons.injEq] at place
            obtain ⟨rfl, rfl⟩ := place
            have hturn := home.takesTurn live.outcomes live.lost hs.loop?_eq
            simp only [State.next, Story.next, hturn, if_true] at hnext ⊢
            exact .inl ⟨st.turn_resumptions w top, hthread ▸ serves_turn hopen hs home live⟩
          · rw [hsame]
            exact .inl ⟨rfl, stays hopen place hact hthread home hstays⟩
  | @suspended _ _ i stack c earlier q next idle holds bridge parks completes proceeds live resumed
      suspends =>
      have parked : Parked r s st i stack c earlier q next :=
        ⟨idle, holds, bridge, parks, completes, proceeds, live, resumed⟩
      cases s with
      | returned w => exact .inl ⟨rfl, h⟩
      | unwound w payload => exact .inl ⟨rfl, h⟩
      | running w top rest =>
          rcases parked.step P with ⟨hsame, -⟩ | ⟨o, hresume, hresumes⟩
          · rw [hsame] at hnext ⊢
            exact .inl ⟨rfl, of_suspends hnext live.pending suspends⟩
          · refine .inr ⟨⟨⟨i, earlier.length + 1⟩, ?_⟩, ?_⟩
            · rw [hresume]
              exact (parked.resume_eq _ o).2.2
            · rw [hresume]
              exact resumes parked hresume hresumes
  | delivered outcomes ending evaluates pending lost still numbered resumed =>
      have hover : st.outcomes ≠ [] := by simp [outcomes]
      rw [Still.story_next still (.inl hover)]
      exact .inl ⟨rfl, of_end hover⟩
  | lost outcomes lost pending evaluates still numbered resumed =>
      rw [Still.story_next still (.inr lost)]
      refine .inl ⟨rfl, fun _ hlost => ?_⟩
      rw [lost] at hlost
      cases hlost

end Posted

namespace FollowsOnThreads

variable {P : Program S σ} {r : Origin S} {s : State S σ} {st : Story S} {ts : List String}

/-- A run is in a place of the thread on which it has been entered last. -/
theorem posted (h : FollowsOnThreads P r s st ts) :
    ∃ thread, ts.getLast? = some thread ∧ Posted r s st thread := by
  induction h with
  | @start w rest h depth =>
      have home : Home r .beginning w rest ⟨r.connection, r.stack, .terminal r.terminal⟩ :=
        .direct rfl rfl rfl depth
      exact ⟨w.thread, rfl, .of_loop home rfl⟩
  | @next s st ts h ih =>
      obtain ⟨thread, hlast, hposted⟩ := ih
      rcases hposted.next h.follows.tracks h.follows.reachable.bounded
        h.follows.reachable.isOpen with ⟨hsame, hnext⟩ | ⟨⟨cb, hgrows⟩, hnext⟩
      · exact ⟨thread, by simpa [hsame] using hlast, hnext⟩
      · exact ⟨s.world.thread, by simp [hgrows], hnext⟩
  | again h hs code ih =>
      obtain ⟨thread, hlast, hposted⟩ := ih
      refine ⟨thread, hlast, fun hout hlost => ?_⟩
      rcases hposted hout hlost with ⟨above, act, below, place, -⟩ | ⟨i, hi, -⟩
      · simp [hs] at place
      · refine .inr ⟨i, hi, fun a ha => ?_⟩
        rw [List.mem_singleton.mp ha]
        exact Activation.idle_code i code

/-- Whenever the run takes a turn, for itself or in code that it calls, the machine is on the
thread on which the run has been entered last. -/
theorem thread {w : World S σ} {top : Activation S σ} {rest : List (Activation S σ)}
    (h : FollowsOnThreads P r (.running w top rest) st ts)
    (hturn : st.takesTurn r.depth top rest = true) : ts.getLast? = some w.thread := by
  obtain ⟨thread, hlast, hposted⟩ := h.posted
  rw [hlast, Option.some.injEq]
  rcases h.follows.tracks.turn_cases with hno | ⟨run, hrun, home, hcases⟩
  · simp [hturn] at hno
  · have hlive : st.outcomes = [] ∧ st.lost = false := by
      rcases hcases with ⟨m, -, live, -⟩ | ⟨q, next, -, live⟩
      · exact ⟨live.outcomes, live.lost⟩
      · exact ⟨live.outcomes, live.lost⟩
    have place : (State.running w top rest).activations = [] ++ top :: rest := rfl
    rcases hposted hlive.1 hlive.2 with ⟨above, act, below, place', hact, hseen⟩ | ⟨i, hi, hidle⟩
    · obtain ⟨rfl, -, -⟩ := home.place_unique place (by simp) place' hact
      exact hseen.symm
    · have hno : st.takesTurn r.depth top rest = false :=
        Story.takesTurn_of_bridge hi (hidle top (by simp))
      rw [hno] at hturn
      cases hturn

end FollowsOnThreads

/-! ## The segments of a run -/

/-- Whether a question suspends can be decided. -/
instance : DecidablePred (Question.Suspends (S := S)) := fun q => by
  cases q <;> first | exact isTrue trivial | exact isFalse id

/-- How many suspensions have been answered among some exchanges.  This numbers the segments of a
run, which the suspensions separate. -/
def segment (xs : List (Exchange S)) : Nat :=
  xs.countP fun x => decide x.question.Suspends

/-- A run starts in its first segment. -/
@[simp]
theorem segment_nil : segment ([] : List (Exchange S)) = 0 :=
  rfl

/-- The next segment starts with the answer to a question that suspends. -/
theorem segment_concat (xs : List (Exchange S)) (x : Exchange S) :
    segment (xs ++ [x]) = segment xs + if x.question.Suspends then 1 else 0 := by
  simp [segment, List.countP_append, List.countP_cons]

/-- A step takes a run up if and only if it answers a question for which the run has suspended. -/
theorem Tracks.segment_next {P : Program S σ} {r : Origin S} {s : State S σ} {st : Story S}
    (h : Tracks P r s st) : (st.next r.depth s).resumptions.length + segment st.exchanges =
      st.resumptions.length + segment (st.next r.depth s).exchanges := by
  have hsame : ∀ {st' : Story S}, st' = st → st'.resumptions.length + segment st.exchanges =
      st.resumptions.length + segment st'.exchanges := by
    rintro _ rfl
    rfl
  -- What a turn adds is the answer to a question for which the run has not suspended.
  have hturn : ∀ {w : World S σ} {act : Activation S σ}, Gains P st (st.turn w act) →
      (∀ q, st.pending = some q → ¬q.Suspends) →
      (st.turn w act).resumptions.length + segment st.exchanges =
        st.resumptions.length + segment (st.turn w act).exchanges := by
    intro w act hgains hcalls
    rw [st.turn_resumptions w act]
    rcases hgains with hex | ⟨x, hadds, hx⟩
    · rw [hex]
    · have hno : ¬x.question.Suspends := by
        rcases hx with ⟨c, b, rfl⟩ | ⟨hpending, -⟩
        · exact id
        · exact hcalls _ hpending
      rw [hadds, segment_concat, if_neg hno]
      rfl
  cases h.stepping with
  | other same => exact hsame same
  | turn step stands home live =>
      rw [step]
      exact hturn (gains_of_stands stands live.pending _) fun q hq => by simp [live.pending] at hq
  | @serves w _ _ _ _ _ _ step serves home live =>
      rw [step]
      refine hturn (serves.gains live.pending w) fun q hq => ?_
      obtain ⟨_, _, _, -, hserves⟩ := serves.wrap
      cases live.pending.symm.trans hq
      exact hserves.calls
  | @resumes _ _ _ _ _ _ _ _ _ _ o step parked suspends =>
      obtain ⟨hadds, -, hresumed⟩ := parked.resume_eq ⟨_, _⟩ o
      rw [step, hadds, hresumed, segment_concat, if_pos suspends, List.length_append,
        List.length_singleton]
      omega

namespace FollowsOnThreads

variable {P : Program S σ} {r : Origin S} {s : State S σ} {st : Story S} {ts : List String}

/-- A run is in the segment of its last entry. -/
theorem segment_eq (h : FollowsOnThreads P r s st ts) : ts.length = segment st.exchanges + 1 := by
  have hcount : st.resumptions.length = segment st.exchanges ∧
      ts.length = st.resumptions.length + 1 := by
    induction h with
    | start h depth => exact ⟨rfl, rfl⟩
    | @next s st ts h ih =>
        have hstep := h.follows.tracks.segment_next
        refine ⟨by omega, ?_⟩
        have hmono : st.resumptions.length ≤ (st.next r.depth s).resumptions.length := by
          rcases h.follows.tracks.gains with hsame | ⟨x, hadds, -⟩
          · rw [hsame] at hstep
            omega
          · rw [hadds, segment_concat] at hstep
            omega
        simp only [List.length_append, List.length_replicate]
        omega
    | again h hs code ih => exact ih
  omega

end FollowsOnThreads

/-- Each turn that a run has taken was on the thread on which its segment has been entered. -/
theorem LeadsOnThreads.thread {P : Program S σ} {r : Origin S} {w : World S σ}
    {top : Activation S σ}
    {rest : List (Activation S σ)} {st st' : Story S} {s' : State S σ} {ts ts' : List String}
    (h : LeadsOnThreads P r (.running w top rest) st ts s' st' ts')
    (ht : FollowsOnThreads P r (.running w top rest) st ts)
    (hturn : st.takesTurn r.depth top rest = true) :
    ts'[segment st.exchanges]? = some w.thread := by
  have hlast := ht.thread hturn
  rw [List.getLast?_eq_getElem?, ht.segment_eq, Nat.add_sub_cancel] at hlast
  obtain ⟨later, rfl⟩ := h.prefix_entries
  rw [List.getElem?_append_left (by rw [ht.segment_eq]; omega)]
  exact hlast

end Trampoline
