import Trampoline.Proofs.Run.Active
import Trampoline.Proofs.Run.Determinism

/-!
# Cancellation is prompt

From the moment at which the active connection of a run is canceled, whoever cancels it, the
run starts no more code of the host.  Code that is already at work may come back, and
whatever it comes back with is met as a node, where the run looks at its connection and
ends.  There is one way around the look: the value of a delayed outcome goes to the next
frame that takes values, and the code of that frame is started.  A run whose code chooses
another connection, which has not been canceled, goes on under that one.

Main definitions and results:

- Definition `TurnsCanceled`: the moments at which the active connection of a run is
  canceled.
- Definition `Moves`: the code that was at work then has made another connection active.
- Definition `Prompt`, theorem `TurnsCanceled.prompt`: what a run still does from then on.
-/

namespace Trampoline

variable {S : Closures} {σ : Type}

/-! ## What the evaluator does on a canceled connection -/

/-- Each look at a connection finds it canceled. -/
def FindsCanceled (c : Connection) (zs : List (Exchange S)) : Prop :=
  ∀ b, ⟨.canceled c, b⟩ ∈ zs → b = true

theorem FindsCanceled.of_cons {c : Connection} {x : Exchange S} {zs : List (Exchange S)}
    (h : FindsCanceled c (x :: zs)) : FindsCanceled c zs := fun b hb =>
  h b (List.mem_cons_of_mem x hb)

/-- If the evaluation looks at a connection first, it finds it canceled. -/
def FindsFirst (c : Connection) (zs : List (Exchange S)) : Prop :=
  ∀ b rest, zs = ⟨.canceled c, b⟩ :: rest → b = true

theorem FindsCanceled.first {c : Connection} {zs : List (Exchange S)} (h : FindsCanceled c zs) :
    FindsFirst c zs := by
  rintro b rest rfl
  exact h b (by simp)

/-- An evaluation that has been given these answers calls for nothing, and if it has come to
an outcome, it is that of a cancellation. -/
structure StopsCanceled (zs : List (Exchange S)) (n : Course S) : Prop where
  calls : calledIn zs ++ n.calling = []
  outcome : ∀ o, n.head.outcome? = some o → o = .error .cancelled

/-- A node on a canceled connection ends the evaluation. -/
theorem StopsCanceled.of_eval {c : Connection} {zs : List (Exchange S)} {n : Course S}
    {e : Effect S}
    {frames : List (Frame S)} (hc : FindsFirst c zs)
    (h : Proceeds ((Course.eval c e).within frames) zs n) : StopsCanceled zs n := by
  have hhead : ((Course.eval c e).within frames).head = .asks (.canceled c) fun b =>
      (if b then Course.abort else e.move c).within frames := Course.head_within_asks rfl frames
  rcases h.taken hhead with ⟨rfl, rfl⟩ | ⟨a, zs, rfl, hlooked⟩
  · refine ⟨?_, fun o ho => ?_⟩
    · simp [Course.calling, hhead, Question.isCall]
    · simp [hhead] at ho
  · obtain rfl : a = true := hc a zs rfl
    have habort : (Course.abort.within frames : Course S).head = .aborted :=
      Course.head_within_aborted rfl frames
    have hout : ((Course.abort.within frames : Course S).head).outcome? =
        some (.error .cancelled) := by
      rw [habort]
      rfl
    obtain ⟨rfl, rfl⟩ := hlooked.of_outcome hout
    simp only [if_true]
    refine ⟨?_, fun o ho => ?_⟩
    · simp [Course.calling, habort, calledIn, callsOf, Question.isCall]
    · rw [hout] at ho
      exact (Option.some.inj ho).symm

/-- A frame that takes a value goes on with a node at once, or asks for the code that makes
a node of the value. -/
theorem Frame.move_value {frame : Frame S} {v : Value} (h : frame.takes (.ok v) = true)
    (c : Connection) :
    (frame.question? (.ok v) = none ∧ ∃ e, frame.move c (.ok v) = .eval c e) ∨
    ∃ (q : Question S) (next : q.Answer → Course S), frame.question? (.ok v) = some q ∧
      frame.move c (.ok v) = .ask q next ∧ ((∃ k, q = .bind k v) ∨ ∃ k, q = .map k v) ∧
      ∀ a, ∃ e, next a = .eval c e := by
  have hnode : ∀ r : Except Failure (Effect S), ∃ e, Course.node c r = .eval c e := by
    intro r
    cases r with
    | ok e => exact ⟨e, rfl⟩
    | error e => exact ⟨.fail e, rfl⟩
  have hbinder : ∀ f : Binder S, (f.question? v = none ∧ ∃ e, f.move c v = .eval c e) ∨
      ∃ (q : Question S) (next : q.Answer → Course S), f.question? v = some q ∧
        f.move c v = .ask q next ∧ ((∃ k, q = .bind k v) ∨ ∃ k, q = .map k v) ∧
        ∀ a, ∃ e, next a = .eval c e := by
    intro f
    cases f with
    | user k => exact .inr ⟨.bind k v, .node c, rfl, rfl, .inl ⟨k, rfl⟩, hnode⟩
    | pure => exact .inl ⟨rfl, _, rfl⟩
    | shift context => exact .inl ⟨rfl, _, rfl⟩
  cases frame with
  | bind f => exact hbinder f
  | map k =>
      exact .inr ⟨.map k v, .completion c, rfl, rfl, .inr ⟨k, rfl⟩, fun a => ⟨.ofOutcome a, rfl⟩⟩
  | handle f => cases h
  | fold f g => exact hbinder f
  | restore old r => exact .inl ⟨rfl, _, rfl⟩

/-- What an evaluation still does with a value that has come past the look: it calls for the
code of the next frame that takes values, if there is one that has code, and comes to no
outcome but that of a cancellation, or the value itself if there is no such frame. -/
structure Passes (stack : CallStack (Frame S)) (v : Value) (zs : List (Exchange S))
    (n : Course S) : Prop where
  calls : calledIn zs ++ n.calling = [] ∨ ∃ frame below q,
    stack.popNext = (some frame, below) ∧ frame.question? (.ok v) = some q ∧
      ((∃ k, q = .bind k v) ∨ ∃ k, q = .map k v) ∧ calledIn zs ++ n.calling = [q]
  outcome : ∀ o, n.head.outcome? = some o →
    o = .error .cancelled ∨ stack.popNext.1 = none ∧ o = .ok v

theorem StopsCanceled.passes {stack : CallStack (Frame S)} {v : Value} {zs : List (Exchange S)}
    {n : Course S} (h : StopsCanceled zs n) : Passes stack v zs n :=
  ⟨.inl h.calls, fun o ho => .inl (h.outcome o ho)⟩

/-- Code that comes back with a node on a canceled connection is the last that is called. -/
theorem Passes.of_ask {c : Connection} {v : Value} {stack below : CallStack (Frame S)}
    {frame : Frame S} {q : Question S} {next : q.Answer → Course S} {zs : List (Exchange S)}
    {n : Course S} (hc : FindsCanceled c zs) (hpop : stack.popNext = (some frame, below))
    (hq : frame.question? (.ok v) = some q) (hkind : (∃ k, q = .bind k v) ∨ ∃ k, q = .map k v)
    (hnext : ∀ a, ∃ e, next a = .eval c e)
    (h : Proceeds ((Course.ask q next).within below.toList) zs n) : Passes stack v zs n := by
  have hcall : q.isCall (fun _ => none) = true := by
    rcases hkind with ⟨k, rfl⟩ | ⟨k, rfl⟩ <;> rfl
  have hhead : ((Course.ask q next).within below.toList).head =
      .asks q fun a => (next a).within below.toList := Course.head_within_asks rfl below.toList
  rcases h.taken hhead with ⟨rfl, rfl⟩ | ⟨a, zs, rfl, hanswered⟩
  · refine ⟨.inr ⟨frame, below, q, hpop, hq, hkind, ?_⟩, fun o ho => ?_⟩
    · simp [Course.calling, hhead, hcall]
    · simp [hhead] at ho
  · obtain ⟨e, he⟩ := hnext a
    rw [he] at hanswered
    have hstops := StopsCanceled.of_eval hc.of_cons.first hanswered
    refine ⟨.inr ⟨frame, below, q, hpop, hq, hkind, ?_⟩, fun o ho => .inl (hstops.outcome o ho)⟩
    have hcons : calledIn (⟨q, a⟩ :: zs) = q :: calledIn zs := by
      simp [calledIn, callsOf, hcall]
    rw [hcons, List.cons_append, hstops.calls]

/-- A value on a canceled connection goes to one frame only. -/
theorem Passes.of_exit {c : Connection} {v : Value} {stack : CallStack (Frame S)}
    {zs : List (Exchange S)} {n : Course S} (hc : FindsCanceled c zs)
    (h : Proceeds ((Course.exit c (.ok v)).within stack.toList) zs n) : Passes stack v zs n := by
  have hbehind : zs = [] ∧ n.calling = [] ∧ n.head.outcome? = none → Passes stack v zs n := by
    rintro ⟨rfl, hcalling, hnone⟩
    exact ⟨.inl (by simp [hcalling]), fun o ho => by simp [hnone] at ho⟩
  cases hpop : stack.popNext with
  | mk frame below =>
      cases frame with
      | none =>
          have hexit : Proceeds ((Course.exit c (.ok v)).within stack.toList) []
              (.exit c (.ok v)) := .uncaught hpop
          rcases hexit.ahead h with hrest | hrest
          · obtain ⟨rfl, rfl⟩ := hrest.of_outcome (o := .ok v) rfl
            exact ⟨.inl rfl, fun o ho => .inr ⟨by rw [hpop], (Option.some.inj ho).symm⟩⟩
          · exact hbehind hrest
      | some frame =>
          have htakes : frame.takes (.ok v) = true := CallStack.takes_of_takeFor hpop
          have hmove : Proceeds ((Course.exit c (.ok v)).within stack.toList) []
              ((frame.move c (.ok v)).within below.toList) := .caught hpop
          rcases hmove.ahead h with hrest | hrest
          · rcases frame.move_value htakes c with
              ⟨-, e, he⟩ | ⟨q, next, hq, hask, hkind, hnext⟩
            · rw [he] at hrest
              exact (StopsCanceled.of_eval hc.first hrest).passes
            · rw [hask] at hrest
              exact .of_ask hc hpop hq hkind hnext hrest
          · exact hbehind hrest

/-! ## What follows an answer -/

/-- Code that works on a question may make another connection active. -/
def Question.Switches : Question S → Prop
  | modify _ _ | restore _ _ _ _ => True
  | _ => False

/-- The answer to a question is met as a node under the connection of the question, but for
the value of a delayed outcome and for a connection that has been chosen. -/
theorem Question.GoesOn.answered {c : Connection} {q : Question S} {next : q.Answer → Course S}
    (h : q.GoesOn c next) (hlook : ∀ d, q ≠ .canceled d) (a : q.Answer) :
    (∃ e, next a = .eval c e) ∨
      (∃ k v, (⟨q, a⟩ : Exchange S) = ⟨.delay k, .ok v⟩ ∧ next a = .exit c (.ok v)) ∨
      q.Switches ∧ ∃ new e, next a = .eval new e := by
  have hconnection : ∀ (source : Effect S) (restore : Option (Restorer S)) (old : Connection)
      (r : Except Failure Connection),
      ∃ new e, Course.connection c (.region source restore old) r = .eval new e := by
    intro source restore old r
    cases r with
    | ok new => cases restore <;> exact ⟨new, _, rfl⟩
    | error e => exact ⟨c, .fail e, rfl⟩
  cases q with
  | canceled d => exact absurd rfl (hlook d)
  | thunk k =>
      obtain rfl : next = Course.node c := h
      cases a <;> exact .inl ⟨_, rfl⟩
  | bind k v =>
      obtain rfl : next = Course.node c := h
      cases a <;> exact .inl ⟨_, rfl⟩
  | handler k e =>
      obtain rfl : next = Course.node c := h
      cases a <;> exact .inl ⟨_, rfl⟩
  | delay k =>
      obtain rfl : next = Course.result c := h
      cases a with
      | ok v => exact .inr (.inl ⟨k, v, rfl, rfl⟩)
      | error e => exact .inl ⟨_, rfl⟩
  | modify k current =>
      obtain ⟨source, restore, old, rfl⟩ := h
      exact .inr (.inr ⟨trivial, hconnection source restore old a⟩)
  | restore k exit before current =>
      obtain ⟨source, restore, old, rfl⟩ := h
      exact .inr (.inr ⟨trivial, hconnection source restore old a⟩)
  | _ =>
      obtain rfl : next = Course.completion c := h
      exact .inl ⟨_, rfl⟩

/-! ## Prompt cancellation -/

/-- The moments at which the active connection of a run, with these frames pending, is
canceled. -/
inductive TurnsCanceled (P : Program S σ) (r : Origin S) :
    State S σ → Story S → Connection → CallStack (Frame S) → Prop
  /-- A step cancels it. -/
  | becomes {s : State S σ} {st : Story S} {c : Connection} {stack : CallStack (Frame S)}
      (h : Follows P r s st) (active : Active r st s c stack)
      (before : s.world.connections.isCanceled c = false)
      (after : (s.next P).world.connections.isCanceled c = true) :
      TurnsCanceled P r (s.next P) (st.next r.depth s) c stack
  /-- The run comes to a node on a connection that has been canceled: where it starts on one,
  where it has made one active, and where it is taken up on one. -/
  | meets {w : World S σ} {run : Loop S} {node : Effect S} {rest : List (Activation S σ)}
      {st : Story S} (h : Follows P r (.running w (.eval (.loop run) node) rest) st)
      (turn : st.takesTurn r.depth (.eval (.loop run) node : Activation S σ) rest = true)
      (canceled : w.connections.isCanceled run.connection = true) :
      TurnsCanceled P r (.running w (.eval (.loop run) node) rest) st run.connection run.stack

/-- The code that was choosing a connection for the run has chosen one that had not been
canceled when the run came to look at it. -/
def Moves (st st' : Story S) : Prop :=
  ∃ (q : Question S) (a : q.Answer) (new : Connection), st.pending = some q ∧ q.Switches ∧
    st.exchanges ++ [⟨q, a⟩, ⟨.canceled new, false⟩] <+: st'.exchanges

/-- The code that was at work on a delayed outcome has come back with a value. -/
def Delays (st st' : Story S) (v : Value) : Prop :=
  ∃ k, st.pending = some (.delay k) ∧ st.exchanges ++ [⟨.delay k, .ok v⟩] <+: st'.exchanges

/-- What a run still does after a moment at which its active connection has been canceled. -/
structure Prompt (r : Origin S) (stack : CallStack (Frame S)) (s : State S σ)
    (st st' : Story S) : Prop where
  /-- It calls for no more code of the host, or a delayed value has come back, and it calls
  for the code of the next frame that takes values, on that value, and for nothing else. -/
  calls : st'.called = st.called ∨ ∃ v frame below q, Delays st st' v ∧
    stack.popNext = (some frame, below) ∧ frame.question? (.ok v) = some q ∧
      ((∃ k, q = .bind k v) ∨ ∃ k, q = .map k v) ∧ st'.called = st.called ++ [q]
  /-- It delivers nothing but its cancellation, or a delayed value has come back, and no
  pending frame takes it. -/
  outcome : ∀ o ∈ st'.outcomes, o = .error .cancelled ∨
    ∃ v, Delays st st' v ∧ stack.popNext.1 = none ∧ o = .ok v
  /-- If no code was at work, it delivers its cancellation in the next step. -/
  delivers : st.pending = none → (st.next r.depth s).outcomes = [.error .cancelled]

/-- A step that begins a cancellation adds nothing to the story of a run. -/
theorem Story.next_cancels (st : Story S) (depth : Nat) (w : World S σ) {top : Activation S σ}
    {c : Connection} (h : State.Cancels c top) (rest : List (Activation S σ)) :
    st.next depth (.running w top rest) = st := by
  obtain ⟨α, holder, next, rfl⟩ := h
  have hturn : st.turn w (holder.wrap (.command (.cancel c) next)) = st := by
    cases holder with
    | node d => cases d <;> rfl
    | outcome d => cases d <;> rfl
    | _ => rfl
  have hcompletion : (holder.wrap (.command (.cancel c) next)).completion? w = none :=
    Activation.completion?_wrap w holder (by simp)
  simp [Story.next, hturn, hcompletion]

/-- What the evaluation of a run has become since the answer to a question, and what the run
has called for since. -/
theorem Follows.since_answer {P : Program S σ} {r : Origin S} {s' : State S σ} {st st' : Story S}
    (hf' : Follows P r s' st') {q : Question S} {next : q.Answer → Course S}
    {frames : List (Frame S)} (hq : st.pending = some q) (hlook : ∀ d, q ≠ .canceled d)
    (proceeds : Proceeds r.course st.exchanges ((Course.ask q next).within frames))
    {a : q.Answer} {zs : List (Exchange S)}
    (hsplit : st'.exchanges = st.exchanges ++ ⟨q, a⟩ :: zs) :
    ∃ n p, Proceeds ((next a).within frames) zs n ∧ Rests st' n ∧
      p <+: calledIn zs ++ n.calling ∧ st'.called = st.called ++ p := by
  have hcall : q.isCall (fun _ => none) = true := Question.isCall_of_ne hlook
  obtain ⟨n, hn, hrests⟩ := hf'.tracks.rests
  obtain ⟨p, hp, hcalled⟩ := hrests.called
  refine ⟨n, calledIn zs ++ p, ?_, hrests, (List.prefix_append_right_inj _).mpr hp, ?_⟩
  · rw [hsplit] at hn
    rcases (proceeds.rest hn).taken (Course.head_within_asks rfl frames) with
      ⟨hnil, -⟩ | ⟨a', ys, hcons, hanswered⟩
    · cases hnil
    · cases hcons
      exact hanswered
  · have hcons : calledIn (⟨q, a⟩ :: zs) = q :: calledIn zs := by
      simp [calledIn, callsOf, hcall]
    have hbefore : st.called = calledIn st.exchanges ++ [q] := by
      simp [Story.called, Story.calls, calledIn, hq, hcall]
    rw [hcalled, hsplit, calledIn_append, hcons, hbefore]
    simp

/-- A run that waits for the answer to a question stops with the answer, once the connection
under which it has asked has been canceled. -/
theorem Follows.prompt_of_pending {P : Program S σ} {r : Origin S} {s s' : State S σ}
    {st st' : Story S} (hf : Follows P r s st) (hl : Leads P r s st s' st')
    (hout : st.outcomes = []) {c : Connection} (hc : s.world.connections.isCanceled c = true)
    {q : Question S} {next : q.Answer → Course S} {stack : CallStack (Frame S)}
    (hq : st.pending = some q) (hgoes : q.GoesOn c next) (hlook : ∀ d, q ≠ .canceled d)
    (proceeds : Proceeds r.course st.exchanges ((Course.ask q next).within stack.toList))
    (hstays : ¬Moves st st') : Prompt r stack s st st' := by
  have hnone : st.pending = none → (st.next r.depth s).outcomes = [.error .cancelled] := by
    intro hnone
    rw [hq] at hnone
    cases hnone
  rcases hl.of_pending hf hq with ⟨hpending, hex, hsame⟩ | ⟨a, zs, hzs⟩
  · refine ⟨.inl ?_, by simp [hsame, hout], hnone⟩
    simp only [Story.called, Story.calls, hpending, hex, hq]
  · have hsplit : st'.exchanges = st.exchanges ++ ⟨q, a⟩ :: zs := by
      rw [← hzs]
      simp
    obtain ⟨n, p, hanswered, hrests, hprefix, hnew⟩ :=
      (hl.follows hf).since_answer hq hlook proceeds hsplit
    obtain ⟨zs', hzs', hfinds⟩ := hl.looks hf hc
    have hzs'' : zs' = ⟨q, a⟩ :: zs := List.append_cancel_left (hzs'.symm.trans hsplit)
    subst hzs''
    have hcanceled : FindsCanceled c zs := FindsCanceled.of_cons hfinds
    have hstops : StopsCanceled zs n → Prompt r stack s st st' := by
      intro hstops
      have hnil : p = [] := by
        rw [hstops.calls] at hprefix
        exact List.prefix_nil.mp hprefix
      exact ⟨.inl (by rw [hnew, hnil, List.append_nil]),
        fun o ho => .inl (hstops.outcome o (hrests.outcome o ho)), hnone⟩
    rcases hgoes.answered hlook a with ⟨e, he⟩ | ⟨k, v, hx, hexit⟩ | ⟨hswitches, new, e, he⟩
    · rw [he] at hanswered
      exact hstops (.of_eval hcanceled.first hanswered)
    · rw [hexit] at hanswered
      cases hx
      have hpasses := Passes.of_exit hcanceled hanswered
      have hdelays : Delays st st' v := ⟨k, hq, zs, by rw [hsplit]; simp⟩
      refine ⟨?_, fun o ho => ?_, hnone⟩
      · rcases hpasses.calls with hnil | ⟨frame, below, q', hpop, hq', hkind, hone⟩
        · rw [hnil] at hprefix
          exact .inl (by rw [hnew, List.prefix_nil.mp hprefix, List.append_nil])
        · rw [hone] at hprefix
          rcases List.prefix_cons_iff.mp hprefix with hnil | ⟨tail, hcons, htail⟩
          · exact .inl (by rw [hnew, hnil, List.append_nil])
          · rw [List.prefix_nil.mp htail] at hcons
            exact .inr ⟨v, frame, below, q', hdelays, hpop, hq', hkind, by rw [hnew, hcons]⟩
      · rcases hpasses.outcome o (hrests.outcome o ho) with hcancelled | ⟨hpop, hvalue⟩
        · exact .inl hcancelled
        · exact .inr ⟨v, hdelays, hpop, hvalue⟩
    · rw [he] at hanswered
      refine hstops (.of_eval (c := new) ?_ hanswered)
      rintro b rest rfl
      cases b with
      | true => rfl
      | false => exact absurd ⟨q, a, new, hq, hswitches, rest, by rw [hsplit]; simp⟩ hstays

/-- A run that comes to a node on a canceled connection delivers its cancellation. -/
theorem Follows.prompt_of_meeting {P : Program S σ} {r : Origin S} {w : World S σ} {run : Loop S}
    {node : Effect S} {rest : List (Activation S σ)} {s' : State S σ} {st st' : Story S}
    (hf : Follows P r (.running w (.eval (.loop run) node) rest) st)
    (hl : Leads P r (.running w (.eval (.loop run) node) rest) st s' st')
    (hout : st.outcomes = [])
    (turn : st.takesTurn r.depth (.eval (.loop run) node : Activation S σ) rest = true)
    (canceled : w.connections.isCanceled run.connection = true) :
    Prompt r run.stack (.running w (.eval (.loop run) node) rest) st st' := by
  have hnone : st.pending = none := (hf.tracks.of_turn_eval turn).1.pending
  have hnext : st.next r.depth (.running w (.eval (.loop run) node) rest) =
      (st.look run.connection true).deliver (.error .cancelled) := by
    simp [Story.next, turn, Story.turn, canceled]
  have hdelivers : ((st.look run.connection true).deliver (.error .cancelled)).outcomes =
      [.error .cancelled] := by
    simp [Story.deliver, Story.look, hout]
  have hnow : st.pending = none → (st.next r.depth
      (.running w (.eval (.loop run) node) rest)).outcomes = [.error .cancelled] := fun _ => by
    rw [hnext, hdelivers]
  rcases hl.of_canceled hf turn canceled with rfl | rfl
  · exact ⟨.inl rfl, by simp [hout], hnow⟩
  · refine ⟨.inl ?_, fun o ho => .inl ?_, hnow⟩
    · simp [Story.called, Story.calls, Story.deliver, Story.look, Question.isCall, callsOf]
    · rw [hdelivers] at ho
      exact List.mem_singleton.mp ho

/-- Cancellation is prompt. -/
theorem TurnsCanceled.prompt {P : Program S σ} {r : Origin S} {s s' : State S σ}
    {st st' : Story S} {c : Connection} {stack : CallStack (Frame S)}
    (h : TurnsCanceled P r s st c stack) (hout : st.outcomes = [])
    (hl : Leads P r s st s' st') (hstays : ¬Moves st st') : Prompt r stack s st st' := by
  cases h with
  | @becomes s st c stack hf active before after =>
      cases s with
      | returned w =>
          rw [State.next, before] at after
          cases after
      | unwound w payload =>
          rw [State.next, before] at after
          cases after
      | running w top rest =>
          -- The step is one of code that cancels, so no loop of the run has the turn.
          have hcancels : State.Cancels c top := by
            apply Classical.byContradiction
            intro hnot
            rw [State.next, State.isCanceled_work P top c hnot] at after
            rw [State.world_running, after] at before
            cases before
          have hsame : st.next r.depth (.running w top rest) = st :=
            st.next_cancels r.depth w hcancels rest
          have hf' := hf.next
          rw [hsame] at hf' hout hl hstays ⊢
          cases hlost : st.lost with
          | true =>
              obtain ⟨-, hpending, -, hstill⟩ := hf'.tracks.still_of_lost hlost
              obtain ⟨rfl, -⟩ := hl.unchanged hstill (.inr hlost)
              exact ⟨.inl rfl, by simp [hout], fun hnone => absurd hnone hpending⟩
          | false =>
              rcases hf.tracks.of_active active hout hlost with
                ⟨_, act, _, run, m, hs, stands, -⟩ | ⟨q, next, hq, hgoes, hlook, proceeds⟩
              · cases hs
                obtain ⟨α, holder, next, rfl⟩ := hcancels
                cases holder <;> cases stands
              · exact hf'.prompt_of_pending hl hout after hq hgoes hlook proceeds hstays
  | meets hf turn canceled => exact hf.prompt_of_meeting hl hout turn canceled

/-! ## A host that cancels -/

namespace Revoke

/-- The names of a host whose delayed code cancels the connection that it names. -/
def closures : Closures where
  Thunk := Empty
  Delay := Connection
  Registration := Empty
  Body := Empty
  Bind := Unit
  Map := Empty
  Handler := Empty
  Rescue := Empty
  Modify := Empty
  Restore := Empty
  Token := Empty
  Terminal := Unit
  Task := Empty
  Executor := Empty

/-- The code of that host. -/
def program : Program closures Unit where
  thunk := nofun
  delay c := .command (.cancel c) fun _ => .done (.ok .null)
  registration := nofun
  body := nofun
  bind _ v := .done (.pure v)
  map := nofun
  handler := nofun
  rescue := nofun
  modify := nofun
  restore := nofun
  token := nofun
  terminal _ _ := .done ()
  task := nofun
  executor := nofun
  observe _ host := host

/-- The first cancelable connection. -/
def first : Connection :=
  .cancelable 0

/-- A run of an effect on the first cancelable connection, with the code that has started it
below. -/
def origin (e : Effect closures) : Origin closures where
  effect := e
  connection := first
  stack := .empty
  terminal := .user ()
  depth := 1

/-- The code that creates the connection and starts the run. -/
def code (e : Effect closures) : Code closures Unit Unit :=
  .query .newConnection fun c => .perform (.run e c (.user ()))

/-- So many steps of a run on that host, with their story. -/
def play (e : Effect closures) (n : Nat) : State closures Unit × Story closures :=
  chronicle program 1 n
    (.running (((State.start (.initial () "main") (code e)).next program).next program).world
      (origin e).activation [.code (.done ())], .beginning)

/-- These are steps of a run. -/
theorem follows_play (e : Effect closures) (n : Nat) :
    Follows program (origin e) (play e n).1 (play e n).2 :=
  Follows.chronicle (.start (.next (.next (.start () "main" (code e)))) rfl) n

/-- The delayed code cancels the connection of its own run and comes back with a value: the
code after the value is started, and then the run delivers its cancellation. -/
theorem prompt_delay :
    (play (.bind (.delay first) (.bind (.user ()))) 3).2.called = [.delay first] ∧
      (play (.bind (.delay first) (.bind (.user ()))) 8).2.called =
        [.delay first, .bind () .null] ∧
      (play (.bind (.delay first) (.bind (.user ()))) 8).2.outcomes = [.error .cancelled] ∧
      Prompt (origin (.bind (.delay first) (.bind (.user ())))) (.push .empty (.bind (.user ())))
        (play (.bind (.delay first) (.bind (.user ()))) 3).1
        (play (.bind (.delay first) (.bind (.user ()))) 3).2
        (play (.bind (.delay first) (.bind (.user ()))) 8).2 := by
  have hbecomes : TurnsCanceled program (origin (.bind (.delay first) (.bind (.user ()))))
      (play (.bind (.delay first) (.bind (.user ()))) 3).1
      (play (.bind (.delay first) (.bind (.user ()))) 3).2 first
      (.push .empty (.bind (.user ()))) :=
    .becomes (follows_play _ 2) (.inl ⟨[], _, _, rfl, _, rfl, rfl, rfl, rfl, rfl⟩) rfl rfl
  have hstays : ¬Moves (play (.bind (.delay first) (.bind (.user ()))) 3).2
      (play (.bind (.delay first) (.bind (.user ()))) 8).2 := by
    rintro ⟨q, a, new, hq, hswitches, -⟩
    cases hq
    exact hswitches
  exact ⟨rfl, rfl, rfl, hbecomes.prompt rfl (Leads.now.chronicle 5) hstays⟩

end Revoke

end Trampoline
