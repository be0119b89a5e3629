import Trampoline.Proofs.Tokens.Ledger

/-!
# The fate of a token

Each token that is pushed on a cancelable connection is, at every moment of every history, in one
place: registered, handed out by a pop, run by the connection, or taken by a cancellation that has
still to run it; and when the machine comes to its end, none of the last kind is left.

A cancellation runs its tokens one after the other, and what a token does comes in between: it may
push, pop and cancel, on the same connection or on others, and so may the tokens that run because
of that.  None of this changes what the first cancellation of a connection has to run.

Main definitions and results:

- Definition `LeadsWithLedger`: a part of a history, in which no panic leaves a token that a
  cancellation runs.
- Theorem `Ledger.Tells.next`: a step of the machine does what the ledger says.
- Theorem `LeadsWithLedger.accounted`: each token has one fate, and comes to it once; what the first
  cancellation, the pushes after it, and the pops do; and what stays as it is.
-/

namespace Trampoline

variable {S : Closures} {σ : Type}

/-- From one moment of a history, and its ledger, to another, with more code of the host whenever
the machine has come to its end.  No panic leaves a token that a cancellation runs. -/
inductive LeadsWithLedger (P : Program S σ) (s : State S σ) (g : Ledger S) :
    State S σ → Ledger S → Prop
  | now : LeadsWithLedger P s g s g
  | next {s' : State S σ} {g' : Ledger S} (h : LeadsWithLedger P s g s' g')
      (hb : s'.breaks P = false) : LeadsWithLedger P s g (s'.next P) (g'.next s')
  | again {s' : State S σ} {g' : Ledger S} (h : LeadsWithLedger P s g s' g')
      (hs : s'.activations = []) (code : Code S σ Unit) :
      LeadsWithLedger P s g (.start s'.world code) g'

namespace Ledger

variable {g : Ledger S}

/-! ## A step -/

section

variable {P : Program S σ} {s : State S σ}

theorem next_of_access {w : World S σ} {top : Activation S σ} {rest : List (Activation S σ)}
    {x : Access S} (h : top.access? = some x) : g.next (.running w top rest) = g.enter x := by
  cases top with
  | tokens pending => cases h
  | _ => simp only [next, h]

theorem next_of_aloof {w : World S σ} {top : Activation S σ} {rest : List (Activation S σ)}
    (hp : top.pending? = none) (h : top.access? = none) : g.next (.running w top rest) = g := by
  cases top with
  | tokens pending => cases hp
  | _ => simp only [next, h]

variable {w : World S σ} {top : Activation S σ} {rest : List (Activation S σ)}

theorem Shows.hides_rest (h : g.Shows (.running w top rest)) :
    ∀ a ∈ rest, a.pending? = none → a.Plain :=
  fun a ha => h.hides a (by simp [ha])

/-- What the cancellations owe before the step of an activation that is none. -/
theorem Shows.owed_rest (h : g.Shows (.running w top rest)) (hp : top.pending? = none) :
    Owed g.accounts g.cancels (rest.filterMap Activation.pending?) := by
  have howed := h.owed
  rwa [State.cancellations, State.activations_running, List.filterMap_cons_none hp] at howed

/-- What they owe before the step of a cancellation. -/
theorem Shows.owed_tokens {pending : List S.Token}
    (h : g.Shows (.running w (.tokens pending) rest)) :
    Owed g.accounts g.cancels (pending :: rest.filterMap Activation.pending?) := by
  have howed := h.owed
  rw [State.cancellations, State.activations_running] at howed
  exact howed

/-- A request about the table does what the ledger says. -/
theorem Shows.request (h : g.Shows (.running w top rest))
    (hb : (State.running w top rest).breaks P = false) {x : Access S}
    (hx : top.access? = some x) :
    (g.enter x).Shows ((State.running w top rest).next P) := by
  have hp : top.pending? = none := by
    cases top with
    | tokens pending => cases hx
    | _ => rfl
  have haccesses : State.Accesses P w x (State.work P w [] top) :=
    State.work_accesses (h.hides top (by simp) hp) hx
  refine ⟨?_, ?_, State.hides_next h.hides_rest haccesses.hides⟩
  · rw [State.next_running, State.world_onto]
    exact h.table.enter haccesses
  · rw [State.cancellations_next hb]
    exact owed_enter (h.owed_rest hp) h.table haccesses

/-- A step without one changes nothing that the ledger knows of. -/
theorem Shows.aloof (h : g.Shows (.running w top rest))
    (hb : (State.running w top rest).breaks P = false) (hp : top.pending? = none)
    (hx : top.access? = none) : g.Shows ((State.running w top rest).next P) := by
  have hnone : (State.work P w [] top).Plain := State.plain_work (h.hides top (by simp) hp) hx
  refine ⟨?_, ?_, State.hides_next h.hides_rest fun a ha _ => hnone a ha⟩
  · rw [State.next, State.connections_work hx]
    exact h.table
  · rw [State.cancellations_next hb, hnone.cancellations]
    exact h.owed_rest hp

/-- A cancellation that has run its tokens returns. -/
theorem Shows.done (h : g.Shows (.running w (.tokens []) rest)) :
    g.proceed.Shows ((State.running w (.tokens []) rest).next P) := by
  obtain ⟨more, hproceed, hmore, -⟩ := proceed_done h.owed_tokens
  refine ⟨?_, ?_, ?_⟩
  · rw [State.next, State.work, State.world_resume, hproceed]
    exact ⟨h.table.created, h.table.unknown, h.table.tells⟩
  · rw [State.next, State.work, State.cancellations, State.activations_resume, hproceed]
    exact hmore
  · rw [State.next, State.work, State.activations_resume]
    exact h.hides_rest

/-- A cancellation turns to the next of its tokens. -/
theorem Shows.turns {token : S.Token} {pending : List S.Token}
    (h : g.Shows (.running w (.tokens (token :: pending)) rest)) :
    g.proceed.Shows ((State.running w (.tokens (token :: pending)) rest).next P) := by
  obtain ⟨c, n, numbers, more, hcancels, htoken, hproceed, howed⟩ := proceed_next h.owed_tokens
  have hrun : (g.amend c (·.run n)).Matches w.connections := Matches.run h.table n
  rw [hproceed]
  refine ⟨?_, ?_, ?_⟩
  · exact ⟨hrun.created, hrun.unknown, hrun.tells⟩
  · exact howed.grows (grows_amend fun a => .run a n)
  · intro a ha
    rcases List.mem_cons.mp ha with rfl | ha
    · exact fun _ => Activation.plain_code _
    · rcases List.mem_cons.mp ha with rfl | ha
      · exact fun hp => by cases hp
      · exact h.hides_rest a ha

end

variable {P : Program S σ} {s : State S σ}

/-- A step that breaks no cancellation off leaves the table and the control stack as the ledger
says. -/
theorem Shows.next (h : g.Shows s) (hb : s.breaks P = false) : (g.next s).Shows (s.next P) := by
  cases s with
  | returned w => exact h
  | unwound w payload => exact h
  | running w top rest =>
      cases hp : top.pending? with
      | none =>
          cases hx : top.access? with
          | none =>
              rw [next_of_aloof hp hx]
              exact h.aloof hb hp hx
          | some x =>
              rw [next_of_access hx]
              exact h.request hb hx
      | some pending =>
          cases top with
          | tokens pending =>
              cases pending with
              | nil => exact h.done
              | cons token pending => exact h.turns
          | _ => cases hp

/-- A step keeps the books balanced, even if more cancellations are on them than those in
progress. -/
theorem balanced_next {below : List (List S.Token)} (hm : g.Matches s.world.connections)
    (howed : Owed g.accounts g.cancels (s.cancellations ++ below))
    (hg : ∀ c, (g.accounts c).Balanced (g.due c)) (c : Connection) :
    ((g.next s).accounts c).Balanced ((g.next s).due c) := by
  cases s with
  | returned w => exact hg c
  | unwound w payload => exact hg c
  | running w top rest =>
      cases hp : top.pending? with
      | none =>
          cases hx : top.access? with
          | none =>
              rw [next_of_aloof hp hx]
              exact hg c
          | some x =>
              rw [next_of_access hx]
              exact balanced_enter hm hg x c
      | some pending =>
          cases top with
          | tokens pending =>
              cases pending with
              | nil =>
                  obtain ⟨more, hproceed, -, hdue⟩ := proceed_done howed
                  rw [Ledger.next, hdue, hproceed]
                  exact hg c
              | cons token pending =>
                  obtain ⟨d, n, numbers, more, hcancels, htoken, hproceed, -⟩ :=
                    proceed_next howed
                  rw [Ledger.next, hproceed]
                  exact balanced_run hm hg hcancels htoken c
          | _ => cases hp

/-- A step of the machine does what the ledger says. -/
theorem Tells.next (h : g.Tells s) (hb : s.breaks P = false) : (g.next s).Tells (s.next P) := by
  have hnext := h.shows.next hb
  have howed : Owed g.accounts g.cancels (s.cancellations ++ []) := by simpa using h.owed
  exact ⟨hnext.table, hnext.owed, balanced_next h.table howed h.balanced, hnext.hides⟩

/-- Before anything has happened. -/
theorem tells_start (host : σ) (thread : String) (code : Code S σ Unit) :
    (empty : Ledger S).Tells (.start (.initial host thread) code) where
  table := {
    created := rfl
    unknown := fun _ _ => rfl
    tells := fun c s hs => by
      cases c with
      | uncancelable => cases hs
      | cancelable i =>
          simp [State.start, State.world, World.initial, Connections.state?,
            Connections.empty] at hs }
  owed := rfl
  balanced := fun _ => .empty
  hides := fun a ha => by
    rw [List.mem_singleton.mp ha]
    exact fun _ => Activation.plain_code code

/-- A machine that has come to its end has no cancellation in progress. -/
theorem Shows.cancels_eq_nil (h : g.Shows s) (hs : s.activations = []) : g.cancels = [] := by
  have howed := h.owed
  rw [State.cancellations, hs] at howed
  simpa [Owed] using howed

/-- The host gives more code to a machine that has come to its end. -/
theorem Shows.again (h : g.Shows s) (hs : s.activations = []) (code : Code S σ Unit) :
    g.Shows (.start s.world code) where
  table := h.table
  owed := by
    rw [h.cancels_eq_nil hs]
    rfl
  hides := fun a ha => by
    rw [List.mem_singleton.mp ha]
    exact fun _ => Activation.plain_code code

theorem Tells.again (h : g.Tells s) (hs : s.activations = []) (code : Code S σ Unit) :
    g.Tells (.start s.world code) :=
  have hshows := h.shows.again hs code
  ⟨hshows.table, hshows.owed, h.balanced, hshows.hides⟩

end Ledger

/-- Throughout a history the machine does what the ledger says. -/
theorem LeadsWithLedger.tells {P : Program S σ} {s s' : State S σ} {g g' : Ledger S}
    (h : LeadsWithLedger P s g s' g') (hg : g.Tells s) : g'.Tells s' := by
  induction h with
  | now => exact hg
  | next h hb ih => exact ih.next hb
  | again h hs code ih => exact ih.again hs code

/-! ## The law of tokens -/

namespace Ledger

variable {P : Program S σ} {s : State S σ} {g : Ledger S}

/-- A request changes no account but that of its connection. -/
theorem accounts_enter {x : Access S} {c : Connection} (h : x.on? ≠ some c) :
    (g.enter x).accounts c = g.accounts c := by
  have hne : ∀ d, Access.on? x = some d → c ≠ d := by
    rintro d hd rfl
    exact h hd
  cases x with
  | create => rfl
  | push d token => exact accounts_amend_of_ne (hne d rfl)
  | pop d => exact accounts_amend_of_ne (hne d rfl)
  | cancel d => exact accounts_amend_of_ne (f := (·.cancel)) (hne d rfl)

/-- A cancellation changes no account but that of its connection. -/
theorem accounts_proceed {c : Connection} (h : g.cancels.head?.map (·.1) ≠ some c) :
    g.proceed.accounts c = g.accounts c := by
  unfold proceed
  split
  · next d n rest more hcancels =>
      rw [hcancels] at h
      exact accounts_amend_of_ne (f := (·.run n)) fun hcd => h (congrArg some hcd.symm)
  · rfl
  · rfl

/-- Only the account of the connection that a step is about changes. -/
theorem accounts_next {c : Connection} (h : g.about? s ≠ some c) :
    (g.next s).accounts c = g.accounts c := by
  cases s with
  | returned w => rfl
  | unwound w payload => rfl
  | running w top rest =>
      cases hp : top.pending? with
      | none =>
          cases hx : top.access? with
          | none => rw [next_of_aloof hp hx]
          | some x =>
              have habout : g.about? (.running w top rest) = x.on? := by
                cases top with
                | tokens pending => cases hx
                | _ => simp only [about?, hx, Option.bind_some]
              rw [next_of_access hx]
              exact accounts_enter (habout ▸ h)
      | some pending =>
          cases top with
          | tokens pending => exact accounts_proceed h
          | _ => cases hp

/-- What is entered stays. -/
theorem grows_next (g : Ledger S) (s : State S σ) (c : Connection) :
    (g.accounts c).Grows ((g.next s).accounts c) := by
  cases s with
  | returned w => exact .refl _
  | unwound w payload => exact .refl _
  | running w top rest =>
      cases hp : top.pending? with
      | none =>
          cases hx : top.access? with
          | none =>
              rw [next_of_aloof hp hx]
              exact .refl _
          | some x =>
              rw [next_of_access hx]
              exact grows_enter x c
      | some pending =>
          cases top with
          | tokens pending =>
              simp only [next, proceed]
              split
              · next d n rest more hcancels => exact grows_amend (fun a => .run a n) c
              · exact .refl _
              · exact .refl _
          | _ => cases hp

/-- A connection that has been created stays known. -/
theorem knows_next {c : Connection} (h : g.knows c = true) (s : State S σ) :
    (g.next s).knows c = true := by
  have hcreated : g.created ≤ (g.next s).created := by
    unfold next
    split
    · unfold proceed
      split
      · exact Nat.le_of_eq created_amend.symm
      · exact Nat.le_refl _
      · exact Nat.le_refl _
    · split
      · next x hx =>
          cases x with
          | create => exact Nat.le_succ _
          | push c token => exact Nat.le_of_eq created_amend.symm
          | pop c => exact Nat.le_of_eq created_amend.symm
          | cancel c => exact Nat.le_of_eq created_amend.symm
      · exact Nat.le_refl _
    · exact Nat.le_refl _
  cases c with
  | uncancelable => cases h
  | cancelable i => exact decide_eq_true (Nat.lt_of_lt_of_le (of_decide_eq_true h) hcreated)

end Ledger

/-- What is entered stays for the rest of a history. -/
theorem LeadsWithLedger.grows {P : Program S σ} {s s' : State S σ} {g g' : Ledger S}
    (h : LeadsWithLedger P s g s' g') (c : Connection) : (g.accounts c).Grows (g'.accounts c) := by
  induction h with
  | now => exact .refl _
  | next h hb ih => exact ih.trans (Ledger.grows_next _ _ c)
  | again h hs code ih => exact ih

/-- At the end of a history no token is due. -/
theorem Ledger.Shows.settled {s : State S σ} {g : Ledger S} (h : g.Shows s)
    (hs : s.activations = []) (c : Connection) : g.due c = [] := by
  simp [due, h.cancels_eq_nil hs]

/-- How a machine and its ledger stand at some moment of a history: what has become of the tokens,
what the calls do that may be made at this moment, and what the next step, and all later ones,
leave as it is. -/
structure Accounted (P : Program S σ) (s : State S σ) (g : Ledger S) : Prop where
  /-- Each token that has been pushed on a connection has one fate, and came to it once. -/
  fate : ∀ c n, n < (g.accounts c).pushed.length →
    ∃ fate, ((g.accounts c).met (g.due c) fate).count n = 1 ∧
      ∀ other, other ≠ fate → n ∉ (g.accounts c).met (g.due c) other
  /-- At the end, no token waits for a cancellation to run it. -/
  settled : s.activations = [] → ∀ c, g.due c = []
  /-- Of the tokens pushed before the first cancellation, the connection runs just those that were
  registered then, the newest first. -/
  first : ∀ c k, (g.accounts c).closing = some k → k.taken.Pairwise (· > ·) ∧
    (∀ n ∈ k.taken, n < k.upto) ∧ (g.accounts c).ran.filter (· < k.upto) ++ g.due c = k.taken
  /-- It runs each token pushed after it, in the order of the pushes. -/
  late : ∀ c k, (g.accounts c).closing = some k → (g.accounts c).ran.filter (k.upto ≤ ·) =
    List.range' k.upto ((g.accounts c).pushed.length - k.upto)
  /-- Before it, the connection has run nothing. -/
  early : ∀ c, (g.accounts c).closing = none → (g.accounts c).ran = []
  /-- A cancellation has to run what is registered if it is the first, and nothing if it is not. -/
  cancel : ∀ c rest, ∃ w tokens,
    State.begin P s.world (.cancel c) rest = .running w (.tokens tokens) rest ∧
      (g.accounts c).tokens? (g.accounts c).due = tokens.map some
  /-- A cancellation with tokens to run runs the next of them, and the ledger notes it. -/
  run : ∀ w token pending rest, s = .running w (.tokens (token :: pending)) rest →
    s.next P = .running w (.code (P.token token)) (.tokens pending :: rest) ∧
      ∃ c n, (g.accounts c).pushed[n]? = some token ∧
        (g.next s).accounts c = (g.accounts c).run n
  /-- A push on a canceled connection runs the token at once. -/
  push : ∀ c token rest, (g.accounts c).closing.isSome = true →
    State.begin P s.world (.push c token) rest = .running s.world (.code (P.token token)) rest
  /-- Any other push returns at once. -/
  register : ∀ c token rest, (g.accounts c).closing = none →
    ∃ w, State.begin P s.world (.push c token) rest = .resume w rest
  /-- A pop answers with the newest registered token, and with nothing after the first
  cancellation. -/
  pop : ∀ c, (s.world.answer (.pop c)).2 = (g.accounts c).newest? ∧
    (g.accounts c).registered.Pairwise (· > ·) ∧
      ((g.accounts c).closing.isSome = true → (g.accounts c).newest? = none)
  isCanceled : ∀ c, (s.world.answer (.isCanceled c)).2 = (g.accounts c).closing.isSome
  /-- Nothing is ever pushed on the uncancelable connection. -/
  uncancelable : g.accounts .uncancelable = .empty
  /-- A step that is not about a connection leaves its account and its state as they are. -/
  others : s.breaks P = false → ∀ c, g.about? s ≠ some c →
    (g.next s).accounts c = g.accounts c ∧
      ∀ x, s.world.connections.state? c = some x →
        (s.next P).world.connections.state? c = some x
  /-- What has become of a token, and that a connection is canceled, is final. -/
  onward : ∀ s' g', LeadsWithLedger P s g s' g' → ∀ c, (g.accounts c).Grows (g'.accounts c) ∧
    (s.world.connections.isCanceled c = true → s'.world.connections.isCanceled c = true)

namespace Ledger.Tells

variable {P : Program S σ} {s : State S σ} {g : Ledger S}

/-- A pop answers with the newest token of the account. -/
theorem pop_eq (h : g.Tells s) (c : Connection) :
    (s.world.connections.pop c).2 = (g.accounts c).newest? := by
  unfold Connections.pop
  cases hc : s.world.connections.state? c with
  | some x =>
      rw [(h.table.tells c x hc).newest?_eq]
      cases x with
      | mk canceled tokens => cases tokens <;> rfl
  | none =>
      have hunknown : g.knows c = false := by
        rw [knows_eq h.table.created, hc]
        rfl
      rw [h.table.unknown c hunknown]
      rfl

/-- What becomes of a token that is pushed now. -/
theorem push_eq (h : g.Tells s) (c : Connection) (token : S.Token) :
    if (g.accounts c).closing.isSome = true then s.world.connections.push c token = .due
    else ∃ table, s.world.connections.push c token = .kept table := by
  rw [← h.table.isCanceled_eq c, Connections.isCanceled]
  unfold Connections.push
  cases s.world.connections.state? c with
  | some x => cases hx : x.canceled <;> simp [hx]
  | none => simp

/-- A step that is not about a connection leaves its state as it is. -/
theorem state?_next (h : g.Tells s) (hb : s.breaks P = false) {c : Connection}
    (hc : g.about? s ≠ some c) {x : ConnectionState S.Token}
    (hx : s.world.connections.state? c = some x) :
    (s.next P).world.connections.state? c = some x := by
  have hnext := h.next hb
  have hknows : (g.next s).knows c = true := by
    refine knows_next ?_ s
    rw [knows_eq h.table.created, hx]
    rfl
  rw [knows_eq hnext.table.created, Option.isSome_iff_exists] at hknows
  obtain ⟨y, hy⟩ := hknows
  -- One account tells both states.
  have htells := h.table.tells c x hx
  have htells' := hnext.table.tells c y hy
  rw [accounts_next hc] at htells'
  have htokens : y.tokens = x.tokens := by
    have hmap := htells'.tokens.symm.trans htells.tokens
    exact (List.map_inj_right fun _ _ => Option.some.inj).mp hmap
  have hcanceled : y.canceled = x.canceled := htells'.canceled.trans htells.canceled.symm
  rw [hy]
  cases x
  cases y
  simp_all

end Ledger.Tells

/-- Each token that is pushed on a cancelable connection has one fate, and comes to it once. -/
theorem LeadsWithLedger.accounted {P : Program S σ} {host : σ} {thread : String}
    {code : Code S σ Unit} {s : State S σ} {g : Ledger S}
    (h : LeadsWithLedger P (.start (.initial host thread) code) .empty s g) : Accounted P s g := by
  have htells : g.Tells s := h.tells (Ledger.tells_start host thread code)
  refine {
    fate := fun c n hn => (htells.balanced c).one_fate hn
    settled := htells.shows.settled
    first := fun c k => (htells.balanced c).taken k
    late := fun c k hk => ((htells.balanced c).late k hk).2
    early := fun c hk => ((htells.balanced c).opened hk).1
    cancel := fun c rest => ⟨_, _, rfl, htells.table.due⟩
    run := ?_
    push := fun c token rest hk => ?_
    register := fun c token rest hk => ?_
    pop := fun c => ⟨htells.pop_eq c, (htells.balanced c).newest, fun hk => ?_⟩
    isCanceled := htells.table.isCanceled_eq
    uncancelable := htells.table.unknown .uncancelable rfl
    others := fun hb c hc => ⟨Ledger.accounts_next hc, fun x => htells.state?_next hb hc⟩
    onward := fun s' g' h' c => ⟨h'.grows c, fun hc => ?_⟩ }
  · rintro w token pending rest rfl
    obtain ⟨c, n, numbers, more, -, htoken, hproceed, -⟩ :=
      Ledger.proceed_next htells.shows.owed_tokens
    refine ⟨rfl, c, n, htoken, ?_⟩
    rw [Ledger.next, hproceed]
    exact Ledger.accounts_amend_self (f := (·.run n)) (htells.table.knows_of_pushed htoken)
  · have hpush := htells.push_eq c token
    rw [if_pos hk] at hpush
    simp only [State.begin, hpush]
  · have hpush := htells.push_eq c token
    rw [hk, if_neg (by simp)] at hpush
    obtain ⟨table, hpush⟩ := hpush
    exact ⟨{ s.world with connections := table }, by simp only [State.begin, hpush]⟩
  · obtain ⟨k, hk⟩ := Option.isSome_iff_exists.mp hk
    rw [Account.newest?, (htells.balanced c).emptied k hk]
    rfl
  · rw [htells.table.isCanceled_eq, Option.isSome_iff_exists] at hc
    obtain ⟨k, hk⟩ := hc
    rw [(h'.tells htells).table.isCanceled_eq, (h'.grows c).closing k hk]
    rfl

/-! ## A token that meddles -/

/-- So many steps of a machine, with its ledger. -/
def keep (P : Program S σ) (s : State S σ) (g : Ledger S) : Nat → State S σ × Ledger S
  | 0 => (s, g)
  | n + 1 => ((keep P s g n).1.next P, (keep P s g n).2.next (keep P s g n).1)

theorem LeadsWithLedger.steps {P : Program S σ} {s : State S σ} {g : Ledger S} {n : Nat}
    (h : ∀ k < n, (keep P s g k).1.breaks P = false) :
    LeadsWithLedger P s g (keep P s g n).1 (keep P s g n).2 := by
  induction n with
  | zero => exact .now
  | succ n ih => exact .next (ih fun k hk => h k (Nat.lt_succ_of_lt hk)) (h n (Nat.lt_succ_self n))

/-- The tokens of a host. -/
inductive Crossfire where
  /-- Do nothing. -/
  | keepsQuiet
  /-- Push on one connection, pop from it and cancel it, and push on another and cancel that. -/
  | meddles (c d : Connection)

namespace Crossfire

/-- The only closures of that host are its tokens. -/
def closures : Closures where
  Thunk := Empty
  Delay := Empty
  Registration := Empty
  Body := Empty
  Bind := Empty
  Map := Empty
  Handler := Empty
  Rescue := Empty
  Modify := Empty
  Restore := Empty
  Token := Crossfire
  Terminal := Empty
  Task := Empty
  Executor := Empty

/-- The code of that host. -/
def program : Program closures Unit where
  thunk := nofun
  delay := nofun
  registration := nofun
  body := nofun
  bind := nofun
  map := nofun
  handler := nofun
  rescue := nofun
  modify := nofun
  restore := nofun
  token
    | keepsQuiet => .done ()
    | meddles c d =>
      .command (.push c keepsQuiet) fun _ => .query (.pop c) fun _ => .command (.cancel c) fun _ =>
        .command (.push d keepsQuiet) fun _ => .perform (.cancel d)
  terminal := nofun
  task := nofun
  executor := nofun
  observe _ host := host

/-- Two connections.  On the first of them, three tokens are pushed and one is popped; then it is
canceled. -/
def code : Code closures Unit Unit :=
  .query .newConnection fun c => .query .newConnection fun d =>
    .command (.push c keepsQuiet) fun _ => .command (.push c (meddles c d)) fun _ =>
      .command (.push c keepsQuiet) fun _ => .query (.pop c) fun _ => .perform (.cancel c)

/-- So many steps of that host. -/
def play (n : Nat) : State closures Unit × Ledger closures :=
  keep program (.start (.initial () "main") code) .empty n

/-- What is registered when the connection is canceled runs, the newest first; what the token
pushes in between runs at once. -/
theorem accounted_crossfire :
    (∀ k < 24, (play k).1.breaks program = false) ∧ (play 24).1.activations = [] ∧
      ((play 24).2.accounts (.cancelable 0)).handed = [2] ∧
      ((play 24).2.accounts (.cancelable 0)).closing = some ⟨3, [1, 0]⟩ ∧
      ((play 24).2.accounts (.cancelable 0)).ran = [1, 3, 0] ∧
      ((play 24).2.accounts (.cancelable 1)).ran = [0] ∧
      Accounted program (play 24).1 (play 24).2 := by
  have hquiet : ∀ k < 24, (play k).1.breaks program = false := by decide
  exact ⟨hquiet, rfl, rfl, rfl, rfl, rfl, (LeadsWithLedger.steps hquiet).accounted⟩

end Crossfire

end Trampoline
