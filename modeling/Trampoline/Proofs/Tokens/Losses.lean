import Trampoline.Proofs.Tokens.Fates

/-!
# Tokens lost to a panic

A cancellation holds the tokens that it has taken, and runs one after the other.  A panic that
leaves one of them leaves the cancellation too: it goes on in the code that canceled, and the
tokens that were still to run are gone, while the connection says that it has been canceled.  No
later call brings them back.

The ledger of a history in which tokens may panic has one more page, on which the cancellations
stand that were broken off.

Main definitions and results:

- Definitions `Docket`, `Docket.next`: a ledger and the cancellations that were broken off, and
  what one step of the machine enters.
- Definition `LeadsWithDocket`: a part of a history, with any panics.
- Theorem `Docket.Tells.next`: a step of the machine does what the docket says.
- Theorem `LeadsWithDocket.reckoned`: each token that is pushed is registered, handed out, run, due
  or lost; lost are just the tokens older than one that panicked, and for good.
-/

namespace Trampoline

variable {S : Closures} {σ : Type}

/-- A connection that has been canceled has no tokens left to run. -/
theorem Connections.cancel_of_isCanceled {τ : Type} {table : Connections τ} {c : Connection}
    (h : table.isCanceled c = true) : table.cancel c = (table, []) := by
  unfold isCanceled at h
  unfold cancel
  split at h
  · next s hs => rw [if_pos h]
  · cases h

/-! ## A step that breaks a cancellation off -/

namespace State

variable {P : Program S σ}

/-- A panic that leaves a token goes on in the code that canceled. -/
theorem eq_of_breaks {s : State S σ} (hb : s.breaks P = true) :
    ∃ w top pending rest w' payload, s = running w top (.tokens pending :: rest) ∧
      work P w [] top = unwound w' payload ∧
        s.next P = running w' (.code (.panic payload)) rest := by
  unfold breaks at hb
  split at hb
  · next w top pending rest =>
      split at hb
      · next w' payload hwork =>
          refine ⟨w, top, pending, rest, w', payload, rfl, hwork, ?_⟩
          rw [next_running, hwork]
          rfl
      · cases hb
  · cases hb

/-- The code that panics is no cancellation, and asks nothing of the table. -/
theorem aloof_of_unwound {w w' : World S σ} {top : Activation S σ} {payload : Payload}
    (hplain : top.pending? = none → top.Plain) (h : work P w [] top = unwound w' payload) :
    top.pending? = none ∧ top.access? = none := by
  have hp : top.pending? = none := by
    cases top with
    | tokens pending => cases pending <;> cases h
    | _ => rfl
  refine ⟨hp, ?_⟩
  cases hx : top.access? with
  | none => rfl
  | some x =>
      have haccesses : Accesses P w x (work P w [] top) := work_accesses (hplain hp) hx
      rw [h] at haccesses
      cases haccesses

end State

/-! ## The docket -/

/-- A ledger, and the cancellations that panics have broken off, each with the tokens that it had
still to run. -/
structure Docket (S : Closures) where
  ledger : Ledger S
  broken : List (Connection × List Nat)

/-- What may have become of a token, if tokens may panic. -/
inductive Lot where
  | met (fate : Fate)
  /-- The cancellation that had taken the token was broken off before it ran it. -/
  | lost
deriving DecidableEq

namespace Docket

/-- No connection has been created. -/
def empty : Docket S where
  ledger := .empty
  broken := []

/-- Enter what the next step of the machine does.  A panic that leaves a token breaks the innermost
cancellation off. -/
def next (P : Program S σ) (k : Docket S) (s : State S σ) : Docket S :=
  if s.breaks P then
    ⟨{ k.ledger with cancels := k.ledger.cancels.tail }, k.ledger.cancels.take 1 ++ k.broken⟩
  else ⟨k.ledger.next s, k.broken⟩

/-- The tokens of a connection that a cancellation had taken when it was broken off. -/
def lost (k : Docket S) (c : Connection) : List Nat :=
  (k.broken.filter (·.1 = c)).flatMap (·.2)

/-- The tokens of a connection with a lot. -/
def share (k : Docket S) (c : Connection) : Lot → List Nat
  | .met fate => (k.ledger.accounts c).met (k.ledger.due c) fate
  | .lost => k.lost c

/-- The ledger, if the cancellations that were broken off were still to be gone on with. -/
def whole (k : Docket S) : Ledger S :=
  { k.ledger with cancels := k.ledger.cancels ++ k.broken }

/-- What a docket holds due has still to run or is lost. -/
theorem due_whole (k : Docket S) (c : Connection) :
    k.whole.due c = k.ledger.due c ++ k.lost c := by
  simp [whole, Ledger.due, lost]

end Docket

namespace Ledger

variable {g : Ledger S}

/-- One of two cancellations has no token of the same connection left. -/
def Apart (d e : Connection × List Nat) : Prop :=
  d.1 = e.1 → d.2 = [] ∨ e.2 = []

/-- It does not matter in which order two cancellations are named. -/
theorem Apart.symm {d e : Connection × List Nat} (h : Apart d e) : Apart e d :=
  fun he => (h he.symm).symm

/-- Nothing is due of a connection without cancellations. -/
theorem due_eq_nil {c : Connection} (h : ∀ e ∈ g.cancels, e.1 = c → e.2 = []) : g.due c = [] := by
  refine List.flatMap_eq_nil_iff.mpr fun e he => ?_
  obtain ⟨hmem, hc⟩ := List.mem_filter.mp he
  exact h e hmem (of_decide_eq_true hc)

/-- What is due stays so when cancellations of different connections change places. -/
theorem due_insert {d : Connection × List Nat} {front back : List (Connection × List Nat)}
    (h : ∀ e ∈ front, Apart d e) (c : Connection) :
    ({ g with cancels := front ++ d :: back } : Ledger S).due c =
      ({ g with cancels := d :: (front ++ back) } : Ledger S).due c := by
  by_cases hc : d.1 = c
  · by_cases hd : d.2 = []
    · simp [due, hc, hd]
    · have hfront : ({ g with cancels := front } : Ledger S).due c = [] :=
        due_eq_nil fun e he hec => (h e he (hc.trans hec.symm)).resolve_left hd
      simp only [due] at hfront
      simp [due, hc, hfront]
  · simp [due, hc]

section

variable {s : State S σ}

/-- A connection has at most one cancellation with tokens left, because the first one takes all. -/
theorem apart_next (h : g.cancels.Pairwise Apart)
    (hg : ∀ c, (g.accounts c).Balanced (g.due c)) : (g.next s).cancels.Pairwise Apart := by
  cases s with
  | returned w => exact h
  | unwound w payload => exact h
  | running w top rest =>
      cases hp : top.pending? with
      | none =>
          cases hx : top.access? with
          | none =>
              rw [next_of_aloof hp hx]
              exact h
          | some x =>
              rw [next_of_access hx]
              cases x with
              | create => exact h
              | push c token => simpa [enter] using h
              | pop c => simpa [enter] using h
              | cancel c =>
                  refine List.pairwise_cons.mpr ⟨fun e he hc => ?_, h⟩
                  cases hk : (g.accounts c).closing with
                  | some k => exact .inl (by simp [Account.due, hk])
                  | none =>
                      have hnil := List.flatMap_eq_nil_iff.mp ((hg c).opened hk).2
                      exact .inr (hnil e (List.mem_filter.mpr ⟨he, decide_eq_true hc.symm⟩))
      | some pending =>
          cases top with
          | tokens pending =>
              simp only [Ledger.next, proceed]
              split
              · next c n numbers more hcancels =>
                  rw [hcancels, List.pairwise_cons] at h
                  refine List.pairwise_cons.mpr ⟨fun e he hc => ?_, h.2⟩
                  exact .inr ((h.1 e he hc).resolve_left (by simp))
              · next hcancels =>
                  rw [hcancels] at h
                  exact (List.pairwise_cons.mp h).2
              · exact h
          | _ => cases hp

/-- The cancellations that wait for a token, or for the next step of one. -/
def waiting (g : Ledger S) : State S σ → List (Connection × List Nat)
  | .running _ (.tokens _) _ => g.cancels.tail
  | _ => g.cancels

/-- The cancellations that wait are among all. -/
theorem waiting_subset (g : Ledger S) (s : State S σ) : g.waiting s ⊆ g.cancels := by
  unfold waiting
  split
  · exact fun _ => List.mem_of_mem_tail
  · exact List.Subset.refl _

/-- All cancellations wait while something else is on top. -/
theorem waiting_eq {w : World S σ} {top : Activation S σ} {rest : List (Activation S σ)}
    (hp : top.pending? = none) : g.waiting (.running w top rest) = g.cancels := by
  cases top with
  | tokens pending => cases hp
  | _ => rfl

end

end Ledger

/-- A connection has been canceled, and has run a token that was registered then. -/
def Account.Begun {τ : Type} (a : Account τ) : Prop :=
  ∃ k n, a.closing = some k ∧ n ∈ a.ran ∧ n < k.upto

/-- An account whose cancellation has begun stays so. -/
theorem Account.Begun.grows {τ : Type} {a a' : Account τ} (h : a.Begun) (hgrows : a.Grows a') :
    a'.Begun := by
  obtain ⟨k, n, hk, hn, hlt⟩ := h
  exact ⟨k, n, hgrows.closing k hk, hgrows.ran.subset hn, hlt⟩

/-- A cancellation that runs a token has begun. -/
theorem Account.Balanced.begun_run {τ : Type} {a : Account τ} {n : Nat} {due : List Nat}
    (h : a.Balanced (n :: due)) : (a.run n).Begun := by
  cases hk : a.closing with
  | none => cases (h.opened hk).2
  | some k =>
      obtain ⟨-, hlt, hran⟩ := h.taken k hk
      exact ⟨k, n, hk, by simp [Account.run], hlt n (by rw [← hran]; simp)⟩

namespace Ledger

variable {P : Program S σ} {g : Ledger S} {s : State S σ}

/-- A panic that leaves a token takes the innermost cancellation with it, and nothing else. -/
theorem Shows.breaks (h : g.Shows s) (hb : s.breaks P = true) :
    ∃ w payload rest c left more, ∃ pending : List S.Token,
      s.next P = .running w (.code (.panic payload)) rest ∧ g.cancels = (c, left) :: more ∧
        (g.accounts c).tokens? left = pending.map some ∧ g.waiting s = g.cancels ∧
          ({ g with cancels := more } : Ledger S).Shows (s.next P) := by
  obtain ⟨w, top, pending, rest, w', payload, rfl, hwork, hnext⟩ := State.eq_of_breaks hb
  obtain ⟨hp, hx⟩ := State.aloof_of_unwound (h.hides top (by simp)) hwork
  obtain ⟨c, left, more, hcancels, hleft, hmore⟩ := (h.owed_rest hp).innermost
  have hsame : (State.work P w [] top).world.connections = w.connections :=
    State.connections_work hx
  rw [hwork] at hsame
  refine ⟨w', payload, rest, c, left, more, pending, hnext, hcancels, hleft, waiting_eq hp, ?_⟩
  rw [hnext]
  refine ⟨?_, hmore, fun a ha => ?_⟩
  · have hmatches : g.Matches w'.connections := hsame.symm ▸ h.table
    exact ⟨hmatches.created, hmatches.unknown, hmatches.tells⟩
  · rcases List.mem_cons.mp ha with rfl | ha
    · exact fun _ => Activation.plain_code _
    · exact h.hides a (by simp [ha])

/-- A cancellation that waits has run one of its tokens. -/
theorem Shows.begun_next (h : g.Shows s) {broken : List (Connection × List Nat)}
    (hg : ∀ c, (g.accounts c).Balanced
      (({ g with cancels := g.cancels ++ broken } : Ledger S).due c))
    (hbegun : ∀ d ∈ g.waiting s, d.2 ≠ [] → (g.accounts d.1).Begun) :
    ∀ d ∈ (g.next s).waiting (s.next P), d.2 ≠ [] → ((g.next s).accounts d.1).Begun := by
  have hkept : ∀ d ∈ g.waiting s, d.2 ≠ [] → ((g.next s).accounts d.1).Begun :=
    fun d hd hne => (hbegun d hd hne).grows (grows_next g s d.1)
  cases s with
  | returned w => exact hkept
  | unwound w payload => exact hkept
  | running w top rest =>
      cases hp : top.pending? with
      | none =>
          rw [waiting_eq hp] at hkept
          intro d hd hne
          refine hkept d ?_ hne
          cases hx : top.access? with
          | none =>
              rw [next_of_aloof hp hx] at hd
              exact waiting_subset _ _ hd
          | some x =>
              rw [next_of_access hx] at hd
              cases x with
              | create => exact waiting_subset _ _ hd
              | push c token => simpa [enter] using waiting_subset _ _ hd
              | pop c => simpa [enter] using waiting_subset _ _ hd
              | cancel c =>
                  -- The new cancellation is on top, and does not wait yet.
                  have haccesses : State.Accesses P w (.cancel c) (State.work P w [] top) :=
                    State.work_accesses (h.hides top (by simp) hp) hx
                  rw [State.next_running] at hd
                  generalize State.work P w [] top = s' at haccesses hd
                  cases haccesses
                  exact hd
      | some pending =>
          cases top with
          | tokens pending =>
              cases pending with
              | nil =>
                  obtain ⟨c, numbers, more, hcancels, hnumbers, -⟩ := h.owed_tokens.innermost
                  have hnil : numbers = [] := by simpa [Account.tokens?] using hnumbers
                  subst hnil
                  have hnext : (g.next (.running w (.tokens []) rest)).cancels = more := by
                    simp [Ledger.next, proceed, hcancels]
                  intro d hd hne
                  refine hkept d ?_ hne
                  simpa [hnext, waiting, hcancels] using waiting_subset _ _ hd
              | cons token pending =>
                  obtain ⟨c, n, numbers, more, hcancels, htoken, hproceed, -⟩ :=
                    proceed_next h.owed_tokens
                  intro d hd hne
                  have hd' : d = (c, numbers) ∨ d ∈ more := by
                    have hmem := waiting_subset _ _ hd
                    simpa [Ledger.next, hproceed] using hmem
                  rcases hd' with rfl | hd'
                  · have hc := hg c
                    simp only [due, hcancels, List.cons_append, List.filter_cons, if_true,
                      decide_true, List.flatMap_cons] at hc
                    have haccount : (g.next (.running w (.tokens (token :: pending)) rest)).accounts
                        c = (g.accounts c).run n := by
                      simp only [Ledger.next, hproceed]
                      exact accounts_amend_self (f := (·.run n)) (h.table.knows_of_pushed htoken)
                    rw [haccount]
                    exact hc.begun_run
                  · exact hkept d (by simpa [waiting, hcancels] using hd') hne
          | _ => cases hp

end Ledger

namespace Docket

variable {P : Program S σ} {k : Docket S} {s : State S σ}

/-- A state of the machine is what a docket says, and all books are balanced. -/
structure Tells (k : Docket S) (s : State S σ) : Prop where
  shows : k.ledger.Shows s
  /-- What was broken off had tokens to run. -/
  owed : ∃ below, Ledger.Owed k.ledger.accounts k.broken below
  balanced : ∀ c, (k.ledger.accounts c).Balanced (k.whole.due c)
  apart : k.whole.cancels.Pairwise Ledger.Apart
  begun : ∀ d ∈ k.ledger.waiting s ++ k.broken, d.2 ≠ [] → (k.ledger.accounts d.1).Begun

/-- An entry of the ledger is one of the whole. -/
theorem whole_next (h : k.ledger.Shows s) :
    (⟨k.ledger.next s, k.broken⟩ : Docket S).whole = k.whole.next s := by
  have hamend : ∀ (c : Connection) (f : Account S.Token → Account S.Token),
      (⟨k.ledger.amend c f, k.broken⟩ : Docket S).whole = k.whole.amend c f := by
    intro c f
    have hknows : k.whole.knows c = k.ledger.knows c := by cases c <;> rfl
    unfold Ledger.amend
    rw [hknows]
    split <;> rfl
  cases s with
  | returned w => rfl
  | unwound w payload => rfl
  | running w top rest =>
      cases hp : top.pending? with
      | none =>
          cases hx : top.access? with
          | none => rw [Ledger.next_of_aloof hp hx, Ledger.next_of_aloof hp hx]
          | some x =>
              rw [Ledger.next_of_access hx, Ledger.next_of_access hx]
              cases x with
              | create => rfl
              | push c token => exact hamend c _
              | pop c => exact hamend c _
              | cancel c =>
                  simp only [Ledger.enter, ← hamend]
                  rfl
      | some pending =>
          cases top with
          | tokens pending =>
              obtain ⟨c, numbers, more, hcancels, -⟩ := h.owed_tokens.innermost
              have hwhole : k.whole.cancels = (c, numbers) :: (more ++ k.broken) := by
                rw [whole, hcancels, List.cons_append]
              cases numbers with
              | nil =>
                  simp only [Ledger.next, Ledger.proceed, hcancels, hwhole]
                  rfl
              | cons n numbers =>
                  simp only [Ledger.next, Ledger.proceed, hcancels, hwhole, ← hamend]
                  rfl
          | _ => cases hp

/-- A step that breaks no cancellation off does what the docket says. -/
theorem Tells.goes (h : k.Tells s) (hb : s.breaks P = false) :
    (⟨k.ledger.next s, k.broken⟩ : Docket S).Tells (s.next P) := by
  obtain ⟨below, hbelow⟩ := h.owed
  have howed : Ledger.Owed k.whole.accounts k.whole.cancels (s.cancellations ++ below) := by
    unfold Ledger.Owed
    have hledger := h.shows.owed
    unfold Ledger.Owed at hledger hbelow
    rw [whole, List.map_append, List.map_append, hledger, hbelow]
  have hmatches : k.whole.Matches s.world.connections :=
    ⟨h.shows.table.created, h.shows.table.unknown, h.shows.table.tells⟩
  have hwhole := whole_next h.shows
  refine ⟨h.shows.next hb, ⟨below, Ledger.Owed.grows hbelow (Ledger.grows_next _ _)⟩,
    fun c => ?_, ?_, fun d hd hne => ?_⟩
  · have hbalanced := Ledger.balanced_next hmatches howed h.balanced c
    rwa [← hwhole] at hbalanced
  · rw [hwhole]
    exact Ledger.apart_next h.apart h.balanced
  · rcases List.mem_append.mp hd with hd | hd
    · exact h.shows.begun_next h.balanced
        (fun e he => h.begun e (List.mem_append_left _ he)) d hd hne
    · exact (h.begun d (List.mem_append_right _ hd) hne).grows (Ledger.grows_next _ _ _)

/-- So does one that breaks a cancellation off. -/
theorem Tells.breaks (h : k.Tells s) (hb : s.breaks P = true) : (k.next P s).Tells (s.next P) := by
  obtain ⟨w, payload, rest, c, left, more, pending, hnext, hcancels, hleft, hwaiting, hshows⟩ :=
    h.shows.breaks hb
  obtain ⟨below, hbelow⟩ := h.owed
  have hkept : k.next P s =
      ⟨{ k.ledger with cancels := more }, (c, left) :: k.broken⟩ := by
    simp [next, hb, hcancels]
  have hwhole : k.whole.cancels = (c, left) :: (more ++ k.broken) := by
    rw [whole, hcancels, List.cons_append]
  have hapart := h.apart
  rw [hwhole] at hapart
  have hmoved : ∀ e ∈ more, Ledger.Apart (c, left) e := fun e he =>
    (List.pairwise_cons.mp hapart).1 e (List.mem_append_left _ he)
  rw [hkept]
  refine ⟨hshows, ⟨_, .cons hleft hbelow⟩, fun d => ?_, ?_, fun d hd hne => ?_⟩
  · have hdue :
        (⟨{ k.ledger with cancels := more }, (c, left) :: k.broken⟩ : Docket S).whole.due d =
        k.whole.due d := by
      have hinsert : ({ k.ledger with cancels := more ++ (c, left) :: k.broken } : Ledger S).due d =
          ({ k.ledger with cancels := (c, left) :: (more ++ k.broken) } : Ledger S).due d :=
        Ledger.due_insert hmoved d
      rwa [← hwhole] at hinsert
    rw [hdue]
    exact h.balanced d
  · exact (List.perm_middle.pairwise_iff fun he => he.symm).mpr hapart
  · refine h.begun d ?_ hne
    rw [hwaiting, hcancels]
    rcases List.mem_append.mp hd with hd | hd
    · exact List.mem_append_left _ (.tail _ (Ledger.waiting_subset _ _ hd))
    · rcases List.mem_cons.mp hd with rfl | hd
      · exact List.mem_append_left _ (.head _)
      · exact List.mem_append_right _ hd

/-- A step of the machine does what the docket says. -/
theorem Tells.next (h : k.Tells s) : (k.next P s).Tells (s.next P) := by
  cases hb : s.breaks P with
  | true => exact h.breaks hb
  | false => simpa [Docket.next, hb] using h.goes hb

/-- Before anything has happened. -/
theorem tells_start (host : σ) (thread : String) (code : Code S σ Unit) :
    (empty : Docket S).Tells (.start (.initial host thread) code) where
  shows := (Ledger.tells_start host thread code).shows
  owed := ⟨[], rfl⟩
  balanced := (Ledger.tells_start host thread code).balanced
  apart := .nil
  begun := fun _ hd => by cases hd

/-- The host gives more code to a machine that has come to its end. -/
theorem Tells.again (h : k.Tells s) (hs : s.activations = []) (code : Code S σ Unit) :
    k.Tells (.start s.world code) where
  shows := h.shows.again hs code
  owed := h.owed
  balanced := h.balanced
  apart := h.apart
  begun := fun d hd => by
    have hwaiting : k.ledger.waiting (.start s.world code) = [] := h.shows.cancels_eq_nil hs
    rw [hwaiting] at hd
    exact h.begun d (List.mem_append_right _ hd)

/-! ## The law of tokens, with panics -/

/-- No token of a connection is due if some have been lost. -/
theorem Tells.due_or_lost (h : k.Tells s) (c : Connection) :
    k.ledger.due c = [] ∨ k.lost c = [] := by
  by_cases hlost : ∃ d ∈ k.broken, d.1 = c ∧ d.2 ≠ []
  · obtain ⟨d, hd, hc, hne⟩ := hlost
    refine .inl (Ledger.due_eq_nil fun e he hec => ?_)
    have hapart := (List.pairwise_append.mp h.apart).2.2 e he d hd
    exact (hapart (hec.trans hc.symm)).resolve_right hne
  · refine .inr (List.flatMap_eq_nil_iff.mpr fun d hd => ?_)
    obtain ⟨hmem, hc⟩ := List.mem_filter.mp hd
    exact Decidable.byContradiction fun hne => hlost ⟨d, hmem, of_decide_eq_true hc, hne⟩

/-- The tokens lost are those older than the last one that ran of those taken. -/
theorem Tells.lost_older (h : k.Tells s) {c : Connection} (hc : k.lost c ≠ []) :
    ∃ z front n, (k.ledger.accounts c).closing = some z ∧
      (k.ledger.accounts c).ran.filter (· < z.upto) = front ++ [n] ∧
        z.taken = front ++ n :: k.lost c := by
  have hdue := (h.due_or_lost c).resolve_right hc
  obtain ⟨n, hn⟩ := List.exists_mem_of_ne_nil _ hc
  obtain ⟨d, hd, hnd⟩ := List.mem_flatMap.mp hn
  obtain ⟨hmem, hdc⟩ := List.mem_filter.mp hd
  obtain ⟨z, m, hz, hm, hlt⟩ := h.begun d (List.mem_append_right _ hmem) (List.ne_nil_of_mem hnd)
  rw [of_decide_eq_true hdc] at hz hm
  have hran : m ∈ (k.ledger.accounts c).ran.filter (· < z.upto) :=
    List.mem_filter.mpr ⟨hm, decide_eq_true hlt⟩
  obtain ⟨-, -, htaken⟩ := (h.balanced c).taken z hz
  rw [due_whole, hdue, List.nil_append] at htaken
  rcases List.eq_nil_or_concat ((k.ledger.accounts c).ran.filter (· < z.upto)) with
    hnil | ⟨front, l, hl⟩
  · rw [hnil] at hran
    cases hran
  · refine ⟨z, front, l, hz, by simpa using hl, ?_⟩
    rw [← htaken, hl]
    simp

/-- A token that has been pushed has one lot, and came to it once. -/
theorem Tells.one_lot (h : k.Tells s) (c : Connection) {n : Nat}
    (hn : n < (k.ledger.accounts c).pushed.length) :
    ∃ lot, (k.share c lot).count n = 1 ∧ ∀ other, other ≠ lot → n ∉ k.share c other := by
  have honce := (h.balanced c).once n
  rw [if_pos hn, due_whole, List.count_append] at honce
  have hother : ∀ lot, (k.share c lot).count n = 1 →
      ∀ other, other ≠ lot → n ∉ k.share c other := by
    intro lot hlot other hne
    rw [← List.count_eq_zero]
    rcases lot with (_ | _ | _ | _) | _ <;> rcases other with (_ | _ | _ | _) | _ <;>
      simp only [share, Account.met, ne_eq, not_true] at hlot hne ⊢ <;> omega
  have hcases : (k.share c (.met .registered)).count n = 1 ∨
      (k.share c (.met .handed)).count n = 1 ∨ (k.share c (.met .ran)).count n = 1 ∨
        (k.share c (.met .due)).count n = 1 ∨ (k.share c .lost).count n = 1 := by
    simp only [share, Account.met]
    omega
  rcases hcases with hlot | hlot | hlot | hlot | hlot
  all_goals exact ⟨_, hlot, hother _ hlot⟩

end Docket

/-- From one moment of a history, and its docket, to another, with more code of the host whenever
the machine has come to its end. -/
inductive LeadsWithDocket (P : Program S σ) (s : State S σ) (k : Docket S) :
    State S σ → Docket S → Prop
  | now : LeadsWithDocket P s k s k
  | next {s' : State S σ} {k' : Docket S} (h : LeadsWithDocket P s k s' k') :
      LeadsWithDocket P s k (s'.next P) (k'.next P s')
  | again {s' : State S σ} {k' : Docket S} (h : LeadsWithDocket P s k s' k')
      (hs : s'.activations = []) (code : Code S σ Unit) :
      LeadsWithDocket P s k (.start s'.world code) k'

namespace LeadsWithDocket

variable {P : Program S σ} {s s' : State S σ} {k k' : Docket S}

/-- Throughout a history the machine does what the docket says. -/
theorem tells (h : LeadsWithDocket P s k s' k') (hk : k.Tells s) : k'.Tells s' := by
  induction h with
  | now => exact hk
  | next h ih => exact ih.next
  | again h hs code ih => exact ih.again hs code

/-- What is lost is lost for good. -/
theorem broken (h : LeadsWithDocket P s k s' k') : k.broken <:+ k'.broken := by
  induction h with
  | now => exact List.suffix_refl _
  | @next s' k' h ih =>
      refine ih.trans ?_
      unfold Docket.next
      split
      · exact List.suffix_append _ _
      · exact List.suffix_refl _
  | again h hs code ih => exact ih

/-- What is lost stays lost. -/
theorem lost_subset (h : LeadsWithDocket P s k s' k') (c : Connection) : k.lost c ⊆ k'.lost c := by
  intro n hn
  obtain ⟨d, hd, hnd⟩ := List.mem_flatMap.mp hn
  obtain ⟨hmem, hc⟩ := List.mem_filter.mp hd
  exact List.mem_flatMap.mpr ⟨d, List.mem_filter.mpr ⟨h.broken.subset hmem, hc⟩, hnd⟩

end LeadsWithDocket

/-- Without such a panic nothing more is lost. -/
theorem LeadsWithLedger.withDocket {P : Program S σ} {s s' : State S σ} {g g' : Ledger S}
    (h : LeadsWithLedger P s g s' g') (broken : List (Connection × List Nat)) :
    LeadsWithDocket P s ⟨g, broken⟩ s' ⟨g', broken⟩ := by
  induction h with
  | now => exact .now
  | @next s' g' h hb ih => simpa [Docket.next, hb] using ih.next
  | again h hs code ih => exact ih.again hs code

/-- How a machine and its docket stand at some moment of a history: what has become of the tokens,
and what a panic and a further cancellation do. -/
structure Reckoned (P : Program S σ) (s : State S σ) (k : Docket S) : Prop where
  /-- Each token that has been pushed on a connection has one lot, and came to it once. -/
  lot : ∀ c n, n < (k.ledger.accounts c).pushed.length →
    ∃ lot, (k.share c lot).count n = 1 ∧ ∀ other, other ≠ lot → n ∉ k.share c other
  /-- At the end, no token waits for a cancellation to run it. -/
  settled : s.activations = [] → ∀ c, k.ledger.due c = []
  /-- Of the tokens pushed before the first cancellation, the connection runs just those that were
  registered then, the newest first, but for those that are lost. -/
  first : ∀ c z, (k.ledger.accounts c).closing = some z → z.taken.Pairwise (· > ·) ∧
    (∀ n ∈ z.taken, n < z.upto) ∧
      (k.ledger.accounts c).ran.filter (· < z.upto) ++ (k.ledger.due c ++ k.lost c) = z.taken
  /-- It runs each token pushed after it, in the order of the pushes. -/
  late : ∀ c z, (k.ledger.accounts c).closing = some z →
    (k.ledger.accounts c).ran.filter (z.upto ≤ ·) =
      List.range' z.upto ((k.ledger.accounts c).pushed.length - z.upto)
  /-- If tokens are lost, it has run at least one of those taken, and lost are all older ones. -/
  lost : ∀ c, k.lost c ≠ [] → ∃ z front n, (k.ledger.accounts c).closing = some z ∧
    (k.ledger.accounts c).ran.filter (· < z.upto) = front ++ [n] ∧
      z.taken = front ++ n :: k.lost c
  /-- A panic that leaves a token goes on in the code that canceled.  The tokens that its
  cancellation had still to run are lost with this step, and nothing else is. -/
  panics : s.breaks P = true → ∃ w payload rest c left,
    s.next P = .running w (.code (.panic payload)) rest ∧
      k.ledger.cancels.head? = some (c, left) ∧
        (k.next P s).ledger.accounts = k.ledger.accounts ∧
          ∀ d, (k.next P s).lost d = if c = d then left ++ k.lost d else k.lost d
  /-- Without such a panic, nothing is lost. -/
  spared : ∀ s' g', LeadsWithLedger P s k.ledger s' g' → LeadsWithDocket P s k s' ⟨g', k.broken⟩
  /-- The connection says that it has been canceled, and to cancel it again runs nothing. -/
  canceled : ∀ c, k.lost c ≠ [] → s.world.connections.isCanceled c = true ∧
    ∀ rest, State.begin P s.world (.cancel c) rest = .running s.world (.tokens []) rest
  /-- What is lost is lost for good: it never runs. -/
  onward : ∀ s' k', LeadsWithDocket P s k s' k' → ∀ c, ∀ n ∈ k.lost c,
    n ∈ k'.lost c ∧ n ∉ (k'.ledger.accounts c).ran

/-- Each token that is pushed on a cancelable connection has one lot, and comes to it once. -/
theorem LeadsWithDocket.reckoned {P : Program S σ} {host : σ} {thread : String}
    {code : Code S σ Unit} {s : State S σ} {k : Docket S}
    (h : LeadsWithDocket P (.start (.initial host thread) code) .empty s k) : Reckoned P s k := by
  have htells : k.Tells s := h.tells (Docket.tells_start host thread code)
  refine {
    lot := fun c n hn => htells.one_lot c hn
    settled := htells.shows.settled
    first := fun c z hz => ?_
    late := fun c z hz => ((htells.balanced c).late z hz).2
    lost := fun c => htells.lost_older
    panics := fun hb => ?_
    spared := fun s' g' h' => h'.withDocket k.broken
    canceled := fun c hc => ?_
    onward := fun s' k' h' c n hn => ⟨h'.lost_subset c hn, fun hran => ?_⟩ }
  · rw [← Docket.due_whole]
    exact (htells.balanced c).taken z hz
  · obtain ⟨w, payload, rest, c, left, more, pending, hnext, hcancels, -⟩ := htells.shows.breaks hb
    refine ⟨w, payload, rest, c, left, hnext, by rw [hcancels]; rfl, ?_, fun d => ?_⟩
    · simp [Docket.next, hb]
    · by_cases hd : c = d <;> simp [Docket.next, hb, hcancels, Docket.lost, hd]
  · obtain ⟨z, front, n, hz, -⟩ := htells.lost_older hc
    have hcanceled : s.world.connections.isCanceled c = true := by
      rw [htells.shows.table.isCanceled_eq, hz]
      rfl
    exact ⟨hcanceled, fun rest => by rw [State.begin, Connections.cancel_of_isCanceled hcanceled]⟩
  · have honce := ((h'.tells htells).balanced c).once n
    have hlost := List.count_pos_iff.mpr (h'.lost_subset c hn)
    have hran := List.count_pos_iff.mpr hran
    rw [Docket.due_whole, List.count_append] at honce
    split at honce <;> omega

/-! ## A token that panics -/

/-- So many steps of a machine, with its docket. -/
def reckon (P : Program S σ) (s : State S σ) (k : Docket S) : Nat → State S σ × Docket S
  | 0 => (s, k)
  | n + 1 => ((reckon P s k n).1.next P, (reckon P s k n).2.next P (reckon P s k n).1)

/-- So many steps lead to what they come to. -/
theorem LeadsWithDocket.steps (P : Program S σ) (s : State S σ) (k : Docket S) (n : Nat) :
    LeadsWithDocket P s k (reckon P s k n).1 (reckon P s k n).2 := by
  induction n with
  | zero => exact .now
  | succ n ih => exact .next ih

/-- The tokens of a host. -/
inductive Misfire where
  /-- Do nothing. -/
  | keepsQuiet
  | panics

namespace Misfire

/-- The only closures of that host are its tokens. -/
def closures : Closures where
  Thunk := Empty
  Delay := Empty
  Registration := Empty
  Body := Empty
  Bind := Empty
  Map := Empty
  Handler := Empty
  Rescue := Empty
  Modify := Empty
  Restore := Empty
  Token := Misfire
  Terminal := Empty
  Task := Empty
  Executor := Empty

/-- The code of that host. -/
def program : Program closures Unit where
  thunk := nofun
  delay := nofun
  registration := nofun
  body := nofun
  bind := nofun
  map := nofun
  handler := nofun
  rescue := nofun
  modify := nofun
  restore := nofun
  token
    | keepsQuiet => .done ()
    | panics => .panic (.message "boom")
  terminal := nofun
  task := nofun
  executor := nofun
  observe _ host := host

/-- A connection with three tokens, of which the second panics, is canceled. -/
def code : Code closures Unit Unit :=
  .query .newConnection fun c => .command (.push c keepsQuiet) fun _ =>
    .command (.push c panics) fun _ => .command (.push c keepsQuiet) fun _ => .perform (.cancel c)

/-- The machine of that host before its first step. -/
def opening : State closures Unit :=
  .start (.initial () "main") code

/-- So many steps of that host. -/
def play (n : Nat) : State closures Unit × Docket closures :=
  reckon program opening .empty n

/-- The newest token runs and the second one panics; the oldest is lost. -/
theorem reckoned_misfire : (play 11).1.activations = [] ∧
    ((play 11).2.ledger.accounts (.cancelable 0)).closing = some ⟨3, [2, 1, 0]⟩ ∧
      ((play 11).2.ledger.accounts (.cancelable 0)).ran = [2, 1] ∧
        (play 11).2.lost (.cancelable 0) = [0] ∧ Reckoned program (play 11).1 (play 11).2 :=
  ⟨rfl, rfl, rfl, rfl, (LeadsWithDocket.steps program opening .empty 11).reckoned⟩

/-- It is not so that a connection, when all is done, has run all tokens that were registered when
it was canceled. -/
theorem not_all_run : ¬∀ s k, LeadsWithDocket program opening .empty s k → s.activations = [] →
    ∀ c z, (k.ledger.accounts c).closing = some z →
      (k.ledger.accounts c).ran.filter (· < z.upto) = z.taken := by
  intro hall
  have hran := hall _ _ (LeadsWithDocket.steps program opening .empty 11) rfl (.cancelable 0) _ rfl
  exact absurd hran (by decide)

end Misfire

end Trampoline
