import Trampoline.Proofs.Tokens.Access
import Trampoline.Proofs.Tokens.Account

/-!
# The ledger of tokens

A ledger is kept beside the machine, with an account for each connection.  It knows the calls and
nothing else: every `create`, `push`, `pop` and `cancel`, in the order in which they are made,
whoever makes them, and the moments when a cancellation in progress turns to its next token.

Main definitions and results:

- Definitions `Ledger`, `Ledger.enter`, `Ledger.proceed`, `Ledger.next`: the accounts of all
  connections and the cancellations in progress, and what one step of the machine enters.
- Definitions `Ledger.Matches`, `Ledger.Owed`, `Ledger.Shows`, `Ledger.Tells`: the table, the
  control stack, and the whole state are what the ledger says.
- Theorems `Ledger.Matches.enter`, `Ledger.owed_enter`, `Ledger.balanced_enter`: a request about
  the table leaves them so.
- Theorems `Ledger.proceed_done`, `Ledger.proceed_next`, `Ledger.balanced_run`: so do the steps of
  a cancellation.
-/

namespace Trampoline

variable {S : Closures} {σ : Type}

/-- What is known of all connections. -/
structure Ledger (S : Closures) where
  /-- How many connections have been created. -/
  created : Nat
  accounts : Connection → Account S.Token
  /-- The cancellations in progress, the innermost first, with the tokens that they have still to
  run. -/
  cancels : List (Connection × List Nat)

namespace Ledger

/-- No connection has been created. -/
def empty : Ledger S where
  created := 0
  accounts := fun _ => .empty
  cancels := []

/-- A connection is cancelable, and has been created. -/
def knows (g : Ledger S) : Connection → Bool
  | .uncancelable => false
  | .cancelable index => index < g.created

/-- Change the account of a connection; one that is not known has none. -/
def amend (g : Ledger S) (c : Connection) (f : Account S.Token → Account S.Token) : Ledger S :=
  if g.knows c then
    { g with accounts := fun d => if d = c then f (g.accounts c) else g.accounts d }
  else g

/-- Enter what a piece of code asks of the table. -/
def enter (g : Ledger S) : Access S → Ledger S
  | .create => { g with created := g.created + 1 }
  | .push c token => g.amend c (·.push token)
  | .pop c => g.amend c (·.pop)
  | .cancel c => { g.amend c (·.cancel) with cancels := (c, (g.accounts c).due) :: g.cancels }

/-- The innermost cancellation runs its next token, or is done. -/
def proceed (g : Ledger S) : Ledger S :=
  match g.cancels with
  | (c, n :: rest) :: more => { g.amend c (·.run n) with cancels := (c, rest) :: more }
  | (_, []) :: more => { g with cancels := more }
  | [] => g

/-- Enter what the next step of the machine does. -/
def next (g : Ledger S) : State S σ → Ledger S
  | .running _ (.tokens _) _ => g.proceed
  | .running _ top _ =>
    match top.access? with
    | some x => g.enter x
    | none => g
  | _ => g

/-- The connection that the next step is about: the one of a call, or of a cancellation that turns
to its next token. -/
def about? (g : Ledger S) : State S σ → Option Connection
  | .running _ (.tokens _) _ => g.cancels.head?.map (·.1)
  | .running _ top _ => top.access?.bind Access.on?
  | _ => none

/-- The tokens of a connection that a cancellation has taken and has still to run. -/
def due (g : Ledger S) (c : Connection) : List Nat :=
  (g.cancels.filter (·.1 = c)).flatMap (·.2)

end Ledger

/-! ## The ledger and the machine -/

namespace Ledger

variable {g : Ledger S} {table : Connections S.Token}

/-- The accounts are those of the connections in a table. -/
structure Matches (g : Ledger S) (table : Connections S.Token) : Prop where
  created : g.created = table.states.size
  unknown : ∀ c, g.knows c = false → g.accounts c = .empty
  tells : ∀ c s, table.state? c = some s → (g.accounts c).Tells s

/-- The tokens that cancellations have still to run, by their numbers and by themselves. -/
def Owed (accounts : Connection → Account S.Token) (cancels : List (Connection × List Nat))
    (cancellations : List (List S.Token)) : Prop :=
  cancels.map (fun d => (accounts d.1).tokens? d.2) = cancellations.map (·.map some)

/-- The table and the control stack of a state are what a ledger says. -/
structure Shows (g : Ledger S) (s : State S σ) : Prop where
  table : g.Matches s.world.connections
  owed : Owed g.accounts g.cancels s.cancellations
  /-- No cancellation waits behind a partial evaluation. -/
  hides : ∀ a ∈ s.activations, a.pending? = none → a.Plain

/-- A state of the machine is what a ledger says, and all books are balanced. -/
structure Tells (g : Ledger S) (s : State S σ) : Prop where
  table : g.Matches s.world.connections
  owed : Owed g.accounts g.cancels s.cancellations
  balanced : ∀ c, (g.accounts c).Balanced (g.due c)
  /-- No cancellation waits behind a partial evaluation. -/
  hides : ∀ a ∈ s.activations, a.pending? = none → a.Plain

/-- A state of which a ledger tells is one that the ledger shows. -/
theorem Tells.shows {s : State S σ} (h : g.Tells s) : g.Shows s :=
  ⟨h.table, h.owed, h.hides⟩

section amend

variable {c : Connection} {f : Account S.Token → Account S.Token}

/-- An entry in an account creates no connection. -/
@[simp]
theorem created_amend : (g.amend c f).created = g.created := by
  unfold amend
  split <;> rfl

/-- An entry in an account leaves the connections that are known. -/
@[simp]
theorem knows_amend (d : Connection) : (g.amend c f).knows d = g.knows d := by
  cases d <;> simp [knows]

/-- An entry in an account begins no cancellation. -/
@[simp]
theorem cancels_amend : (g.amend c f).cancels = g.cancels := by
  unfold amend
  split <;> rfl

/-- An entry in an account leaves what cancellations have still to run. -/
@[simp]
theorem due_amend (d : Connection) : (g.amend c f).due d = g.due d := by
  simp [due]

/-- The account of a known connection is amended. -/
theorem accounts_amend_self (h : g.knows c = true) :
    (g.amend c f).accounts c = f (g.accounts c) := by
  simp [amend, h]

/-- The accounts of other connections are left as they are. -/
theorem accounts_amend_of_ne {d : Connection} (h : d ≠ c) :
    (g.amend c f).accounts d = g.accounts d := by
  unfold amend
  split
  · simp [h]
  · rfl

/-- Nothing is entered for a connection that is not known. -/
theorem amend_of_unknown (h : g.knows c = false) : g.amend c f = g := by
  simp [amend, h]

/-- What holds of all accounts before an entry and of the changed one after it, holds after it of
all. -/
theorem forall_amend {p : Connection → Account S.Token → Prop} (h : ∀ d, p d (g.accounts d))
    (hc : g.knows c = true → p c (f (g.accounts c))) (d : Connection) :
    p d ((g.amend c f).accounts d) := by
  cases hk : g.knows c with
  | false =>
      rw [amend_of_unknown hk]
      exact h d
  | true =>
      by_cases hd : d = c
      · subst hd
        rw [accounts_amend_self hk]
        exact hc hk
      · rw [accounts_amend_of_ne hd]
        exact h d

/-- Accounts only grow. -/
theorem grows_amend (hf : ∀ a, Account.Grows a (f a)) (d : Connection) :
    (g.accounts d).Grows ((g.amend c f).accounts d) :=
  forall_amend (p := fun d a => (g.accounts d).Grows a) (fun _ => .refl _) (fun _ => hf _) d

end amend

namespace Owed

variable {accounts accounts' : Connection → Account S.Token}
  {cancels : List (Connection × List Nat)} {cancellations : List (List S.Token)}

/-- What is due stays due when accounts grow. -/
theorem grows (h : Owed accounts cancels cancellations)
    (hgrows : ∀ c, (accounts c).Grows (accounts' c)) : Owed accounts' cancels cancellations := by
  unfold Owed at h ⊢
  rw [← h]
  refine List.map_congr_left fun d hd => ?_
  have hmem : (accounts d.1).tokens? d.2 ∈ cancellations.map (·.map some) := by
    rw [← h]
    exact List.mem_map_of_mem hd
  obtain ⟨tokens, -, htokens⟩ := List.mem_map.mp hmem
  rw [← htokens]
  exact Account.tokens?_of_isPrefix (hgrows d.1).pushed htokens.symm

/-- One more cancellation in progress. -/
theorem cons {c : Connection} {numbers : List Nat} {pending : List S.Token}
    (hc : (accounts c).tokens? numbers = pending.map some)
    (h : Owed accounts cancels cancellations) :
    Owed accounts ((c, numbers) :: cancels) (pending :: cancellations) := by
  simp only [Owed, List.map_cons, List.cons.injEq]
  exact ⟨hc, h⟩

/-- The innermost cancellation in progress. -/
theorem innermost {pending : List S.Token} (h : Owed accounts cancels (pending :: cancellations)) :
    ∃ c numbers more, cancels = (c, numbers) :: more ∧
      (accounts c).tokens? numbers = pending.map some ∧ Owed accounts more cancellations := by
  cases cancels with
  | nil => simp [Owed] at h
  | cons d more =>
      simp only [Owed, List.map_cons, List.cons.injEq] at h
      exact ⟨d.1, d.2, more, rfl, h.1, h.2⟩

end Owed

/-- The ledger knows the connections of a table with as many connections. -/
theorem knows_eq (h : g.created = table.states.size) (c : Connection) :
    g.knows c = (table.state? c).isSome := by
  cases c with
  | uncancelable => rfl
  | cancelable i =>
      rw [Bool.eq_iff_iff]
      simp [knows, Connections.state?, h]

namespace Matches

variable {c : Connection}

/-- An entry for a connection, if the table has changed with it. -/
theorem amend {f : Account S.Token → Account S.Token} {table' : Connections S.Token}
    (h : g.Matches table) (hsize : table'.states.size = table.states.size)
    (hother : ∀ d, d ≠ c → table'.state? d = table.state? d)
    (hc : ∀ s, table'.state? c = some s → (f (g.accounts c)).Tells s) :
    (g.amend c f).Matches table' where
  created := by rw [created_amend, h.created, hsize]
  unknown := fun d hd => by
    rw [knows_amend] at hd
    by_cases hdc : d = c
    · subst hdc
      rw [amend_of_unknown hd]
      exact h.unknown d hd
    · rw [accounts_amend_of_ne hdc]
      exact h.unknown d hd
  tells := fun d s hs => by
    by_cases hdc : d = c
    · subst hdc
      have hknows : g.knows d = true := by
        rw [knows_eq (h.created.trans hsize.symm), hs]
        rfl
      rw [accounts_amend_self hknows]
      exact hc s hs
    · rw [hother d hdc] at hs
      rw [accounts_amend_of_ne hdc]
      exact h.tells d s hs

/-- An entry for a connection whose state has been replaced. -/
theorem amend_setState {f : Account S.Token → Account S.Token} {s s' : ConnectionState S.Token}
    (h : g.Matches table) (hs : table.state? c = some s) (hs' : (f (g.accounts c)).Tells s') :
    (g.amend c f).Matches (table.setState c s') := by
  refine h.amend (Connections.size_setState c s') (fun d hd => ?_) fun s hnew => ?_
  · rw [Connections.state?_setState hs, if_neg hd]
  · rw [Connections.state?_setState hs, if_pos rfl] at hnew
    cases hnew
    exact hs'

/-- An entry for a connection whose state is as it was. -/
theorem amend_same {f : Account S.Token → Account S.Token} (h : g.Matches table)
    (hc : ∀ s, table.state? c = some s → (f (g.accounts c)).Tells s) :
    (g.amend c f).Matches table :=
  h.amend rfl (fun _ _ => rfl) hc

/-- A new connection is a new account, in which nothing has been entered. -/
theorem create (h : g.Matches table) : (g.enter .create).Matches table.create.1 where
  created := by simp [enter, h.created, Connections.create]
  unknown := fun c hc => by
    cases c with
    | uncancelable => exact h.unknown _ rfl
    | cancelable i =>
        refine h.unknown _ ?_
        have hlt : ¬i < g.created + 1 := of_decide_eq_false hc
        exact decide_eq_false fun hi => hlt (Nat.lt_succ_of_lt hi)
  tells := fun c s hs => by
    rw [Connections.state?_create] at hs
    split at hs
    · next hnew =>
        cases hs
        have hunknown : g.knows c = false := by
          rw [hnew, knows, h.created]
          simp
        simp only [enter, h.unknown c hunknown]
        exact .fresh
    · exact h.tells c s hs

/-- A token that the table keeps is entered as registered. -/
theorem push (h : g.Matches table) {token : S.Token} {table' : Connections S.Token}
    (hkept : table.push c token = .kept table') :
    (g.amend c (·.push token)).Matches table' := by
  unfold Connections.push at hkept
  split at hkept
  · next s hs =>
      split at hkept
      · cases hkept
      · next hopen =>
          cases hkept
          exact h.amend_setState hs ((h.tells c s hs).push (by simpa using hopen) token)
  · next hs =>
      cases hkept
      exact h.amend_same fun s hs' => by
        rw [hs] at hs'
        cases hs'

/-- A token that is due at once is entered as such, and the table stays. -/
theorem push_due (h : g.Matches table) {token : S.Token} (hdue : table.push c token = .due) :
    (g.amend c (·.push token)).Matches table := by
  unfold Connections.push at hdue
  split at hdue
  · next s hs =>
      split at hdue
      · next hcanceled =>
          refine h.amend_same fun s' hs' => ?_
          rw [hs] at hs'
          cases hs'
          exact (h.tells c s hs).push_of_canceled hcanceled token
      · cases hdue
  · cases hdue

/-- A token that the table drops is entered as dropped. -/
theorem pop (h : g.Matches table) : (g.amend c (·.pop)).Matches (table.pop c).1 := by
  unfold Connections.pop
  split
  · next canceled token tokens hs => exact h.amend_setState hs (h.tells c _ hs).pop
  · next hnone =>
      refine h.amend_same fun s hs => ?_
      have htokens : s.tokens = [] := by
        cases htokens : s.tokens with
        | nil => rfl
        | cons token tokens =>
            have hs' : table.state? c = some ⟨s.canceled, token :: tokens⟩ := by rw [hs, ← htokens]
            exact absurd hs' (hnone _ _ _)
      have hpop := (h.tells c s hs).pop
      rwa [htokens, List.tail_nil, ← htokens] at hpop

/-- What a cancellation has to run is what its account says. -/
theorem due (h : g.Matches table) :
    (g.accounts c).tokens? (g.accounts c).due = (table.cancel c).2.map some := by
  unfold Connections.cancel
  split
  · next s hs =>
      have htells := h.tells c s hs
      split
      · next hcanceled => rw [(htells.cancel_of_canceled hcanceled).2]; rfl
      · next hopen => exact (htells.cancel (by simpa using hopen)).2
  · next hs =>
      have hunknown : g.knows c = false := by rw [knows_eq h.created, hs]; rfl
      rw [h.unknown c hunknown]
      rfl

/-- The tokens that the table gives up are entered as taken for a cancellation. -/
theorem cancel (h : g.Matches table) :
    (g.amend c (·.cancel)).Matches (table.cancel c).1 := by
  unfold Connections.cancel
  split
  · next s hs =>
      have htells := h.tells c s hs
      split
      · next hcanceled =>
          refine h.amend_same fun s' hs' => ?_
          rw [hs] at hs'
          cases hs'
          simp only [(htells.cancel_of_canceled hcanceled).1]
          exact htells
      · next hopen => exact h.amend_setState hs (htells.cancel (by simpa using hopen)).1
  · next hs =>
      exact h.amend_same fun s hs' => by
        rw [hs] at hs'
        cases hs'

/-- A connection that has been canceled has a closing in its account, and no other has. -/
theorem isCanceled_eq (h : g.Matches table) (c : Connection) :
    table.isCanceled c = (g.accounts c).closing.isSome := by
  unfold Connections.isCanceled
  cases hc : table.state? c with
  | some x => exact (h.tells c x hc).canceled
  | none =>
      have hunknown : g.knows c = false := by
        rw [knows_eq h.created, hc]
        rfl
      rw [h.unknown c hunknown]
      rfl

/-- Only a connection that is known has an account with tokens. -/
theorem knows_of_pushed (h : g.Matches table) {n : Nat} {token : S.Token}
    (htoken : (g.accounts c).pushed[n]? = some token) : g.knows c = true := by
  cases hk : g.knows c with
  | true => rfl
  | false =>
      rw [h.unknown c hk] at htoken
      simp [Account.empty] at htoken

/-- To run a token changes no connection. -/
theorem run (h : g.Matches table) (n : Nat) : (g.amend c (·.run n)).Matches table :=
  h.amend_same fun s hs => ⟨(h.tells c s hs).canceled, (h.tells c s hs).tokens⟩

end Matches

/-! ## Steps with a request about the table -/

section

variable {P : Program S σ} {w : World S σ} {x : Access S} {r : State S σ}

/-- A ledger agrees with the table after each request about it. -/
theorem Matches.enter (h : g.Matches w.connections) (hx : State.Accesses P w x r) :
    (g.enter x).Matches r.world.connections := by
  cases hx with
  | create plain => exact h.create
  | pop plain => exact h.pop
  | registers plain kept => exact h.push kept
  | runs plain due => exact h.push_due due
  | @cancels c a plain =>
      have hcancel := h.cancel (c := c)
      exact ⟨hcancel.created, hcancel.unknown, hcancel.tells⟩

/-- To enter a request, accounts grow. -/
theorem grows_enter (x : Access S) (d : Connection) :
    (g.accounts d).Grows ((g.enter x).accounts d) := by
  cases x with
  | create => exact .refl _
  | push c token => exact grows_amend (fun a => .push a token) d
  | pop c => exact grows_amend .pop d
  | cancel c => exact grows_amend .cancel d

/-- A cancellation comes with the command to cancel, and with nothing else. -/
theorem owed_enter {below : List (List S.Token)} (h : Owed g.accounts g.cancels below)
    (hm : g.Matches w.connections) (hx : State.Accesses P w x r) :
    Owed (g.enter x).accounts (g.enter x).cancels (r.cancellations ++ below) := by
  have howed : Owed (g.enter x).accounts g.cancels below := h.grows (grows_enter x)
  cases hx with
  | create plain =>
      rw [State.Plain.cancellations (State.plain_running.mpr ⟨plain, by simp⟩)]
      exact howed
  | pop plain =>
      rw [State.Plain.cancellations (State.plain_running.mpr ⟨plain, by simp⟩), enter,
        cancels_amend]
      exact howed
  | registers plain kept =>
      rw [State.Plain.cancellations (State.plain_running.mpr ⟨plain, by simp⟩), enter,
        cancels_amend]
      exact howed
  | runs plain due =>
      rw [State.Plain.cancellations (State.plain_running.mpr ⟨by simp, by simpa using plain⟩),
        enter, cancels_amend]
      exact howed
  | @cancels c a plain =>
      have hcancellations : (State.running { w with connections := (w.connections.cancel c).1 }
          (.tokens (w.connections.cancel c).2) [a]).cancellations =
            [(w.connections.cancel c).2] := by
        simp only [State.cancellations, State.activations_running, List.filterMap_cons,
          plain.pending?, List.filterMap_nil]
        rfl
      rw [hcancellations]
      exact howed.cons
        (Account.tokens?_of_isPrefix (grows_enter (.cancel c) c).pushed (hm.due (c := c)))

/-- What is due for a connection, with one more cancellation at work. -/
theorem due_cons (c d : Connection) (ns : List Nat) (more : List (Connection × List Nat)) :
    ({ g with cancels := (c, ns) :: more } : Ledger S).due d =
      if c = d then ns ++ ({ g with cancels := more } : Ledger S).due d
      else ({ g with cancels := more } : Ledger S).due d := by
  by_cases hcd : c = d <;> simp [due, hcd]

/-- The books stay balanced when a request is entered. -/
theorem balanced_enter {table : Connections S.Token} (hm : g.Matches table)
    (h : ∀ c, (g.accounts c).Balanced (g.due c)) (x : Access S) (d : Connection) :
    ((g.enter x).accounts d).Balanced ((g.enter x).due d) := by
  cases x with
  | create => exact h d
  | push c token =>
      rw [enter, due_amend]
      exact forall_amend (p := fun d a => a.Balanced (g.due d)) h (fun _ => (h c).push token) d
  | pop c =>
      rw [enter, due_amend]
      exact forall_amend (p := fun d a => a.Balanced (g.due d)) h (fun _ => (h c).pop) d
  | cancel c =>
      rw [enter, due_cons]
      have hrest :
          ({ g.amend c (·.cancel) with cancels := g.cancels } : Ledger S).due d = g.due d :=
        rfl
      rw [hrest]
      split
      · next hcd =>
          subst hcd
          cases hk : g.knows c with
          | true =>
              have hself : (g.amend c (·.cancel)).accounts c = (g.accounts c).cancel :=
                accounts_amend_self hk
              simp only [hself]
              exact (h c).cancel
          | false =>
              -- There is no account, so the cancellation has nothing to run.
              simp only [amend_of_unknown hk, hm.unknown c hk]
              have hempty := h c
              rw [hm.unknown c hk] at hempty
              exact hempty
      · next hcd =>
          have hother : (g.amend c (·.cancel)).accounts d = g.accounts d :=
            accounts_amend_of_ne (Ne.symm hcd)
          simp only [hother]
          exact h d

end

/-! ## Steps of a cancellation -/

/-- A cancellation that has run its tokens is done. -/
theorem proceed_done {below : List (List S.Token)} (h : Owed g.accounts g.cancels ([] :: below)) :
    ∃ more, g.proceed = { g with cancels := more } ∧ Owed g.accounts more below ∧
      ∀ d, g.proceed.due d = g.due d := by
  obtain ⟨c, numbers, more, hcancels, hnumbers, hmore⟩ := h.innermost
  have hnil : numbers = [] := by simpa [Account.tokens?] using hnumbers
  subst hnil
  have hproceed : g.proceed = { g with cancels := more } := by simp [proceed, hcancels]
  refine ⟨more, hproceed, hmore, fun d => ?_⟩
  rw [hproceed]
  by_cases hcd : c = d <;> simp [due, hcancels, hcd]

/-- A cancellation turns to the next of its tokens. -/
theorem proceed_next {token : S.Token} {pending : List S.Token} {below : List (List S.Token)}
    (h : Owed g.accounts g.cancels ((token :: pending) :: below)) :
    ∃ c n rest more, g.cancels = (c, n :: rest) :: more ∧
      (g.accounts c).pushed[n]? = some token ∧
      g.proceed = { g.amend c (·.run n) with cancels := (c, rest) :: more } ∧
      Owed g.accounts ((c, rest) :: more) (pending :: below) := by
  obtain ⟨c, numbers, more, hcancels, hnumbers, hmore⟩ := h.innermost
  cases numbers with
  | nil => simp [Account.tokens?] at hnumbers
  | cons n rest =>
      simp only [Account.tokens?, List.map_cons, List.cons.injEq] at hnumbers
      have hproceed : g.proceed = { g.amend c (·.run n) with cancels := (c, rest) :: more } := by
        simp [proceed, hcancels]
      exact ⟨c, n, rest, more, hcancels, hnumbers.1, hproceed, .cons hnumbers.2 hmore⟩

/-- The books stay balanced when a cancellation runs a token. -/
theorem balanced_run {table : Connections S.Token} (hm : g.Matches table)
    (h : ∀ c, (g.accounts c).Balanced (g.due c)) {c : Connection} {n : Nat} {rest : List Nat}
    {more : List (Connection × List Nat)} (hcancels : g.cancels = (c, n :: rest) :: more)
    {token : S.Token} (htoken : (g.accounts c).pushed[n]? = some token) (d : Connection) :
    ((g.amend c (·.run n)).accounts d).Balanced
      (({ g with cancels := (c, rest) :: more } : Ledger S).due d) := by
  have hg : g = { g with cancels := (c, n :: rest) :: more } := by rw [← hcancels]
  have hd := h d
  rw [hg, due_cons] at hd
  rw [due_cons]
  split
  · next hcd =>
      subst hcd
      rw [if_pos rfl] at hd
      rw [accounts_amend_self (hm.knows_of_pushed htoken)]
      exact hd.run
  · next hcd =>
      rw [if_neg hcd] at hd
      rw [accounts_amend_of_ne (Ne.symm hcd)]
      exact hd

end Ledger

end Trampoline
