import Trampoline.Connection

/-!
# The account of a connection

What becomes of the tokens that are pushed on one connection.  Tokens are closures: two of
them may do the same, and still each is pushed, handed out and run by itself.  So the account
numbers them in the order in which they are pushed, and keeps books of the numbers.

Main definitions and results:

- Definitions `Account`, `Account.push`, `Account.pop`, `Account.cancel`, `Account.run`: the
  books, and what each call enters into them.
- Definition `Account.Balanced`: each token that has been pushed stands in one place, once.
- Theorems `Account.Balanced.push`, `Balanced.pop`, `Balanced.cancel`, `Balanced.run`: every
  entry keeps the books balanced.
- Theorem `Account.Balanced.one_fate`: a token that has been pushed has one fate, and came to it
  once.
- Definition `Account.Grows`: the books are only added to.
- Definition `Account.Tells`: the state behind the connection is what its account says.
-/

namespace Trampoline

/-- The moment of the first cancellation. -/
structure Closing where
  /-- How many tokens had been pushed. -/
  upto : Nat
  /-- The tokens that were registered, newest first. -/
  taken : List Nat

/-- The account of one connection.  Token `n` is the one that was pushed after `n` others. -/
structure Account (τ : Type) where
  /-- All tokens that have been pushed, in the order of the pushes. -/
  pushed : List τ
  /-- The registered tokens, newest first. -/
  registered : List Nat
  /-- The tokens that pops have handed out, in this order. -/
  handed : List Nat
  /-- The tokens that the connection has begun to run, in this order. -/
  ran : List Nat
  closing : Option Closing

/-- What may have become of a token. -/
inductive Fate where
  | registered
  | handed
  | ran
  /-- A cancellation has taken the token, and has still to run it. -/
  | due
deriving DecidableEq

namespace Account

variable {τ : Type}

/-- Nothing has been pushed. -/
def empty : Account τ where
  pushed := []
  registered := []
  handed := []
  ran := []
  closing := none

/-- A push: the token is registered, or run at once after the first cancellation. -/
def push (a : Account τ) (token : τ) : Account τ :=
  match a.closing with
  | none =>
    { a with pushed := a.pushed ++ [token], registered := a.pushed.length :: a.registered }
  | some _ => { a with pushed := a.pushed ++ [token], ran := a.ran ++ [a.pushed.length] }

/-- A pop hands the newest registered token out. -/
def pop (a : Account τ) : Account τ :=
  match a.registered with
  | [] => a
  | n :: rest => { a with registered := rest, handed := a.handed ++ [n] }

/-- The first cancellation takes all registered tokens; later ones do nothing. -/
def cancel (a : Account τ) : Account τ :=
  match a.closing with
  | none => { a with registered := [], closing := some ⟨a.pushed.length, a.registered⟩ }
  | some _ => a

/-- What a cancellation that begins now has to run. -/
def due (a : Account τ) : List Nat :=
  match a.closing with
  | none => a.registered
  | some _ => []

/-- A cancellation runs a token that it has taken. -/
def run (a : Account τ) (n : Nat) : Account τ :=
  { a with ran := a.ran ++ [n] }

/-- The newest registered token. -/
def newest? (a : Account τ) : Option τ :=
  a.registered.head?.bind fun n => a.pushed[n]?

/-- The tokens with a fate, if these are the ones that a cancellation has still to run. -/
def met (a : Account τ) (due : List Nat) : Fate → List Nat
  | .registered => a.registered
  | .handed => a.handed
  | .ran => a.ran
  | .due => due

/-- The books are balanced, where these are the tokens that the cancellation of the connection
has still to run. -/
structure Balanced (a : Account τ) (due : List Nat) : Prop where
  /-- Each token that has been pushed stands in one place, once. -/
  once : ∀ n, a.registered.count n + a.handed.count n + a.ran.count n + due.count n =
    if n < a.pushed.length then 1 else 0
  newest : a.registered.Pairwise (· > ·)
  /-- Before the first cancellation the connection has run nothing. -/
  opened : a.closing = none → a.ran = [] ∧ due = []
  /-- After it nothing is registered, ... -/
  emptied : ∀ k, a.closing = some k → a.registered = []
  /-- ... what was pushed before it and has been run, or is still due, is what was registered
  then, in this order, ... -/
  taken : ∀ k, a.closing = some k → k.taken.Pairwise (· > ·) ∧ (∀ n ∈ k.taken, n < k.upto) ∧
    a.ran.filter (· < k.upto) ++ due = k.taken
  /-- ... and what has been pushed after it has been run in the order of the pushes. -/
  late : ∀ k, a.closing = some k → k.upto ≤ a.pushed.length ∧
    a.ran.filter (k.upto ≤ ·) = List.range' k.upto (a.pushed.length - k.upto)

namespace Balanced

variable {a : Account τ} {due : List Nat}

/-- The books of a new connection are balanced. -/
theorem empty : (Account.empty : Account τ).Balanced [] where
  once := fun _ => rfl
  newest := .nil
  opened := fun _ => ⟨rfl, rfl⟩
  emptied := fun _ hk => by cases hk
  taken := fun _ hk => by cases hk
  late := fun _ hk => by cases hk

/-- A registered token has been pushed. -/
theorem lt_of_registered (h : a.Balanced due) {n : Nat} (hn : n ∈ a.registered) :
    n < a.pushed.length := by
  have hpos : 0 < a.registered.count n := List.count_pos_iff.mpr hn
  have honce := h.once n
  split at honce
  · assumption
  · omega

/-- The next token stands nowhere yet, so wherever it is put, each token stands in one place. -/
theorem once_next (h : a.Balanced due) (n : Nat) :
    a.registered.count n + a.handed.count n + a.ran.count n + due.count n +
      (if a.pushed.length = n then 1 else 0) = if n < a.pushed.length + 1 then 1 else 0 := by
  rw [h.once n]
  split <;> split <;> split <;> omega

/-- A push keeps the books balanced. -/
theorem push (h : a.Balanced due) (token : τ) : (a.push token).Balanced due := by
  cases hk : a.closing with
  | none =>
      simp only [Account.push, hk]
      refine ⟨fun n => ?_, ?_, fun _ => h.opened hk, by simp, by simp, by simp⟩
      · simp only [List.count_cons, List.length_append, List.length_singleton, beq_iff_eq,
          ← h.once_next n]
        omega
      · exact List.pairwise_cons.mpr ⟨fun n hn => h.lt_of_registered hn, h.newest⟩
  | some k =>
      obtain ⟨hupto, hlate⟩ := h.late k hk
      simp only [Account.push, hk]
      refine ⟨fun n => ?_, h.newest, by simp, fun k' hk' => ?_, fun k' hk' => ?_, fun k' hk' => ?_⟩
      · simp only [List.count_append, List.count_singleton, List.length_append,
          List.length_singleton, beq_iff_eq, ← h.once_next n]
        omega
      · exact h.emptied k hk
      · cases hk'
        -- The new token is none of those from before the cancellation.
        have hnot : ¬a.pushed.length < k.upto := by omega
        simpa [hnot] using h.taken k hk
      · cases hk'
        have hsub : a.pushed.length + 1 - k.upto = a.pushed.length - k.upto + 1 := by omega
        have hlast : k.upto + (a.pushed.length - k.upto) = a.pushed.length := by omega
        refine ⟨by simp; omega, ?_⟩
        simp [hupto, hlate, hsub, List.range'_concat, hlast]

/-- A pop keeps the books balanced. -/
theorem pop (h : a.Balanced due) : a.pop.Balanced due := by
  cases hr : a.registered with
  | nil =>
      simp only [Account.pop, hr]
      exact h
  | cons m rest =>
      have hpairwise := h.newest
      rw [hr, List.pairwise_cons] at hpairwise
      simp only [Account.pop, hr]
      refine ⟨fun n => ?_, hpairwise.2, h.opened, fun k hk => ?_, h.taken, h.late⟩
      · have honce := h.once n
        simp only [hr, List.count_cons] at honce
        simp only [List.count_append, List.count_singleton]
        omega
      · have hnil := h.emptied k hk
        rw [hr] at hnil
        cases hnil

/-- A cancellation keeps the books balanced, if what it has to run is due from now on. -/
theorem cancel (h : a.Balanced due) : a.cancel.Balanced (a.due ++ due) := by
  cases hk : a.closing with
  | none =>
      obtain ⟨hran, hdue⟩ := h.opened hk
      simp only [Account.cancel, Account.due, hk]
      subst hdue
      refine ⟨fun n => ?_, .nil, by simp, by simp, ?_, ?_⟩
      · have honce := h.once n
        simp only [List.count_nil, List.append_nil, Nat.zero_add, Nat.add_zero] at honce ⊢
        omega
      · rintro k hk'
        cases hk'
        exact ⟨h.newest, fun n hn => h.lt_of_registered hn, by simp [hran]⟩
      · rintro k hk'
        cases hk'
        exact ⟨Nat.le_refl _, by simp [hran]⟩
  | some k =>
      simp only [Account.cancel, Account.due, hk]
      exact h

/-- A cancellation that runs the next of its tokens keeps the books balanced. -/
theorem run {n : Nat} (h : a.Balanced (n :: due)) : (a.run n).Balanced due := by
  unfold Account.run
  refine ⟨fun m => ?_, h.newest, fun hk => ?_, h.emptied, fun k hk => ?_, fun k hk => ?_⟩
  · have honce := h.once m
    simp only [List.count_cons] at honce
    simp only [List.count_append, List.count_singleton]
    omega
  · cases (h.opened hk).2
  · obtain ⟨hpairwise, hlt, hran⟩ := h.taken k hk
    have hn : n < k.upto := hlt n (by rw [← hran]; simp)
    refine ⟨hpairwise, hlt, ?_⟩
    simpa [hn] using hran
  · obtain ⟨hpairwise, hlt, hran⟩ := h.taken k hk
    have hn : n < k.upto := hlt n (by rw [← hran]; simp)
    simpa [Nat.not_le.mpr hn] using h.late k hk

/-- A token that has been pushed has one fate, and came to it once. -/
theorem one_fate (h : a.Balanced due) {n : Nat} (hn : n < a.pushed.length) :
    ∃ fate, (a.met due fate).count n = 1 ∧ ∀ other, other ≠ fate → n ∉ a.met due other := by
  have honce := h.once n
  rw [if_pos hn] at honce
  have hcases : a.registered.count n = 1 ∨ a.handed.count n = 1 ∨ a.ran.count n = 1 ∨
      due.count n = 1 := by
    omega
  have hother : ∀ fate, (a.met due fate).count n = 1 →
      ∀ other, other ≠ fate → n ∉ a.met due other := by
    intro fate hf other ho
    rw [← List.count_eq_zero]
    cases fate <;> cases other <;> simp only [met, ne_eq, not_true] at hf ho ⊢ <;> omega
  rcases hcases with hf | hf | hf | hf
  · exact ⟨.registered, hf, hother .registered hf⟩
  · exact ⟨.handed, hf, hother .handed hf⟩
  · exact ⟨.ran, hf, hother .ran hf⟩
  · exact ⟨.due, hf, hother .due hf⟩

end Balanced

/-! ## Entries are final -/

/-- An account after more entries: what stood in it still does, in the same place. -/
structure Grows (a a' : Account τ) : Prop where
  pushed : a.pushed <+: a'.pushed
  handed : a.handed <+: a'.handed
  ran : a.ran <+: a'.ran
  closing : ∀ k, a.closing = some k → a'.closing = some k

namespace Grows

/-- An account is what has become of it. -/
theorem refl (a : Account τ) : a.Grows a where
  pushed := List.prefix_refl _
  handed := List.prefix_refl _
  ran := List.prefix_refl _
  closing := fun _ hk => hk

/-- What has become of an account becomes more. -/
theorem trans {a b c : Account τ} (h : a.Grows b) (h' : b.Grows c) : a.Grows c where
  pushed := h.pushed.trans h'.pushed
  handed := h.handed.trans h'.handed
  ran := h.ran.trans h'.ran
  closing := fun k hk => h'.closing k (h.closing k hk)

variable (a : Account τ)

/-- An account grows with a token. -/
theorem push (token : τ) : a.Grows (a.push token) := by
  unfold Account.push
  split
  · exact ⟨List.prefix_append _ _, List.prefix_refl _, List.prefix_refl _, fun _ hk => hk⟩
  · exact ⟨List.prefix_append _ _, List.prefix_refl _, List.prefix_append _ _, fun _ hk => hk⟩

/-- An account grows when a token is dropped. -/
theorem pop : a.Grows a.pop := by
  unfold Account.pop
  split
  · exact refl a
  · exact ⟨List.prefix_refl _, List.prefix_append _ _, List.prefix_refl _, fun _ hk => hk⟩

/-- An account grows with a cancellation. -/
theorem cancel : a.Grows a.cancel := by
  unfold Account.cancel
  split
  · next hk =>
      exact ⟨List.prefix_refl _, List.prefix_refl _, List.prefix_refl _, fun k hk' => by
        rw [hk] at hk'
        cases hk'⟩
  · exact refl a

/-- An account grows when a token has been run. -/
theorem run (n : Nat) : a.Grows (a.run n) :=
  ⟨List.prefix_refl _, List.prefix_refl _, List.prefix_append _ _, fun _ hk => hk⟩

end Grows

/-! ## The state behind the connection -/

/-- The tokens with these numbers. -/
def tokens? (a : Account τ) (numbers : List Nat) : List (Option τ) :=
  numbers.map (a.pushed[·]?)

/-- The state behind a connection is what its account says. -/
structure Tells (a : Account τ) (s : ConnectionState τ) : Prop where
  canceled : s.canceled = a.closing.isSome
  tokens : a.tokens? a.registered = s.tokens.map some

/-- A token keeps its number. -/
theorem tokens?_of_isPrefix {a a' : Account τ} (h : a.pushed <+: a'.pushed) {numbers : List Nat}
    {tokens : List τ} (ht : a.tokens? numbers = tokens.map some) :
    a'.tokens? numbers = tokens.map some := by
  rw [← ht]
  refine List.map_congr_left fun n hn => ?_
  have hsome : a.pushed[n]? ∈ tokens.map some := by
    rw [← ht]
    exact List.mem_map_of_mem hn
  obtain ⟨token, -, htoken⟩ := List.mem_map.mp hsome
  obtain ⟨more, hmore⟩ := h
  have hlt : n < a.pushed.length := (List.getElem?_eq_some_iff.mp htoken.symm).1
  rw [← hmore, List.getElem?_append_left hlt]

namespace Tells

variable {a : Account τ} {s : ConnectionState τ}

/-- Nothing is known of a new connection. -/
theorem fresh : (Account.empty : Account τ).Tells .fresh :=
  ⟨rfl, rfl⟩

/-- A push registers the token before the first cancellation. -/
theorem push (h : a.Tells s) (hs : s.canceled = false) (token : τ) :
    (a.push token).Tells ⟨false, token :: s.tokens⟩ := by
  have hclosing : a.closing = none := by simpa [hs] using h.canceled
  have hprefix : a.pushed <+: (a.push token).pushed := (Grows.push a token).pushed
  have htokens := tokens?_of_isPrefix hprefix h.tokens
  simp only [Account.push, hclosing] at htokens ⊢
  exact ⟨by simp, by simpa [tokens?] using htokens⟩

/-- After it, a push leaves the state alone. -/
theorem push_of_canceled (h : a.Tells s) (hs : s.canceled = true) (token : τ) :
    (a.push token).Tells s := by
  obtain ⟨k, hk⟩ : ∃ k, a.closing = some k := by
    simpa [hs, Option.isSome_iff_exists] using h.canceled.symm
  have htokens := tokens?_of_isPrefix (Grows.push a token).pushed h.tokens
  simp only [Account.push, hk] at htokens ⊢
  exact ⟨by simpa [hk] using hs, htokens⟩

/-- The newest token of the account is the newest token behind the connection. -/
theorem newest?_eq (h : a.Tells s) : a.newest? = s.tokens.head? := by
  have htokens := h.tokens
  unfold newest?
  cases hr : a.registered with
  | nil =>
      rw [hr] at htokens
      cases hs : s.tokens with
      | nil => rfl
      | cons token tokens => simp [hs, tokens?] at htokens
  | cons n rest =>
      rw [hr] at htokens
      cases hs : s.tokens with
      | nil => simp [hs, tokens?] at htokens
      | cons token tokens =>
          simp only [hs, tokens?, List.map_cons, List.cons.injEq] at htokens
          exact htokens.1

/-- A pop takes it. -/
theorem pop (h : a.Tells s) : a.pop.Tells ⟨s.canceled, s.tokens.tail⟩ := by
  have htokens := h.tokens
  unfold Account.pop
  split
  · next hr =>
      rw [hr] at htokens
      refine ⟨h.canceled, ?_⟩
      cases hs : s.tokens with
      | nil => rw [hr]; rfl
      | cons token tokens => simp [hs, tokens?] at htokens
  · next n rest hr =>
      rw [hr] at htokens
      refine ⟨h.canceled, ?_⟩
      cases hs : s.tokens with
      | nil => simp [hs, tokens?] at htokens
      | cons token tokens =>
          simp only [hs, tokens?, List.map_cons, List.cons.injEq] at htokens
          exact htokens.2

/-- The first cancellation takes all tokens. -/
theorem cancel (h : a.Tells s) (hs : s.canceled = false) : a.cancel.Tells ⟨true, []⟩ ∧
    a.tokens? a.due = s.tokens.map some := by
  have hclosing : a.closing = none := by simpa [hs] using h.canceled
  simp only [Account.cancel, Account.due, hclosing]
  exact ⟨⟨rfl, rfl⟩, h.tokens⟩

/-- A later one does nothing. -/
theorem cancel_of_canceled (h : a.Tells s) (hs : s.canceled = true) : a.cancel = a ∧
    a.due = [] := by
  obtain ⟨k, hk⟩ : ∃ k, a.closing = some k := by
    simpa [hs, Option.isSome_iff_exists] using h.canceled.symm
  simp [Account.cancel, Account.due, hk]

end Tells

end Account

end Trampoline
