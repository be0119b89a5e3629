import Trampoline.Proofs.Run.Determinism

/-!
# Evaluations on open connections

As long as no connection has been canceled, the looks at connections make no difference: an
evaluation is what is asked between them.  With the looks left out, evaluations under
different connections, and evaluations that look more or less often, can be put together.

Main definitions and results:

- Definitions `spoken`, `Open`: exchanges without the looks, and looks that find nothing.
- Definition `Unhindered`: an evaluation on open connections, with the looks left out.
- Theorem `SameAnswers.of_spoken`: what is answered between the looks decides.
- Theorem `Unhindered.ahead`: evaluations that have come from one.
- Definitions `Link`, `Effect.chain`, theorem `Unhindered.chain`: the links of a chain become
  frames.
-/

namespace Trampoline

variable {S : Closures}

/-! ## Exchanges without looks -/

/-- An exchange that is a look at a connection. -/
def Exchange.isLook (x : Exchange S) : Bool :=
  match x.question with
  | .canceled _ => true
  | _ => false

/-- Only a look at a connection is a look. -/
theorem Question.isLook_of_ne {q : Question S} (h : ∀ c, q ≠ .canceled c) (a : q.Answer) :
    (⟨q, a⟩ : Exchange S).isLook = false := by
  cases q with
  | canceled c => exact absurd rfl (h c)
  | _ => rfl

/-- What is asked between the looks. -/
def spoken (xs : List (Exchange S)) : List (Exchange S) :=
  xs.filter fun x => !x.isLook

/-- No look finds its connection canceled. -/
def Open (xs : List (Exchange S)) : Prop :=
  ∀ c, (⟨.canceled c, true⟩ : Exchange S) ∉ xs

/-- An exchange that is a look at a canceled connection. -/
def Exchange.findsCanceled : Exchange S → Bool
  | ⟨.canceled _, canceled⟩ => canceled
  | _ => false

/-- No look finds its connection canceled if and only if no exchange is such a look. -/
theorem open_iff {xs : List (Exchange S)} : Open xs ↔ ∀ x ∈ xs, x.findsCanceled = false := by
  constructor
  · rintro h ⟨q, a⟩ hx
    cases q with
    | canceled c =>
        cases a with
        | true => exact absurd hx (h c)
        | false => rfl
    | _ => rfl
  · intro h c hx
    cases h _ hx

instance (xs : List (Exchange S)) : Decidable (Open xs) :=
  decidable_of_iff _ open_iff.symm

/-- Nothing is asked where there are no exchanges. -/
@[simp]
theorem spoken_nil : spoken ([] : List (Exchange S)) = [] :=
  rfl

/-- The questions between the looks, of exchanges in a row. -/
@[simp]
theorem spoken_append (xs ys : List (Exchange S)) : spoken (xs ++ ys) = spoken xs ++ spoken ys :=
  List.filter_append xs ys

/-- A question that is no look is among the questions between the looks. -/
theorem spoken_cons {x : Exchange S} (h : x.isLook = false) (xs : List (Exchange S)) :
    spoken (x :: xs) = x :: spoken xs := by
  simp [spoken, h]

/-- Without the looks there are no more looks to leave out. -/
@[simp]
theorem spoken_spoken (xs : List (Exchange S)) : spoken (spoken xs) = spoken xs := by
  simp [spoken]

/-- Looks run no code of the host. -/
@[simp]
theorem calledIn_spoken (xs : List (Exchange S)) : calledIn (spoken xs) = calledIn xs := by
  induction xs with
  | nil => rfl
  | cons x xs ih =>
      obtain ⟨q, a⟩ := x
      cases q with
      | canceled c => exact ih
      | _ =>
          rw [spoken_cons rfl]
          exact congrArg (List.cons _) ih

/-- Where there is no look, none finds its connection canceled. -/
theorem Open.nil : Open ([] : List (Exchange S)) := fun _ hx => by cases hx

/-- Exchanges in a row find no connection canceled if neither part does. -/
theorem Open.append {xs ys : List (Exchange S)} (h : Open xs) (h' : Open ys) :
    Open (xs ++ ys) := by
  intro c hx
  rcases List.mem_append.mp hx with hx | hx
  · exact h c hx
  · exact h' c hx

/-- Neither part of such exchanges finds its connection canceled. -/
theorem Open.of_append {xs ys : List (Exchange S)} (h : Open (xs ++ ys)) : Open xs ∧ Open ys :=
  ⟨fun c hx => h c (List.mem_append_left ys hx), fun c hx => h c (List.mem_append_right xs hx)⟩

/-- A look that finds its connection open. -/
theorem Open.look (c : Connection) : Open ([⟨.canceled c, false⟩] : List (Exchange S)) := by
  intro c' hx
  cases List.mem_singleton.mp hx

/-- A question that is no look finds no connection canceled. -/
theorem Open.of_not_look {x : Exchange S} (h : x.isLook = false) : Open [x] := by
  intro c hx
  rw [← List.mem_singleton.mp hx] at h
  cases h

/-- Looks that find nothing give the same answers, so what is asked between them decides. -/
theorem SameAnswers.of_spoken {xs ys : List (Exchange S)} (hxs : Open xs) (hys : Open ys)
    (h : SameAnswers (spoken xs) (spoken ys)) : SameAnswers xs ys := by
  rintro zs ⟨q, a⟩ xs' ⟨q', a'⟩ ys' rfl rfl hq
  obtain rfl : q = q' := hq
  by_cases hlook : (⟨q, a⟩ : Exchange S).isLook = true
  · cases q with
    | canceled c =>
        cases a with
        | true => exact absurd (List.mem_append_right zs List.mem_cons_self) (hxs c)
        | false =>
            cases a' with
            | true => exact absurd (List.mem_append_right zs List.mem_cons_self) (hys c)
            | false => rfl
    | _ => cases hlook
  · have hx : (⟨q, a⟩ : Exchange S).isLook = false := by simpa using hlook
    have hy : (⟨q, a'⟩ : Exchange S).isLook = false := hx
    exact h (spoken zs) _ (spoken xs') _ (spoken ys') (by rw [spoken_append, spoken_cons hx])
      (by rw [spoken_append, spoken_cons hy]) rfl

/-- The beginning of what is answered is answered in the same way. -/
theorem SameAnswers.of_isPrefix {xs ys : List (Exchange S)} (h : xs <+: ys) :
    SameAnswers xs ys := by
  rintro zs x xs' y ys' rfl rfl -
  rw [List.prefix_append_right_inj, List.cons_prefix_cons] at h
  exact h.1

/-- What has the same answers has them at its beginning. -/
theorem SameAnswers.start {xs ys zs : List (Exchange S)} (h : SameAnswers xs zs)
    (hys : ys <+: zs) : SameAnswers xs ys := by
  obtain ⟨ts, rfl⟩ := hys
  rintro ws x xs' y ys' rfl rfl hq
  exact h ws x xs' y (ys' ++ ts) rfl (by simp) hq

/-- The questions between the looks begin alike as the exchanges do. -/
theorem spoken_isPrefix {xs ys : List (Exchange S)} (h : xs <+: ys) : spoken xs <+: spoken ys :=
  h.filter _

/-! ## Unhindered evaluations -/

/-- On open connections, and with these answers between the looks, one evaluation becomes
another. -/
def Unhindered (m : Course S) (zs : List (Exchange S)) (n : Course S) : Prop :=
  ∃ xs, Proceeds m xs n ∧ Open xs ∧ spoken xs = zs

/-- An evaluation on open connections, told without its looks. -/
theorem Proceeds.unhindered {m n : Course S} {xs : List (Exchange S)} (h : Proceeds m xs n)
    (hxs : Open xs) : Unhindered m (spoken xs) n :=
  ⟨xs, h, hxs, rfl⟩

namespace Unhindered

variable {m n k : Course S} {ys zs : List (Exchange S)}

/-- An evaluation becomes itself without a question. -/
theorem refl (m : Course S) : Unhindered m [] m :=
  ⟨[], .refl m, .nil, rfl⟩

/-- Unhindered evaluations in a row. -/
theorem trans (h : Unhindered m ys n) (h' : Unhindered n zs k) : Unhindered m (ys ++ zs) k := by
  obtain ⟨xs, hp, hopen, rfl⟩ := h
  obtain ⟨xs', hp', hopen', rfl⟩ := h'
  exact ⟨xs ++ xs', hp.trans hp', hopen.append hopen', spoken_append xs xs'⟩

/-- What follows without a question adds nothing. -/
theorem onward (h : Unhindered m zs n) (h' : Unhindered n [] k) : Unhindered m zs k := by
  simpa using h.trans h'

/-- Frames below do not hinder an evaluation. -/
theorem within (h : Unhindered m zs n) (frames : List (Frame S)) :
    Unhindered (m.within frames) zs (n.within frames) := by
  obtain ⟨xs, hp, hopen, rfl⟩ := h
  exact (hp.within frames).unhindered hopen

/-- A node is met on an open connection. -/
theorem look (c : Connection) (e : Effect S) : Unhindered (.eval c e) [] (e.move c) :=
  (Proceeds.look c e false).unhindered (.look c)

/-- An outcome that is met as a node is an exit. -/
theorem outcome (c : Connection) (o : Outcome) :
    Unhindered (.completion c o) [] (.exit c o : Course S) := by
  cases o with
  | ok v => exact look c (.pure v)
  | error e => exact look c (.fail e)

/-- Of two evaluations that have come from one, the one with more answers goes on from the
other one, or it is on the way there. -/
theorem ahead (h : Unhindered m ys n) (hk : Unhindered m (ys ++ zs) k) :
    Unhindered n zs k ∨ zs = [] ∧ Unhindered k [] n := by
  obtain ⟨xs, hp, hopen, rfl⟩ := h
  obtain ⟨xs', hp', hopen', hspoken⟩ := hk
  have halike : SameAnswers xs xs' :=
    .of_spoken hopen hopen' (.of_isPrefix (hspoken ▸ List.prefix_append _ _))
  rcases hp.comparable hp' halike with ⟨ws, rfl, hrest⟩ | ⟨ws, rfl, hrest⟩
  · rw [spoken_append] at hspoken
    rw [← List.append_cancel_left hspoken]
    exact .inl (hrest.unhindered hopen'.of_append.2)
  · rw [spoken_append, List.append_assoc] at hspoken
    have hnil : spoken ws ++ zs = [] := by simpa using hspoken
    obtain ⟨hws, rfl⟩ := List.append_eq_nil_iff.mp hnil
    exact .inr ⟨rfl, ws, hrest, hopen.of_append.2, hws⟩

/-- An evaluation that waits for an answer has not got it, or goes on with it. -/
theorem taken (h : Unhindered m zs k) {q : Question S} {next : q.Answer → Course S}
    (hm : m.head = .asks q next) (hq : ∀ c, q ≠ .canceled c) :
    zs = [] ∧ k = m ∨ ∃ a ys, zs = ⟨q, a⟩ :: ys ∧ Unhindered (next a) ys k := by
  obtain ⟨xs, hp, hopen, rfl⟩ := h
  rcases hp.taken hm with ⟨rfl, rfl⟩ | ⟨a, ys, rfl, hrest⟩
  · exact .inl ⟨rfl, rfl⟩
  · have hlook := Question.isLook_of_ne hq a
    have hsplit : Open ([⟨q, a⟩] ++ ys) := hopen
    exact .inr ⟨a, spoken ys, spoken_cons hlook ys, hrest.unhindered hsplit.of_append.2⟩

/-- Of two evaluations that have come from one with the same answers, and both ask, neither is
behind. -/
theorem eq_of_asks (h : Unhindered m zs n) (hk : Unhindered m zs k) {q q' : Question S}
    {next : q.Answer → Course S} {next' : q'.Answer → Course S} (hn : n.head = .asks q next)
    (hq : ∀ c, q ≠ .canceled c) (hk' : k.head = .asks q' next') (hq' : ∀ c, q' ≠ .canceled c) :
    n = k := by
  have hmore : Unhindered m (zs ++ []) k := by
    rw [List.append_nil]
    exact hk
  rcases h.ahead hmore with hrest | ⟨-, hrest⟩
  · rcases hrest.taken hn hq with ⟨-, hsame⟩ | ⟨a, ys, hcons, -⟩
    · exact hsame.symm
    · cases hcons
  · rcases hrest.taken hk' hq' with ⟨-, hsame⟩ | ⟨a, ys, hcons, -⟩
    · exact hsame
    · cases hcons

end Unhindered

/-! ## Chains -/

/-- A link of a chain. -/
inductive Link (S : Closures) where
  | flatMap (f : S.Bind)
  | map (f : S.Map)
  | handleErrorWith (h : S.Handler)
  | redeemWith (onError : S.Handler) (onValue : S.Bind)
  | attempt
  | continueOn (context : Context S.Executor)

/-- The frame that a link becomes. -/
def Link.frame : Link S → Frame S
  | flatMap f => .bind (.user f)
  | map f => .map f
  | handleErrorWith h => .handle (.user h)
  | redeemWith onError onValue => .fold (.user onValue) (.user onError)
  | attempt => .fold .pure .reify
  | continueOn context => .bind (.shift context)

/-- An effect with one link more. -/
def Effect.link (e : Effect S) : Link S → Effect S
  | .flatMap f => e.flatMap f
  | .map f => .map e f
  | .handleErrorWith h => e.handleErrorWith h
  | .redeemWith onError onValue => e.redeemWith onError onValue
  | .attempt => e.attempt
  | .continueOn context => .continueOn context e

/-- An effect with the links of a chain, from the first to the last. -/
def Effect.chain (e : Effect S) (links : List (Link S)) : Effect S :=
  links.foldl link e

/-- A link waits as a frame for the effect before it. -/
theorem Unhindered.link (c : Connection) (e : Effect S) (l : Link S) :
    Unhindered (.eval c (e.link l)) [] (.seq (.eval c e) l.frame) := by
  cases l with
  | continueOn context =>
      exact (look c (.continueOn context e)).trans (look c (.bind e (.bind (.shift context))))
  | flatMap f => exact look c _
  | map f => exact look c _
  | handleErrorWith h => exact look c _
  | redeemWith onError onValue => exact look c _
  | attempt => exact look c _

/-- The links of a chain wait as frames for the effect before them. -/
theorem Unhindered.chain (c : Connection) (e : Effect S) (links : List (Link S)) :
    Unhindered (.eval c (e.chain links)) [] ((Course.eval c e).within (links.map Link.frame)) := by
  induction links generalizing e with
  | nil => exact refl _
  | cons l links ih => exact (ih (e.link l)).trans ((link c e l).within _)

end Trampoline
