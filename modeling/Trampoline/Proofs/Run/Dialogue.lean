import Trampoline.Code

/-!
# The dialogue of a run

A run knows nothing of the host's code but what it answers.  This file names what a run
asks of its surroundings, one question for each use of the host's code and one for each
look at a connection, with all that the code is given, and the answers.

Main definitions:

- `Question`, `Question.Answer`: what is asked, and the type of the answer.
- `Exchange`: a question with its answer.
- `Reply`, `Question.read`: what a piece of code comes back with, and the answer in it.
-/

namespace Trampoline

/-- What a run asks of its surroundings before it goes on. -/
inductive Question (S : Closures) where
  /-- Whether the active connection has been canceled. -/
  | canceled (c : Connection)
  | thunk (k : S.Thunk)
  | delay (k : S.Delay)
  | bind (k : S.Bind) (v : Value)
  | map (k : S.Map) (v : Value)
  | handler (k : S.Handler) (e : Failure)
  | rescue (k : S.Rescue) (e : Failure)
  | modify (k : S.Modify) (current : Connection)
  | restore (k : S.Restore) (exit : Outcome) (old current : Connection)
  /-- The first completion of the callback that a registration is given. -/
  | async (k : S.Registration) (c : Connection)
  /-- The outcome of what a partial evaluation has left. -/
  | parked (node : Effect S) (stack : CallStack (Frame S)) (c : Connection)
  /-- The first completion of the callback that a body is given on a context. -/
  | deferred (context : Context S.Executor) (body : Body S) (c : Connection)

variable {S : Closures}

/-- The type of the answer to a question.  A panic that the run survives answers with a
failure. -/
abbrev Question.Answer : Question S → Type
  | canceled _ => Bool
  | thunk _ | bind _ _ | handler _ _ => Except Failure (Effect S)
  | modify _ _ | restore _ _ _ _ => Except Failure Connection
  | delay _ | map _ _ | rescue _ _ | async _ _ | parked _ _ _ | deferred _ _ _ => Outcome

/-- A question and the answer to it. -/
structure Exchange (S : Closures) where
  question : Question S
  answer : question.Answer

/-- A run suspends for the answer to a question. -/
def Question.Suspends : Question S → Prop
  | async _ _ | parked _ _ _ | deferred _ _ _ => True
  | _ => False

/-- What the code that works on a question comes back with. -/
inductive Reply (S : Closures) where
  | node (r : Except Failure (Effect S))
  | outcome (o : Outcome)
  | connection (r : Except Failure Connection)

namespace Reply

/-- The node in a reply, where the question asks for one. -/
def toNode : Reply S → Except Failure (Effect S)
  | node r => r
  | _ => .ok .unit

/-- The connection in a reply, where the question asks for one. -/
def toConnection : Reply S → Except Failure Connection
  | connection r => r
  | _ => .ok .uncancelable

/-- The outcome in a reply, where the question asks for one.  The code of a mapped value
comes back with the node of that value. -/
def toOutcome : Reply S → Outcome
  | outcome o => o
  | node (.ok (.pure v)) => .ok v
  | node (.error e) => .error e
  | _ => .ok .null

end Reply

/-- The answer to a question in what its code comes back with. -/
def Question.read : (q : Question S) → Reply S → q.Answer
  | canceled _, _ => false
  | thunk _, r | bind _ _, r | handler _ _, r => r.toNode
  | modify _ _, r | restore _ _ _ _, r => r.toConnection
  | delay _, r | map _ _, r | rescue _ _, r | async _ _, r | parked _ _ _, r
  | deferred _ _ _, r => r.toOutcome

/-! ## One more -/

/-- A place in a list with one more element is the last one, or a place in the list without it. -/
theorem split_concat {α : Type} {as xs ys : List α} {z x : α} (h : as ++ [z] = xs ++ x :: ys) :
    as = xs ∧ z = x ∨ ∃ ys', as = xs ++ x :: ys' := by
  rcases List.eq_nil_or_concat ys with rfl | ⟨ys', last, rfl⟩
  · obtain ⟨hxs, hx⟩ := List.append_inj' h rfl
    exact .inl ⟨hxs, (List.cons.inj hx).1⟩
  · have hsplit : as ++ [z] = (xs ++ x :: ys') ++ [last] := by simpa using h
    exact .inr ⟨ys', (List.append_inj' hsplit rfl).1⟩

end Trampoline
