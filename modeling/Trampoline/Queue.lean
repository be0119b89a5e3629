/-!
# Queues

First come, first served.  What came last stands in a list of its own, in reverse, so
that both ends are at hand; `toList` is the content.
-/

namespace Trampoline

/-- A queue: the front, the oldest first, and what came after it, the latest first. -/
structure Queue (α : Type) where
  front : List α
  back : List α

namespace Queue

variable {α : Type}

/-- The queue in which nothing waits. -/
def empty : Queue α where
  front := []
  back := []

/-- What waits in a queue, the oldest first. -/
def toList (queue : Queue α) : List α :=
  queue.front ++ queue.back.reverse

/-- Add something at the end. -/
def push (queue : Queue α) (a : α) : Queue α :=
  { queue with back := a :: queue.back }

/-- Take what waits longest. -/
def pop? (queue : Queue α) : Option (α × Queue α) :=
  match queue.front with
  | a :: front => some (a, { queue with front := front })
  | [] =>
    match queue.back.reverse with
    | a :: front => some (a, ⟨front, []⟩)
    | [] => none

@[simp]
theorem toList_empty : (empty : Queue α).toList = [] :=
  rfl

/-- A pushed element comes last. -/
@[simp]
theorem toList_push (queue : Queue α) (a : α) : (queue.push a).toList = queue.toList ++ [a] := by
  simp [push, toList]

/-- What is taken is the head of the content, and its tail stays. -/
theorem map_toList_pop? (queue : Queue α) :
    queue.pop?.map (fun (a, rest) => a :: rest.toList) =
      if queue.toList = [] then none else some queue.toList := by
  obtain ⟨_ | ⟨a, front⟩, back⟩ := queue
  · cases h : back.reverse <;> simp [pop?, toList, h]
  · simp [pop?, toList]

end Queue

end Trampoline
