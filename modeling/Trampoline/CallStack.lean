/-!
# The call stack

A stack with its top in a slot of its own and everything below it in a list.  Most
chains hold one pending frame only, which then never leaves the slot.

The frames below the slot are counted as they come and go, so that the length is at hand
at every boundary.

A search (`takeFirst`) gives back the topmost frame of a kind and drops every frame
above it.  The slot may be empty while frames are left below it, so one content can
have two shapes; `toList` is the content.
-/

namespace Trampoline

/-- A stack of frames: the slot for the top frame, and the frames below it, the
highest first. -/
structure CallStack (φ : Type) where
  first : Option φ
  rest : List φ
  /-- The number of frames below the slot. -/
  below : Nat
  below_eq : below = rest.length := by rfl

namespace CallStack

variable {φ : Type}

/-- The stack without frames. -/
def empty : CallStack φ where
  first := none
  rest := []
  below := 0

instance : Inhabited (CallStack φ) :=
  ⟨empty⟩

/-- The frames of a stack, the top one first. -/
def toList (stack : CallStack φ) : List φ :=
  stack.first.toList ++ stack.rest

/-- Put a frame on top.  The frame that was in the slot moves down. -/
def push (stack : CallStack φ) (frame : φ) : CallStack φ :=
  match stack.first with
  | some previous =>
    ⟨some frame, previous :: stack.rest, stack.below + 1, by simp [stack.below_eq]⟩
  | none => { stack with first := some frame }

/-- Take the topmost frame that `p` accepts out of so many frames, and drop the frames
above it. -/
def takeFirstBelow (p : φ → Bool) :
    (frames : List φ) → (count : Nat) → count = frames.length → Option φ × CallStack φ
  | [], _, _ => (none, empty)
  | frame :: rest, count, h =>
    have below_eq : count - 1 = rest.length := by simp [h]
    if p frame then (some frame, ⟨none, rest, count - 1, below_eq⟩)
    else takeFirstBelow p rest (count - 1) below_eq

/-- Take the topmost frame that `p` accepts, and drop the frames above it.  If there
is none, nothing is left. -/
def takeFirst (p : φ → Bool) (stack : CallStack φ) : Option φ × CallStack φ :=
  match stack.first with
  | some frame =>
    if p frame then (some frame, { stack with first := none })
    else takeFirstBelow p stack.rest stack.below stack.below_eq
  | none => takeFirstBelow p stack.rest stack.below stack.below_eq

/-- The number of frames. -/
def length (stack : CallStack φ) : Nat :=
  (if stack.first.isSome then 1 else 0) + stack.below

/-- Whether there is no frame. -/
def isEmpty (stack : CallStack φ) : Bool :=
  stack.first.isNone && stack.rest.isEmpty

@[simp]
theorem toList_empty : (empty : CallStack φ).toList = [] :=
  rfl

/-- A pushed frame is on top. -/
@[simp]
theorem toList_push (stack : CallStack φ) (frame : φ) :
    (stack.push frame).toList = frame :: stack.toList := by
  obtain ⟨first, rest, below, h⟩ := stack
  cases first <;> rfl

/-- The length is the number of frames. -/
theorem length_eq (stack : CallStack φ) : stack.length = stack.toList.length := by
  obtain ⟨first, rest, _, rfl⟩ := stack
  cases first <;> simp [length, toList, Nat.add_comm]

/-- A stack is empty if it has no frames, in the slot or below it. -/
theorem isEmpty_iff (stack : CallStack φ) : stack.isEmpty = true ↔ stack.toList = [] := by
  obtain ⟨first, rest, below, h⟩ := stack
  cases first <;> simp [isEmpty, toList]

end CallStack

end Trampoline
