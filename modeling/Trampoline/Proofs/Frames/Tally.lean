import Trampoline.Proofs.Run.Frames

/-!
# The tally of frames

Frames are data: two frames of a stack may be the same, and still each is pushed and taken off by
itself.  So the tally numbers them in the order in which they are pushed, and writes down which
number leaves the stack, when, and in what way.

Main definitions and results:

- Definitions `Departure`, `Departure.Fits`: how a frame leaves a stack, and which frames may leave
  it so.
- Definitions `Move`, `Tally`: the pushes and departures in their order, and the frames that are
  left.
- Definitions `Tally.push`, `Tally.exit`, `Tally.abandon`: what is written down when a frame is
  pushed, when an exit goes to a frame or out of all, and when a whole stack is given up.
- Definition `Tally.Sound`: each frame leaves once at most, after those pushed later, and in a way
  that fits it.
- Theorems `Tally.Sound.push`, `Sound.exit_some`, `Sound.exit_none`, `Sound.abandon`: a tally stays
  sound.
-/

namespace Trampoline

variable {S : Closures}

/-! ## Uses -/

/-- How a frame leaves a stack. -/
inductive Departure where
  /-- It is given a value. -/
  | applied (v : Value)
  /-- It is given a failure to recover from. -/
  | recovered (e : Failure)
  /-- A value passes it. -/
  | skipped (v : Value)
  /-- A failure passes it. -/
  | unwound (e : Failure)
  /-- It is given up together with all frames below it. -/
  | abandoned

namespace Departure

/-- How a frame leaves that takes an exit. -/
def taking : Outcome → Departure
  | .ok v => applied v
  | .error e => recovered e

/-- How a frame leaves that an exit passes. -/
def passing : Outcome → Departure
  | .ok v => skipped v
  | .error e => unwound e

/-- A frame may leave in this way.  A value is never given to a handler, which is all that a value
passes; a failure is given to handlers, folds and ends of regions, and passes binds and maps. -/
def Fits : Departure → Frame S → Prop
  | applied _, frame => ∀ h, frame ≠ .handle h
  | recovered _, frame =>
    (∃ h, frame = .handle h) ∨ (∃ f h, frame = .fold f h) ∨ ∃ old r, frame = .restore old r
  | skipped _, frame => ∃ h, frame = .handle h
  | unwound _, frame => (∃ f, frame = .bind f) ∨ ∃ k, frame = .map k
  | abandoned, _ => True

/-- A frame that takes an outcome may leave by taking it. -/
theorem fits_taking {frame : Frame S} {o : Outcome} (h : frame.takes o = true) :
    (taking o).Fits frame := by
  cases o with
  | ok v =>
      rintro k rfl
      cases h
  | error e =>
      cases frame with
      | handle k => exact .inl ⟨k, rfl⟩
      | fold f k => exact .inr (.inl ⟨f, k, rfl⟩)
      | restore old r => exact .inr (.inr ⟨old, r, rfl⟩)
      | _ => cases h

/-- A frame that takes no such outcome may leave by being passed by it. -/
theorem fits_passing {frame : Frame S} {o : Outcome} (h : frame.takes o = false) :
    (passing o).Fits frame := by
  cases o with
  | ok v =>
      cases frame with
      | handle k => exact ⟨k, rfl⟩
      | _ => cases h
  | error e =>
      cases frame with
      | bind f => exact .inl ⟨f, rfl⟩
      | map k => exact .inr ⟨k, rfl⟩
      | _ => cases h

end Departure

/-! ## Moves -/

/-- A frame comes to a stack or leaves it. -/
inductive Move (S : Closures) where
  | push (frame : Frame S)
  /-- Frame `n` is the one that was pushed after `n` others. -/
  | leave (n : Nat) (use : Departure)

/-- The frames that are pushed. -/
def pushedIn (moves : List (Move S)) : List (Frame S) :=
  moves.filterMap fun
    | .push frame => some frame
    | .leave _ _ => none

/-- The frames that leave. -/
def leftIn (moves : List (Move S)) : List Nat :=
  moves.filterMap fun
    | .push _ => none
    | .leave n _ => some n

/-- The frames pushed by moves in a row. -/
@[simp]
theorem pushedIn_append (xs ys : List (Move S)) :
    pushedIn (xs ++ ys) = pushedIn xs ++ pushedIn ys :=
  List.filterMap_append

/-- The frames that leave by moves in a row. -/
@[simp]
theorem leftIn_append (xs ys : List (Move S)) : leftIn (xs ++ ys) = leftIn xs ++ leftIn ys :=
  List.filterMap_append

/-- A push pushes its frame. -/
@[simp]
theorem pushedIn_push (frame : Frame S) : pushedIn [.push frame] = [frame] :=
  rfl

/-- A departure pushes nothing. -/
@[simp]
theorem pushedIn_leave (n : Nat) (use : Departure) : pushedIn [(.leave n use : Move S)] = [] :=
  rfl

/-- No frame leaves by a push. -/
@[simp]
theorem leftIn_push (frame : Frame S) : leftIn [.push frame] = [] :=
  rfl

/-- A departure is of the frame it names. -/
@[simp]
theorem leftIn_leave (n : Nat) (use : Departure) : leftIn [(.leave n use : Move S)] = [n] :=
  rfl

/-- What is known of the frames of a stack. -/
structure Tally (S : Closures) where
  moves : List (Move S)
  /-- The frames that have not left, the one pushed last first. -/
  waiting : List Nat

namespace Tally

/-- Nothing has been pushed. -/
def empty : Tally S where
  moves := []
  waiting := []

/-- The frames that have been pushed. -/
def frames (t : Tally S) : List (Frame S) :=
  pushedIn t.moves

/-- The frames that have left. -/
def left (t : Tally S) : List Nat :=
  leftIn t.moves

/-- A frame is pushed. -/
def push (t : Tally S) (frame : Frame S) : Tally S where
  moves := t.moves ++ [.push frame]
  waiting := t.frames.length :: t.waiting

/-- The frame on top leaves. -/
def remove (t : Tally S) (use : Departure) : Tally S :=
  match t.waiting with
  | n :: rest => ⟨t.moves ++ [.leave n use], rest⟩
  | [] => t

/-- So many frames leave, one after the other. -/
def removes (t : Tally S) (use : Departure) : Nat → Tally S
  | 0 => t
  | count + 1 => (t.remove use).removes use count

/-- A pushed frame comes after those pushed before. -/
@[simp]
theorem frames_push (t : Tally S) (frame : Frame S) :
    (t.push frame).frames = t.frames ++ [frame] := by
  simp [frames, push]

/-- No frame leaves when another is pushed. -/
@[simp]
theorem left_push (t : Tally S) (frame : Frame S) : (t.push frame).left = t.left := by
  simp [left, push]

/-- A pushed frame waits on top, under the next number. -/
@[simp]
theorem waiting_push (t : Tally S) (frame : Frame S) :
    (t.push frame).waiting = t.frames.length :: t.waiting :=
  rfl

/-- The departure of a frame does not change what has been pushed. -/
@[simp]
theorem frames_remove (t : Tally S) (use : Departure) : (t.remove use).frames = t.frames := by
  unfold remove
  split <;> simp [frames]

/-- Departures do not change what has been pushed. -/
@[simp]
theorem frames_removes (t : Tally S) (use : Departure) (count : Nat) :
    (t.removes use count).frames = t.frames := by
  induction count generalizing t with
  | zero => rfl
  | succ count ih => exact (ih _).trans (t.frames_remove use)

/-- The frame on top leaves. -/
theorem remove_eq {t : Tally S} {n : Nat} {rest : List Nat} (h : t.waiting = n :: rest)
    (use : Departure) : t.remove use = ⟨t.moves ++ [.leave n use], rest⟩ := by
  simp [remove, h]

/-- An exit goes to the next frame in a stack that takes it, or out of the stack.  What has been
dropped is seen from what is left. -/
def exit (t : Tally S) (stack : CallStack (Frame S)) (o : Outcome) : Tally S :=
  match stack.takeFor o with
  | (some _, left) =>
    (t.removes (.passing o) (stack.length - left.length - 1)).remove (.taking o)
  | (none, left) => t.removes (.passing o) (stack.length - left.length)

/-- All frames are given up. -/
def abandon (t : Tally S) : Tally S :=
  t.removes .abandoned t.waiting.length

/-- The frames that wait are these, the one on top first. -/
def Holds (t : Tally S) (frames : List (Frame S)) : Prop :=
  t.waiting.map (t.frames[·]?) = frames.map some

/-- Each frame leaves once at most, after all frames that were pushed later, and in a way that fits
it. -/
structure Sound (t : Tally S) : Prop where
  /-- A frame that has been pushed is on the stack or has left it, once. -/
  once : ∀ n, t.waiting.count n + t.left.count n = if n < t.frames.length then 1 else 0
  sorted : t.waiting.Pairwise (· > ·)
  order : ∀ before n use after, t.moves = before ++ .leave n use :: after →
    n < (pushedIn before).length ∧ n ∉ leftIn before ∧
      ∀ m, n < m → m < (pushedIn before).length → m ∈ leftIn before
  fits : ∀ n use, .leave n use ∈ t.moves → ∃ frame, t.frames[n]? = some frame ∧ use.Fits frame

variable {t : Tally S} {frames : List (Frame S)}

/-- Nothing is wrong with the tally in which nothing has been pushed. -/
theorem sound_empty : (empty : Tally S).Sound where
  once := fun _ => rfl
  sorted := .nil
  order := fun before n use after h => by simp [empty] at h
  fits := fun n use h => by cases h

/-- No frame waits where none has been pushed. -/
theorem holds_empty : (empty : Tally S).Holds [] :=
  rfl

/-- What a longer list of moves says of a departure is what it says of the last move, or what the
shorter list says. -/
theorem order_concat {moves : List (Move S)} {move : Move S}
    (h : ∀ before n use after, moves = before ++ .leave n use :: after →
      n < (pushedIn before).length ∧ n ∉ leftIn before ∧
        ∀ m, n < m → m < (pushedIn before).length → m ∈ leftIn before)
    (hlast : ∀ n use, move = .leave n use → n < (pushedIn moves).length ∧ n ∉ leftIn moves ∧
      ∀ m, n < m → m < (pushedIn moves).length → m ∈ leftIn moves)
    (before : List (Move S)) (n : Nat) (use : Departure) (after : List (Move S))
    (hsplit : moves ++ [move] = before ++ .leave n use :: after) :
    n < (pushedIn before).length ∧ n ∉ leftIn before ∧
      ∀ m, n < m → m < (pushedIn before).length → m ∈ leftIn before := by
  rcases split_concat hsplit with ⟨rfl, hmove⟩ | ⟨after', hmoves⟩
  · exact hlast n use hmove
  · exact h before n use after' hmoves

namespace Sound

/-- A frame that waits has been pushed. -/
theorem lt_of_waiting (h : t.Sound) {n : Nat} (hn : n ∈ t.waiting) : n < t.frames.length := by
  have honce := h.once n
  have hpos := List.count_pos_iff.mpr hn
  split at honce
  · assumption
  · omega

/-- A tally stays sound when a frame is pushed. -/
theorem push (h : t.Sound) (frame : Frame S) : (t.push frame).Sound where
  once := fun n => by
    have honce := h.once n
    have hfresh := h.once t.frames.length
    rw [if_neg (Nat.lt_irrefl _)] at hfresh
    simp only [waiting_push, left_push, frames_push, List.length_append, List.length_singleton,
      List.count_cons]
    by_cases hn : t.frames.length = n
    · subst hn
      simp
      omega
    · have hlt : n < t.frames.length + 1 ↔ n < t.frames.length := by omega
      simp only [beq_iff_eq, hn, if_false, hlt]
      omega
  sorted := List.pairwise_cons.mpr ⟨fun n hn => h.lt_of_waiting hn, h.sorted⟩
  order := order_concat h.order fun n use hmove => by cases hmove
  fits := fun n use hmem => by
    have hmem' : .leave n use ∈ t.moves := by simpa [Tally.push] using hmem
    obtain ⟨frame', hframe, hfits⟩ := h.fits n use hmem'
    have hlt : n < t.frames.length := (List.getElem?_eq_some_iff.mp hframe).1
    refine ⟨frame', ?_, hfits⟩
    rw [frames_push, List.getElem?_append_left hlt]
    exact hframe

/-- The frame on top leaves in a way that fits it. -/
theorem remove (h : t.Sound) {n : Nat} {rest : List Nat} (hwaiting : t.waiting = n :: rest)
    {frame : Frame S} (hframe : t.frames[n]? = some frame) {use : Departure}
    (hfits : use.Fits frame) : (t.remove use).Sound := by
  have hsorted := h.sorted
  rw [hwaiting, List.pairwise_cons] at hsorted
  have hgone : n ∉ t.left ∧ ∀ m, n < m → m < t.frames.length → m ∈ t.left := by
    refine ⟨fun hmem => ?_, fun m hnm hm => ?_⟩
    · have honce := h.once n
      have hpos := List.count_pos_iff.mpr hmem
      rw [hwaiting, List.count_cons_self] at honce
      split at honce <;> omega
    · have honce := h.once m
      have hnot : m ∉ t.waiting := by
        rw [hwaiting, List.mem_cons]
        rintro (rfl | hmem)
        · exact Nat.lt_irrefl _ hnm
        · exact Nat.lt_asymm hnm (hsorted.1 m hmem)
      rw [if_pos hm, List.count_eq_zero.mpr hnot] at honce
      exact List.count_pos_iff.mp (by omega)
  refine ⟨fun m => ?_, ?_, ?_, fun m use' hmem => ?_⟩
  · have honce := h.once m
    rw [hwaiting, List.count_cons] at honce
    rw [frames_remove, remove_eq hwaiting]
    simp only [left, leftIn_append, leftIn_leave, List.count_append, List.count_singleton]
      at honce ⊢
    omega
  · rw [remove_eq hwaiting]
    exact hsorted.2
  · rw [remove_eq hwaiting]
    refine order_concat h.order fun n' use' hmove => ?_
    cases hmove
    exact ⟨(List.getElem?_eq_some_iff.mp hframe).1, hgone⟩
  · rw [frames_remove]
    rw [remove_eq hwaiting] at hmem
    rcases List.mem_append.mp hmem with hmem | hmem
    · exact h.fits m use' hmem
    · rw [List.mem_singleton] at hmem
      cases hmem
      exact ⟨frame, hframe, hfits⟩

end Sound

/-- What waits after the frame on top has left. -/
theorem Holds.remove {frame : Frame S} (h : t.Holds (frame :: frames)) (use : Departure) :
    (∃ n rest, t.waiting = n :: rest ∧ t.frames[n]? = some frame) ∧
      (t.remove use).Holds frames := by
  unfold Holds at h
  cases hwaiting : t.waiting with
  | nil => simp [hwaiting] at h
  | cons n rest =>
      simp only [hwaiting, List.map_cons, List.cons.injEq] at h
      refine ⟨⟨n, rest, rfl, h.1⟩, ?_⟩
      rw [Holds, frames_remove, remove_eq hwaiting]
      exact h.2

/-- A pushed frame waits on top of those that wait. -/
theorem Holds.push (h : t.Holds frames) (hs : t.Sound) (frame : Frame S) :
    (t.push frame).Holds (frame :: frames) := by
  rw [Holds, frames_push, waiting_push, List.map_cons, List.map_cons, List.cons.injEq, ← h]
  refine ⟨by simp, List.map_congr_left fun n hn => ?_⟩
  exact List.getElem?_append_left (hs.lt_of_waiting hn)

/-- The frames that leave, one after the other, leave in a way that fits them. -/
theorem Sound.removes (h : t.Sound) {dropped : List (Frame S)} (hh : t.Holds (dropped ++ frames))
    {use : Departure} (hfits : ∀ frame ∈ dropped, use.Fits frame) :
    (t.removes use dropped.length).Sound ∧ (t.removes use dropped.length).Holds frames := by
  induction dropped generalizing t with
  | nil => exact ⟨h, hh⟩
  | cons frame dropped ih =>
      obtain ⟨⟨n, rest, hwaiting, hframe⟩, hrest⟩ := hh.remove use
      exact ih (h.remove hwaiting hframe (hfits frame (by simp))) hrest
        fun f hf => hfits f (by simp [hf])

/-- An exit that a frame takes passes the frames above it, and then the frame leaves. -/
theorem Sound.exit_some (h : t.Sound) {stack left : CallStack (Frame S)}
    (hh : t.Holds stack.toList) {o : Outcome} {frame : Frame S}
    (htake : stack.takeFor o = (some frame, left)) :
    ∃ count n rest, t.exit stack o = (t.removes (.passing o) count).remove (.taking o) ∧
      (t.removes (.passing o) count).waiting = n :: rest ∧ t.frames[n]? = some frame ∧
        (t.exit stack o).Sound ∧ (t.exit stack o).Holds left.toList := by
  have hexit : t.exit stack o =
      (t.removes (.passing o) (stack.length - left.length - 1)).remove (.taking o) := by
    simp only [Tally.exit, htake]
  rw [CallStack.takeFor_eq_takeFirst] at htake
  obtain ⟨dropped, hstack, hdropped, htakes⟩ := CallStack.takeFirst_some htake
  have hcount : stack.length - left.length - 1 = dropped.length := by
    rw [stack.length_eq, left.length_eq, hstack, List.length_append, List.length_cons]
    omega
  rw [hstack] at hh
  obtain ⟨hsound, hholds⟩ := h.removes hh fun f hf => Departure.fits_passing (hdropped f hf)
  obtain ⟨⟨n, rest, hwaiting, hframe⟩, hleft⟩ := hholds.remove (.taking o)
  rw [hexit, hcount]
  refine ⟨_, n, rest, rfl, hwaiting, by simpa using hframe, ?_, hleft⟩
  exact hsound.remove hwaiting hframe (Departure.fits_taking htakes)

/-- An exit that no frame takes passes all frames. -/
theorem Sound.exit_none (h : t.Sound) {stack left : CallStack (Frame S)}
    (hh : t.Holds stack.toList) {o : Outcome} (htake : stack.takeFor o = (none, left)) :
    ∃ count, t.exit stack o = t.removes (.passing o) count ∧
      (t.exit stack o).Sound ∧ (t.exit stack o).Holds [] := by
  have hexit : t.exit stack o = t.removes (.passing o) (stack.length - left.length) := by
    simp only [Tally.exit, htake]
  rw [CallStack.takeFor_eq_takeFirst] at htake
  have hcount : stack.length - left.length = stack.toList.length := by
    rw [stack.length_eq, left.length_eq, CallStack.takeFirst_none_left htake, List.length_nil,
      Nat.sub_zero]
  rw [← List.append_nil stack.toList] at hh
  rw [hexit, hcount]
  exact ⟨_, rfl, h.removes hh fun f hf =>
    Departure.fits_passing (CallStack.takeFirst_none htake f hf)⟩

/-- A stack that is given up is left by all its frames. -/
theorem Sound.abandon (h : t.Sound) (hh : t.Holds frames) :
    t.abandon.Sound ∧ t.abandon.Holds [] := by
  have hcount : t.waiting.length = frames.length := by
    simpa using congrArg List.length hh
  rw [Tally.abandon, hcount]
  rw [← List.append_nil frames] at hh
  exact h.removes hh fun _ _ => trivial

/-- A move that is written down is one of those that were, or the new departure. -/
theorem mem_remove {use : Departure} {move : Move S} (h : move ∈ (t.remove use).moves) :
    move ∈ t.moves ∨ ∃ n, move = .leave n use := by
  cases hwaiting : t.waiting with
  | nil =>
      simp only [remove, hwaiting] at h
      exact .inl h
  | cons n rest =>
      rw [remove_eq hwaiting] at h
      rcases List.mem_append.mp h with h | h
      · exact .inl h
      · exact .inr ⟨n, List.mem_singleton.mp h⟩

/-- The moves of departures are those before, and departures in that way. -/
theorem mem_removes {use : Departure} {count : Nat} {move : Move S}
    (h : move ∈ (t.removes use count).moves) : move ∈ t.moves ∨ ∃ n, move = .leave n use := by
  induction count generalizing t with
  | zero => exact .inl h
  | succ count ih => exact (ih h).elim mem_remove .inr

/-- What an exit adds to the moves: frames that it passes, and the frame that it is given to. -/
theorem Sound.mem_exit (h : t.Sound) {stack : CallStack (Frame S)} (hh : t.Holds stack.toList)
    {o : Outcome} {move : Move S} (hmove : move ∈ (t.exit stack o).moves) :
    move ∈ t.moves ∨ (∃ n, move = .leave n (.passing o)) ∨ ∃ n frame left,
      move = .leave n (.taking o) ∧ stack.takeFor o = (some frame, left) ∧
        t.frames[n]? = some frame := by
  cases htake : stack.takeFor o with
  | mk frame left =>
      cases frame with
      | none =>
          obtain ⟨count, hexit, -⟩ := h.exit_none hh htake
          rw [hexit] at hmove
          exact (mem_removes hmove).imp_right .inl
      | some frame =>
          obtain ⟨count, n, rest, hexit, hwaiting, hframe, -⟩ := h.exit_some hh htake
          rw [hexit, remove_eq hwaiting] at hmove
          rcases List.mem_append.mp hmove with hmove | hmove
          · exact (mem_removes hmove).imp_right .inl
          · exact .inr (.inr ⟨n, frame, left, List.mem_singleton.mp hmove, rfl, hframe⟩)

/-- No frame is given up because of an exit. -/
theorem Sound.kept_exit (h : t.Sound) {stack : CallStack (Frame S)} (hh : t.Holds stack.toList)
    {o : Outcome} (hkept : ∀ n, .leave n .abandoned ∉ t.moves) (n : Nat) :
    .leave n .abandoned ∉ (t.exit stack o).moves := by
  intro hn
  rcases h.mem_exit hh hn with hn | ⟨m, hm⟩ | ⟨m, frame, left, hm, -⟩
  · exact hkept n hn
  · cases o <;> cases hm
  · cases o <;> cases hm

/-- The frames that a run starts with have been pushed, the lowest first. -/
def opening : List (Frame S) → Tally S
  | [] => empty
  | frame :: frames => (opening frames).push frame

/-- The frames that a run starts with all wait. -/
theorem sound_opening (frames : List (Frame S)) :
    (opening frames).Sound ∧ (opening frames).Holds frames := by
  induction frames with
  | nil => exact ⟨sound_empty, holds_empty⟩
  | cons frame frames ih => exact ⟨ih.1.push frame, ih.2.push ih.1 frame⟩

end Tally

end Trampoline
