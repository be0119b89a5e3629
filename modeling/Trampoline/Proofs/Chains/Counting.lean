import Trampoline.Benchmark.Run
import Trampoline.Proofs.Chains.Floats
import Trampoline.Proofs.Chains.Schemes
import Trampoline.Scenario.Evaluation

/-!
# All chains count their steps

A chain that is built up front is a nest of links around a number: a run of it sinks to the number,
with a frame for each link, and then adds one for each frame.  A chain that is built step by step
leaves one frame behind at each step, which goes on with the next one, and it hops before that frame
if its steps are deferred.  Both are schemes, and so each chain delivers one number after all of its
hops.

Main definitions and results:

- Definition `Shape.agenda`: what a run of a chain comes to.
- Theorem `Shape.count_eq`: adding ones is as good as counting, as long as floats are exact.
- Definitions `Chain.Folds.scheme`, `Chain.Grows.scheme`: the points of the two kinds of chains.
- Definition `Chain.Names.Hosted`: a host that knows the code of chains.
- Theorem `Chain.build_counts`: a chain of any shape, depth and context counts its steps.
-/

namespace Trampoline.Benchmark

variable {S : Closures} {σ : Type}

/-! ## What chains come to -/

/-- The number that a chain ends with: that of its steps, or the sum of so many ones. -/
def Shape.count (depth : Nat) : Shape → Float
  | .bind | .async => Float.ofNat depth
  | .leftBind | .map => Counting.ones depth

/-- As long as floats are exact, adding one for each step is as good as counting the steps. -/
theorem Shape.count_eq (shape : Shape) {depth : Nat} (h : depth ≤ 2 ^ 53) :
    shape.count depth = Float.ofNat depth := by
  have hones : Counting.ones depth = Float.ofNat depth := by
    rw [Counting.ones_eq, min_eq_left h]
  cases shape with
  | bind => rfl
  | leftBind => exact hones
  | map => exact hones
  | async => rfl

/-- How often a chain hops to its context. -/
def Shape.hops (depth : Nat) : Shape → Nat
  | .async => depth
  | .bind | .leftBind | .map => 0

/-- The most frames that are pending in a chain. -/
def Shape.height (depth : Nat) : Shape → Nat
  | .bind | .async => min depth 1
  | .leftBind | .map => depth

/-- What a run of a chain comes to. -/
def Shape.agenda (shape : Shape) (depth : Nat) (context : Context S.Executor) : Agenda S where
  context := context
  hops := shape.hops depth
  values := Chain.counter
  result := .number (shape.count depth)
  height := shape.height depth

namespace Chain

/-- A host that knows the code of chains under some names. -/
structure Names.Hosted (names : Names S) (P : Program S σ) : Prop where
  link : ∀ (l : Link S.Executor) (v : Value), P.bind (names.link l) v = .done (l.apply names v)
  increment : ∀ v : Value, P.map names.increment v = .done (Chain.increment v)

/-! ## Chains that are built up front -/

theorem wrap_succ (link : Effect S → Effect S) (n : Nat) (e : Effect S) :
    wrap link (n + 1) e = link (wrap link n e) := by
  induction n generalizing e with
  | zero => rfl
  | succ n ih => exact ih (link e)

/-- A link that leaves a frame behind, which adds one. -/
structure Folds (P : Program S σ) (link : Effect S → Effect S) (frame : Frame S) : Prop where
  goes : ∀ frames e, Point.Goes P frames (.node (link e)) (frame :: frames) (.node e)
  takes : ∀ v : Value, frame.takes (.ok v) = true
  adds : ∀ x : Float, P.apply frame (.number x) = .done (.pure (.number (x + 1.0)))

/-- The points of a chain of such links: the run sinks to the number in the middle, with a frame for
each link, and then goes up again, adding one for each frame. -/
inductive Folds.At (link : Effect S → Effect S) (frame : Frame S) (depth : Nat) :
    Nat → Nat → Nat → List (Frame S) → Point S → Prop
  | sinks {i n : Nat} (h : i + n = depth) :
      At link frame depth 0 i (3 * depth + n + 1) (List.replicate i frame)
        (.node (wrap link n (.pure (.number 0.0))))
  | holds {i n : Nat} (h : i + n = depth) :
      At link frame depth 0 depth (3 * n) (List.replicate n frame)
        (.value (.number (Counting.ones i)))
  | replies {i n : Nat} (h : i + 1 + n = depth) :
      At link frame depth 0 depth (3 * n + 2) (List.replicate n frame)
        (.reply (.pure (.number (Counting.ones (i + 1)))))
  | meets {i n : Nat} (h : i + 1 + n = depth) :
      At link frame depth 0 depth (3 * n + 1) (List.replicate n frame)
        (.node (.pure (.number (Counting.ones (i + 1)))))

/-- What comes next while the run sinks, and while it goes up. -/
theorem Folds.At.onward {P : Program S σ} {link : Effect S → Effect S} {frame : Frame S}
    (folds : Folds P link frame) (context : Context S.Executor) (values : Nat → Value)
    {depth k high left : Nat} {frames : List (Frame S)} {p : Point S}
    (h : Folds.At link frame depth k high left frames p) :
    Onward P ⟨context, 0, values, .number (Counting.ones depth), depth⟩
      (Folds.At link frame depth) k high left frames p := by
  cases h with
  | @sinks _ n h =>
      cases n with
      | zero =>
          obtain rfl : high = depth := h
          exact .moves_within (.pure _ _) List.length_replicate.le (.holds (Nat.zero_add _))
      | succ n =>
          rw [wrap_succ]
          refine .moves (folds.goes _ _) ?_
          have hhigh : max high (frame :: List.replicate high frame).length = high + 1 := by simp
          rw [hhigh, ← List.replicate_succ]
          exact .sinks (by omega)
  | @holds i n h =>
      cases n with
      | zero =>
          obtain rfl : i = depth := h
          exact .ends
      | succ n =>
          rw [List.replicate_succ]
          have hle : (List.replicate n frame).length ≤ depth := by simp; omega
          exact .moves_within (.apply _ (folds.takes _) (folds.adds _)) hle
            (.replies (i := i) (by omega))
  | @replies i n h =>
      have hle : (List.replicate n frame).length ≤ depth := by simp; omega
      exact .moves_within (.reply _ _) hle (.meets h)
  | @meets i n h =>
      have hle : (List.replicate n frame).length ≤ depth := by simp; omega
      exact .moves_within (.pure _ _) hle (.holds h)

/-- The scheme of a chain that is built up front. -/
def Folds.scheme {P : Program S σ} {link : Effect S → Effect S} {frame : Frame S}
    (folds : Folds P link frame) (depth : Nat) (context : Context S.Executor)
    (values : Nat → Value) :
    Scheme P ⟨context, 0, values, .number (Counting.ones depth), depth⟩ where
  At := Folds.At link frame depth
  hops_le h := by cases h <;> exact Nat.zero_le _
  onward h := h.onward folds context values

/-! ## Chains that are built step by step -/

/-- The nodes of a chain that is built step by step, each with the source and the frame of its step.
A source hops as often as `hop` says. -/
structure Grows (P : Program S σ) (context : Context S.Executor) (depth hop : Nat)
    (node source : Nat → Effect S) (frame : Nat → Frame S) : Prop where
  last : node depth = .pure (counter depth)
  step : ∀ i < depth, node i = .bind (source i) (frame i)
  asks : ∀ i, hop = 0 ∧ source i = .pure (counter i) ∨
    hop = 1 ∧ source i = .deferred context (.succeed (counter i))
  takes : ∀ i v, (frame i).takes (.ok v) = true
  goes : ∀ i v, P.apply (frame i) v = .done (node (i + 1))

/-- The points of such a chain: a step leaves one frame behind, and the frame goes on with the next
step. -/
inductive Grows.At (depth hop : Nat) (node source : Nat → Effect S) (frame : Nat → Frame S) :
    Nat → Nat → Nat → List (Frame S) → Point S → Prop
  | meets {i n : Nat} (h : i + n = depth) :
      At depth hop node source frame (hop * i) (min i 1) (4 * n + 1) [] (.node (node i))
  | asks {i n : Nat} (h : i + 1 + n = depth) :
      At depth hop node source frame (hop * i) 1 (4 * n + 4) [frame i] (.node (source i))
  | counts {i n : Nat} (h : i + 1 + n = depth) :
      At depth hop node source frame (hop * (i + 1)) 1 (4 * n + 4) [frame i]
        (.node (.pure (counter i)))
  | holds {i n : Nat} (h : i + 1 + n = depth) :
      At depth hop node source frame (hop * (i + 1)) 1 (4 * n + 3) [frame i] (.value (counter i))
  | replies {i n : Nat} (h : i + 1 + n = depth) :
      At depth hop node source frame (hop * (i + 1)) 1 (4 * n + 2) [] (.reply (node (i + 1)))
  | ends : At depth hop node source frame (hop * depth) (min depth 1) 0 [] (.value (counter depth))

/-- What comes next within a step.  A source that hops comes back to where one that is a number is
from the beginning. -/
theorem Grows.At.onward {P : Program S σ} {context : Context S.Executor} {depth hop : Nat}
    {node source : Nat → Effect S} {frame : Nat → Frame S}
    (grows : Grows P context depth hop node source frame) {hops : Nat}
    (hhops : hop * depth = hops) {k high left : Nat} {frames : List (Frame S)} {p : Point S}
    (h : Grows.At depth hop node source frame k high left frames p) :
    Onward P ⟨context, hops, counter, counter depth, min depth 1⟩
      (Grows.At depth hop node source frame) k high left frames p := by
  subst hhops
  cases h with
  | @meets i n h =>
      cases n with
      | zero =>
          obtain rfl : i = depth := h
          rw [grows.last]
          exact .moves_within (.pure _ _) (Nat.zero_le _) .ends
      | succ n =>
          rw [grows.step i (by omega)]
          refine .moves (.bind _ _ _) ?_
          have hhigh : max (min i 1) [frame i].length = 1 := by simp
          rw [hhigh]
          exact .asks (by omega)
  | @asks i n h =>
      rcases grows.asks i with ⟨rfl, hsource⟩ | ⟨rfl, hsource⟩
      · have hholds : Grows.At depth 0 node source frame (0 * (i + 1)) 1 (4 * n + 3) [frame i]
            (.value (counter i)) := .holds h
        simp only [hsource, Nat.zero_mul] at hholds ⊢
        exact .moves_within (.pure _ _) le_rfl hholds
      · have hcounts : Grows.At depth 1 node source frame (1 * (i + 1)) 1 (4 * n + 4) [frame i]
            (.node (.pure (counter i))) := .counts h
        simp only [hsource, Nat.one_mul] at hcounts ⊢
        exact .hops (show i < depth by omega) hcounts
  | @counts i n h => exact .moves_within (.pure _ _) le_rfl (.holds h)
  | @holds i n h =>
      exact .moves_within (.apply _ (grows.takes _ _) (grows.goes _ _)) (Nat.zero_le _)
        (.replies h)
  | @replies i n h =>
      have hmeets : Grows.At depth hop node source frame (hop * (i + 1)) (min (i + 1) 1)
          (4 * n + 1) [] (.node (node (i + 1))) := .meets h
      rw [min_eq_right (Nat.le_add_left 1 i)] at hmeets
      exact .moves_within (.reply _ _) (Nat.zero_le _) hmeets
  | ends => exact .ends

/-- The scheme of a chain that is built step by step. -/
def Grows.scheme {P : Program S σ} {context : Context S.Executor} {depth hop : Nat}
    {node source : Nat → Effect S} {frame : Nat → Frame S}
    (grows : Grows P context depth hop node source frame) {hops : Nat}
    (hhops : hop * depth = hops) :
    Scheme P ⟨context, hops, counter, counter depth, min depth 1⟩ where
  At := Grows.At depth hop node source frame
  hops_le h := by cases h <;> exact hhops ▸ Nat.mul_le_mul_left hop (by omega)
  onward h := h.onward grows hhops

/-! ## Shapes -/

namespace Names.Hosted

variable {names : Names S} {P : Program S σ} (hosted : names.Hosted P) (depth : Nat)
  (context : Context S.Executor)

include hosted

theorem folds_bind : Folds P (fun e => e.flatMap (names.link .addOne))
    (.bind (.user (names.link .addOne))) where
  goes frames e := .bind frames e _
  takes _ := rfl
  adds x := hosted.link .addOne (.number x)

theorem folds_map : Folds P (fun e => .map e names.increment) (.map names.increment) where
  goes frames e := .map frames e _
  takes _ := rfl
  adds x := by
    have happly : P.apply (.map names.increment) (.number x) =
        (P.map names.increment (.number x)).bind fun w => .done (.pure w) := rfl
    rw [happly, hosted.increment]
    rfl

theorem grows_count : Grows P context depth 0 (fun i => countFrom names i depth)
    (fun i => .pure (counter i)) (fun i => .bind (.user (names.link (.count (i + 1) depth)))) where
  last := if_pos (Nat.le_refl depth)
  step _ h := if_neg (Nat.not_le.mpr h)
  asks _ := .inl ⟨rfl, rfl⟩
  takes _ _ := rfl
  goes i v := hosted.link (.count (i + 1) depth) v

theorem grows_hop : Grows P context depth 1 (fun i => hopFrom names context i depth)
    (fun i => .deferred context (.succeed (counter i)))
    (fun i => .bind (.user (names.link (.hop context (i + 1) depth)))) where
  last := if_pos (Nat.le_refl depth)
  step _ h := if_neg (Nat.not_le.mpr h)
  asks _ := .inr ⟨rfl, rfl⟩
  takes _ _ := rfl
  goes i v := hosted.link (.hop context (i + 1) depth) v

end Names.Hosted

/-! ## Hosts -/

/-- The host of benchmarks knows the code of chains. -/
theorem hosted_program : chainNames.Hosted program :=
  ⟨fun _ _ => rfl, fun _ => rfl⟩

/-- So does the host of scenarios. -/
theorem hosted_scenario : Scenario.chainNames.Hosted Scenario.program :=
  ⟨fun _ _ => rfl, fun _ => rfl⟩

/-- A run of a chain at a place, on a connection that cannot be canceled. -/
def origin (shape : Shape) (depth : Nat) (place : Place) : Origin closures :=
  ⟨build chainNames shape depth place.context, .uncancelable, .empty, .user (), 1⟩

/-- The machine in front of a chain. -/
def front (shape : Shape) (depth : Nat) (place : Place) : State closures (Option Outcome) :=
  (State.start (.initial none "runloop") (Code.perform
    (.run (build chainNames shape depth place.context) .uncancelable (.user ())))).next program

theorem tended_front (shape : Shape) (depth : Nat) (place : Place) :
    Tended program (origin shape depth place) (front shape depth place) .beginning 0 := by
  have hreach : State.Reachable program (front shape depth place) :=
    (State.Reachable.start _ _ _).next
  exact .start hreach rfl

/-! ## Counting -/

/-- A chain of any shape counts its steps. -/
theorem build_counts {names : Names S} {P : Program S σ} (hosted : names.Hosted P) (shape : Shape)
    (depth : Nat) (context : Context S.Executor) {r : Origin S} {s : State S σ} {st : Story S}
    {high : Nat} (h : Tended P r s st high)
    (effect : r.effect = build names shape depth context) (stack : r.stack.toList = []) :
    Fulfills P r (shape.agenda depth context) s st high ∧
      (depth ≤ 2 ^ 53 → shape.count depth = Float.ofNat depth) := by
  refine ⟨?_, shape.count_eq⟩
  cases shape with
  | bind =>
      refine ((hosted.grows_count depth context).scheme (Nat.zero_mul depth)).fulfills h ?_
      rw [stack, effect]
      exact ⟨_, .meets (Nat.zero_add depth)⟩
  | leftBind =>
      refine (hosted.folds_bind.scheme depth context counter).fulfills h ?_
      rw [stack, effect]
      exact ⟨_, .sinks (Nat.zero_add depth)⟩
  | map =>
      refine (hosted.folds_map.scheme depth context counter).fulfills h ?_
      rw [stack, effect]
      exact ⟨_, .sinks (Nat.zero_add depth)⟩
  | async =>
      refine ((hosted.grows_hop depth context).scheme (Nat.one_mul depth)).fulfills h ?_
      rw [stack, effect]
      exact ⟨_, .meets (Nat.zero_add depth)⟩

theorem build_counts_async : ∃ s st high, Tended program (origin .async 2 .pool) s st high ∧
    s.activations = [] ∧ st.outcomes = [.ok (counter 2)] ∧ st.parks.length = 2 ∧
    Fulfills program (origin .async 2 .pool) (Shape.async.agenda 2 Place.pool.context) s st
      high := by
  obtain ⟨_, h⟩ := (tended_front .async 2 .pool).quiet (n := 2) (by decide +kernel)
  have hfirst := h.next (.of_task rfl rfl rfl)
  obtain ⟨_, h⟩ := hfirst.quiet (n := 5) (by decide +kernel)
  have hsecond := h.next (.of_task rfl rfl rfl)
  obtain ⟨high, h⟩ := hsecond.quiet (n := 12) (by decide +kernel)
  obtain ⟨hall, -⟩ := build_counts hosted_program .async 2 Place.pool.context h rfl rfl
  have hrest : (chronicle program 1 21 (front .async 2 .pool, .beginning)).1.activations = [] := rfl
  have hout := hall.delivered hrest rfl
  exact ⟨_, _, _, h, hrest, hout, hall.parks_eq (by rw [hout]; nofun), hall⟩

end Chain

end Trampoline.Benchmark
