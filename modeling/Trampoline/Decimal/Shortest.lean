/-!
# Shortest decimals

The fewest decimal digits that read back as a given binary number.

A finite float is `m * 2 ^ q`.  The reals that round to it form an interval around
it, which contains its ends exactly if `m` is even.  On each grid `10 ^ e`, from the
coarsest down, the two neighbours of the value are tried; the first grid that has
one of them in the interval wins, and on it the nearer one.

Main definitions:

- `Binary`: a positive binary number with the shape of its interval.
- `Binary.shortest`: the decimal `n * 10 ^ e`.
- `FloatShape.ofFloat`: what a float is: undefined, infinite, zero or a binary number.
-/

namespace Trampoline.Decimal

/-- Which of two equally near decimals is taken. -/
inductive Tie where
  /-- The one whose last digit is even. -/
  | toEven
  /-- The larger one. -/
  | up
deriving DecidableEq

/-- The decimal number `digits * 10 ^ exponent`. -/
structure Scientific where
  digits : Nat
  exponent : Int
deriving DecidableEq

/-- The positive binary number `mantissa * 2 ^ exponent`. -/
structure Binary where
  mantissa : Nat
  exponent : Int
  /-- The neighbour below is only half as far away as the one above. -/
  narrowBelow : Bool
deriving DecidableEq

namespace Binary

/-- On a grid `10 ^ e`, lengths are compared after scaling: a number of quarters of
the last binary place is multiplied by the first factor, a number of grid steps by
the second. -/
def scales (b : Binary) (e : Int) : Nat × Nat :=
  let s := b.exponent - 2
  (Nat.pow 2 s.toNat * Nat.pow 10 (-e).toNat, Nat.pow 10 e.toNat * Nat.pow 2 (-s).toNat)

/-- The value in quarters of its last place. -/
def quarters (b : Binary) : Nat :=
  4 * b.mantissa

/-- Whether `n` steps of the grid `10 ^ e` round to `b`. -/
def contains (b : Binary) (e : Int) (n : Nat) : Bool :=
  let (quarter, step) := b.scales e
  let low := (b.quarters - if b.narrowBelow then 1 else 2) * quarter
  let high := (b.quarters + 2) * quarter
  let x := n * step
  if b.mantissa % 2 = 0 then decide (low ≤ x) && decide (x ≤ high)
  else decide (low < x) && decide (x < high)

/-- The number of whole steps of the grid `10 ^ e` below `b`. -/
def floorOn (b : Binary) (e : Int) : Nat :=
  let (quarter, step) := b.scales e
  b.quarters * quarter / step

/-- The neighbour of `b` on the grid `10 ^ e` that rounds to `b`, the nearer one if
both do. -/
def nearestOn (tie : Tie) (b : Binary) (e : Int) : Option Nat :=
  let n := b.floorOn e
  match n ≠ 0 && b.contains e n, b.contains e (n + 1) with
  | false, false => none
  | true, false => some n
  | false, true => some (n + 1)
  | true, true =>
    let (quarter, step) := b.scales e
    let below := b.quarters * quarter - n * step
    let above := (n + 1) * step - b.quarters * quarter
    if below < above then some n
    else if above < below then some (n + 1)
    else match tie with
      | .up => some (n + 1)
      | .toEven => if n % 2 = 0 then some n else some (n + 1)

/-- Try the grids from `10 ^ e` downwards. -/
def search (tie : Tie) (b : Binary) : Nat → Int → Scientific
  | 0, e => ⟨b.floorOn e, e⟩
  | fuel + 1, e =>
    match b.nearestOn tie e with
    | some n => ⟨n, e⟩
    | none => search tie b fuel (e - 1)

/-- An exponent whose grid is coarser than `b`. -/
def coarsest (b : Binary) : Int :=
  (((Nat.log2 b.mantissa : Int) + b.exponent + 1) * 30103).fdiv 100000 + 2

/-- The shortest decimal that rounds to `b`.  Twenty grids below the coarsest one the
steps are finer than the interval of any float. -/
def shortest (tie : Tie) (b : Binary) : Scientific :=
  b.search tie 24 b.coarsest

end Binary

/-- What a float is. -/
inductive FloatShape where
  | undefined
  | infinite (negative : Bool)
  | zero (negative : Bool)
  | finite (negative : Bool) (value : Binary)
deriving DecidableEq

/-- Read the fields of a float: sign, eleven bits of exponent, 52 bits of fraction. -/
def FloatShape.ofFloat (x : Float) : FloatShape :=
  let bits : Nat := x.toBits.toNat
  let negative := bits / Nat.pow 2 63 % 2 = 1
  let biased : Nat := bits / Nat.pow 2 52 % Nat.pow 2 11
  let fraction : Nat := bits % Nat.pow 2 52
  if biased = Nat.pow 2 11 - 1 then
    if fraction = 0 then infinite negative else undefined
  else if biased = 0 then
    if fraction = 0 then zero negative else finite negative ⟨fraction, -1074, false⟩
  else
    finite negative ⟨fraction + Nat.pow 2 52, (biased : Int) - 1075, fraction = 0 && biased ≠ 1⟩

end Trampoline.Decimal
