import Trampoline.Decimal.Notation

/-!
# Fixed places

Quotients of whole numbers with a fixed number of digits after the point.

Main definitions:

- `roundDiv`: a quotient to the nearest whole number, a tie to the even one.
- `fixed`: the text of a quotient.
-/

namespace Trampoline.Decimal

/-- A quotient to the nearest whole number.  A tie goes to the even one. -/
def roundDiv (n d : Nat) : Nat :=
  let quotient := n / d
  let twice := 2 * (n % d)
  if twice < d ∨ (twice = d ∧ quotient % 2 = 0) then quotient else quotient + 1

/-- The quotient `n / d` with so many digits after the point. -/
def fixed (places n d : Nat) : List Char :=
  let digits := Text.digitsOf (roundDiv (n * Nat.pow 10 places) d)
  let digits := zeros (places + 1 - digits.length) ++ digits
  digits.take (digits.length - places) ++ '.' :: digits.drop (digits.length - places)

end Trampoline.Decimal
