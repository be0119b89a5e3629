import Trampoline.Decimal.Shortest
import Trampoline.Text.Digits

/-!
# Reading decimals

Floats from text in the free form that environment variables use: an optional sign,
digits with or without a point on any side of them, an optional exponent, and the
names of the infinity and of the undefined number in any case.

Main definitions:

- `Scientific.toFloat`: the float nearest to a decimal.
- `parseFloat?`: the float that a text stands for.
-/

namespace Trampoline.Decimal

open Text

/-- The undefined number. -/
def undefined : Float :=
  0.0 / 0.0

/-- The positive infinity. -/
def infinity : Float :=
  1.0 / 0.0

/-- The float nearest to a decimal.  From `10 ^ 400` on there is only infinity, and
nothing but zero below `10 ^ (-400)`. -/
def Scientific.toFloat (s : Scientific) : Float :=
  if s.digits = 0 then 0.0
  else if 400 ≤ s.exponent then infinity
  else if s.exponent + (Text.digitsOf s.digits).length < -400 then 0.0
  else Float.ofScientific s.digits (s.exponent < 0) s.exponent.natAbs

/-- A float with a sign. -/
def signed (negative : Bool) (x : Float) : Float :=
  if negative then -x else x

/-- A sign in front, and what follows it. -/
def spanSign : List Char → Bool × List Char
  | '-' :: rest => (true, rest)
  | '+' :: rest => (false, rest)
  | cs => (false, cs)

/-- A whole text that is an exponent, without its letter. -/
def exponent? (cs : List Char) : Option Int :=
  let (negative, digits) := spanSign cs
  if digits.isEmpty || !digits.all Char.isDigit then none
  else
    let magnitude : Int := natOfDigits digits
    some (if negative then -magnitude else magnitude)

/-- A whole text that is a decimal without a sign.  Digits may be missing on one side
of the point, but not on both. -/
def scientific? (cs : List Char) : Option Scientific :=
  let (whole, rest) := spanDigits cs
  let (fraction, rest) := match rest with
    | '.' :: rest => spanDigits rest
    | _ => ([], rest)
  let places : Int := fraction.length
  if whole.isEmpty && fraction.isEmpty then none
  else
    let digits := natOfDigits (whole ++ fraction)
    match rest with
    | [] => some ⟨digits, -places⟩
    | 'e' :: rest | 'E' :: rest =>
      match exponent? rest with
      | some e => some ⟨digits, e - places⟩
      | none => none
    | _ => none

/-- The float that a text stands for. -/
def parseFloat? (s : String) : Option Float :=
  let (negative, cs) := spanSign s.toList
  match String.ofList (cs.map Char.toLower) with
  | "inf" | "infinity" => some (signed negative infinity)
  | "nan" => some (signed negative undefined)
  | _ => (scientific? cs).map fun x => signed negative x.toFloat

end Trampoline.Decimal
