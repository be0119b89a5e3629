import Trampoline.Decimal.Shortest
import Trampoline.Text.Digits

/-!
# Notations for floats

The text of a float in the notations that the program writes.  All of them show the
shortest digits that read back; a `Notation` says how the digits are laid out.
-/

namespace Trampoline.Decimal

/-- How digits are laid out. -/
structure Layout where
  /-- Powers of ten from here on are written without an exponent... -/
  positionalFrom : Int
  /-- ...up to and without this one. -/
  positionalBelow : Int
  /-- Whether a whole number written without an exponent ends in `.0`. -/
  wholeHasPoint : Bool
  /-- Whether a positive exponent has a sign. -/
  signedExponent : Bool
  /-- Which of two equally near decimals is taken. -/
  tie : Tie
  /-- The text of a number that is undefined. -/
  undefinedText : String
  /-- The text of the positive infinity. -/
  infinityText : String
  /-- The text of the negative infinity. -/
  negativeInfinityText : String

/-- So many zeros. -/
def zeros (n : Nat) : List Char :=
  List.replicate n '0'

/-- Digits written without an exponent: `digits * 10 ^ exponent`. -/
def positional (wholeHasPoint : Bool) (digits : List Char) (exponent : Int) : List Char :=
  if 0 ≤ exponent then
    digits ++ zeros exponent.toNat ++ (if wholeHasPoint then ['.', '0'] else [])
  else
    let places := (-exponent).toNat
    if places < digits.length then
      digits.take (digits.length - places) ++ '.' :: digits.drop (digits.length - places)
    else
      '0' :: '.' :: zeros (places - digits.length) ++ digits

/-- Digits written with an exponent; `power` is the power of ten of the first digit. -/
def withExponent (signedExponent : Bool) (digits : List Char) (power : Int) : List Char :=
  let mantissa := match digits with
    | [] => []
    | [d] => [d]
    | d :: rest => d :: '.' :: rest
  let sign := if power < 0 then ['-'] else if signedExponent then ['+'] else []
  mantissa ++ 'e' :: sign ++ Text.digitsOf power.natAbs

/-- The text of a positive decimal. -/
def Layout.magnitude (layout : Layout) (s : Scientific) : List Char :=
  let digits := Text.digitsOf s.digits
  let power := s.exponent + (digits.length : Int) - 1
  if layout.positionalFrom ≤ power ∧ power < layout.positionalBelow then
    positional layout.wholeHasPoint digits s.exponent
  else withExponent layout.signedExponent digits power

/-- The text of a float. -/
def Layout.render (layout : Layout) (x : Float) : String :=
  let signed (negative : Bool) (text : List Char) : String :=
    String.ofList (if negative then '-' :: text else text)
  match FloatShape.ofFloat x with
  | .undefined => layout.undefinedText
  | .infinite false => layout.infinityText
  | .infinite true => layout.negativeInfinityText
  | .zero negative => signed negative (positional layout.wholeHasPoint ['0'] 0)
  | .finite negative b => signed negative (layout.magnitude (b.shortest layout.tie))

/-- Numbers in documents: whole numbers end in `.0`, exponents have a sign, and what is
no number is null. -/
def Layout.document : Layout where
  positionalFrom := -5
  positionalBelow := 16
  wholeHasPoint := true
  signedExponent := true
  tie := .toEven
  undefinedText := "null"
  infinityText := "null"
  negativeInfinityText := "null"

/-- Numbers in descriptions of values: whole numbers end in `.0`. -/
def Layout.description : Layout where
  positionalFrom := -4
  positionalBelow := 16
  wholeHasPoint := true
  signedExponent := false
  tie := .up
  undefinedText := "NaN"
  infinityText := "inf"
  negativeInfinityText := "-inf"

/-- Numbers as plain text, never with an exponent. -/
def Layout.plain : Layout where
  positionalFrom := -400
  positionalBelow := 400
  wholeHasPoint := false
  signedExponent := false
  tie := .up
  undefinedText := "NaN"
  infinityText := "inf"
  negativeInfinityText := "-inf"

end Trampoline.Decimal
