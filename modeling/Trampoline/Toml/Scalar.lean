import Trampoline.Decimal.Reader
import Trampoline.Toml.Moment

/-!
# Plain words

The values that a document writes as a word without quotes: booleans, integers,
floats, and dates and times.

Main definitions:

- `integer?`, `float?`: what a whole word stands for.
- `word?`: the value of a word of any kind.
-/

namespace Trampoline.Toml

open Text

/-! ## Numbers -/

/-- Digits without the underscores between them, if there is one digit at least and no
underscore stands at an end or beside another. -/
def joined? (isDigit : Char → Bool) : List Char → Option (List Char)
  | [] => none
  | [c] => if isDigit c then some [c] else none
  | c :: '_' :: rest =>
    if isDigit c then (joined? isDigit rest).map (c :: ·) else none
  | c :: rest => if isDigit c then (joined? isDigit rest).map (c :: ·) else none

/-- Decimal digits of which the first is zero only if it is the only one. -/
def wholeDigits? (cs : List Char) : Option (List Char) :=
  match cs with
  | ['0'] => some ['0']
  | '0' :: _ => none
  | _ => joined? Char.isDigit cs

/-- An integer, if it is none too large or too small. -/
def inRange? (n : Int) : Option Int :=
  if minInteger ≤ n ∧ n ≤ maxInteger then some n else none

/-- The number that digits in a radix other than ten stand for. -/
def radix? (radix : Nat) (isDigit : Char → Bool) (cs : List Char) : Option Int :=
  match joined? isDigit cs with
  | some digits =>
    inRange? (digits.foldl (fun (n : Nat) c => n * radix + (hexValue? c).getD 0) 0 : Nat)
  | none => none

/-- The integer that a word stands for.  A radix leaves no room for a sign. -/
def integer? (cs : List Char) : Option Int :=
  match cs with
  | '0' :: 'x' :: digits => radix? 16 (fun c => (hexValue? c).isSome) digits
  | '0' :: 'o' :: digits => radix? 8 (fun c => '0' ≤ c && c ≤ '7') digits
  | '0' :: 'b' :: digits => radix? 2 (fun c => c = '0' || c = '1') digits
  | _ =>
    let (negative, digits) := Decimal.spanSign cs
    match wholeDigits? digits with
    | some digits =>
      let magnitude : Int := natOfDigits digits
      inRange? (if negative then -magnitude else magnitude)
    | none => none

/-- Whether a character may stand in a run of digits. -/
def isDigitOrJoint (c : Char) : Bool :=
  c.isDigit || c = '_'

/-- The digits after the point, if there is one, and what follows them. -/
def fraction? (cs : List Char) : Option (List Char × List Char) :=
  match cs with
  | '.' :: cs =>
    (joined? Char.isDigit (cs.takeWhile isDigitOrJoint)).map
      fun digits => (digits, cs.dropWhile isDigitOrJoint)
  | _ => some ([], cs)

/-- The exponent that ends a float, zero if there is none. -/
def power? (cs : List Char) : Option Int :=
  match cs with
  | [] => some 0
  | 'e' :: cs | 'E' :: cs =>
    let (negative, digits) := Decimal.spanSign cs
    (joined? Char.isDigit digits).map fun digits =>
      let magnitude : Int := natOfDigits digits
      if negative then -magnitude else magnitude
  | _ => none

/-- The float of a decimal with a fraction or an exponent, without its sign. -/
def magnitude? (cs : List Char) : Option Float := do
  let whole ← wholeDigits? (cs.takeWhile isDigitOrJoint)
  let rest := cs.dropWhile isDigitOrJoint
  if rest.isEmpty then none
  let (fraction, rest) ← fraction? rest
  let power ← power? rest
  return Decimal.Scientific.toFloat
    ⟨natOfDigits (whole ++ fraction), power - (fraction.length : Int)⟩

/-- The float that a word stands for.  A number too large for a float is refused,
unless it is negative. -/
def float? (cs : List Char) : Option Float :=
  let (negative, body) := Decimal.spanSign cs
  match body with
  | ['i', 'n', 'f'] => some (Decimal.signed negative Decimal.infinity)
  | ['n', 'a', 'n'] => some (Decimal.signed negative Decimal.undefined)
  | _ =>
    match magnitude? body with
    | some x => if x.isInf && !negative then none else some (Decimal.signed negative x)
    | none => none

/-! ## Words -/

/-- Whether a character may stand in a word. -/
def isWordChar (c : Char) : Bool :=
  c.isAlphanum || c = '+' || c = '-' || c = '_' || c = '.' || c = ':'

/-- The value of a word. -/
def word? (cs : List Char) : Option Toml :=
  match cs with
  | ['t', 'r', 'u', 'e'] => some (.bool true)
  | ['f', 'a', 'l', 's', 'e'] => some (.bool false)
  | _ =>
    match moment? cs with
    | some canonical => some (.moment (String.ofList canonical))
    | none =>
      match float? cs with
      | some x => some (.float x)
      | none => (integer? cs).map .integer

/-- A word in front, and what follows it.  A date may be followed by a blank and a
time, which belong to the word. -/
def spanWord (cs : List Char) : List Char × List Char :=
  let word := cs.takeWhile isWordChar
  let rest := cs.dropWhile isWordChar
  match date? word, rest with
  | some (_, []), ' ' :: c :: rest =>
    if c.isDigit then
      (word ++ ' ' :: (c :: rest).takeWhile isWordChar, (c :: rest).dropWhile isWordChar)
    else (word, ' ' :: c :: rest)
  | _, _ => (word, rest)

end Trampoline.Toml
