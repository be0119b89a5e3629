import Trampoline.Json.Basic
import Trampoline.Text.Digits

/-!
# JSON tokens

The words of a JSON text.  A text is cut into tokens as a whole, and what is wrong
with a token is kept in it: a reader that never comes to the token, or that skips
it, never learns of it.

A number is read in two parts.  Its digits, without the point, make a whole number
of 64 bits.  Before the point, the first digit that does not fit and all after it count
as zeros; after the point, they are dropped.  The point gives the digits behind it a new
chance to fit.
The float of that whole number is then multiplied or divided by a power of ten.
-/

namespace Trampoline.Json

open Text

/-- What is wrong with a text. -/
inductive Fault where
  /-- It is no JSON, or has a number without a float. -/
  | malformed
  /-- It is JSON of the wrong shape. -/
  | shape
  /-- It ends too early. -/
  | ended
deriving DecidableEq, Inhabited

/-- A token of a JSON text. -/
inductive Token where
  | openBrace
  | closeBrace
  | openBracket
  | closeBracket
  | colon
  | comma
  | null
  | bool (b : Bool)
  /-- A quoted text, or what a reader finds wrong with it, and what one who skips it
  finds wrong. -/
  | text (content : Except Fault String) (skipped : Except Fault Unit)
  /-- A number, or what a reader finds wrong with it, and what one who skips it finds
  wrong. -/
  | number (content : Except Fault Number) (skipped : Except Fault Unit)
  /-- Anything else, and what is wrong with it where a value is wanted. -/
  | junk (fault : Fault)

/-! ## Quoted texts -/

/-- Four hexadecimal digits, and what follows them.  Fewer than four bytes are the end
of the text, whatever they are. -/
def hexEscape (cs : List Char) : Except Fault (Nat × List Char) :=
  match cs with
  | a :: b :: c :: d :: rest =>
    match hexValue? a, hexValue? b, hexValue? c, hexValue? d with
    | some a, some b, some c, some d => .ok (((a * 16 + b) * 16 + c) * 16 + d, rest)
    | _, _, _, _ => .error .malformed
  | _ =>
    if cs.foldl (fun bytes c => bytes + c.utf8Size) 0 < 4 then .error .ended else .error .malformed

/-- The character after a backslash, if it stands for one character. -/
def simpleEscape? : Char → Option Char
  | '"' => some '"'
  | '\\' => some '\\'
  | '/' => some '/'
  | 'b' => some '\x08'
  | 'f' => some '\x0c'
  | 'n' => some '\n'
  | 'r' => some '\r'
  | 't' => some '\t'
  | _ => none

/-- The second half of a pair of surrogates. -/
def lowSurrogate (cs : List Char) : Except Fault (Nat × List Char) :=
  match cs with
  | [] => .error .ended
  | '\\' :: [] => .error .ended
  | '\\' :: 'u' :: rest => do
    let (low, rest) ← hexEscape rest
    if 0xdc00 ≤ low ∧ low ≤ 0xdfff then .ok (low, rest) else .error .malformed
  | _ => .error .malformed

/-- The character of a numeric escape, of which `\u` has been read. -/
def unicodeEscape (cs : List Char) : Except Fault (Char × List Char) := do
  let (n, rest) ← hexEscape cs
  if 0xdc00 ≤ n ∧ n ≤ 0xdfff then .error .malformed
  else if 0xd800 ≤ n ∧ n ≤ 0xdbff then
    let (low, rest) ← lowSurrogate rest
    .ok (Char.ofNat ((n - 0xd800) * 0x400 + (low - 0xdc00) + 0x10000), rest)
  else .ok (Char.ofNat n, rest)

/-- The characters of a quoted text up to its closing quote, in reverse on top of
`acc`. -/
def readText : Nat → List Char → List Char → Except Fault (List Char)
  | 0, _, _ => .error .ended
  | _ + 1, _, [] => .error .ended
  | _ + 1, acc, '"' :: _ => .ok acc
  | _ + 1, _, '\\' :: [] => .error .ended
  | fuel + 1, acc, '\\' :: c :: rest =>
    if c = 'u' then
      match unicodeEscape rest with
      | .ok (c, rest) => readText fuel (c :: acc) rest
      | .error fault => .error fault
    else
      match simpleEscape? c with
      | some c => readText fuel (c :: acc) rest
      | none => .error .malformed
  | fuel + 1, acc, c :: rest =>
    if c.toNat < 0x20 then .error .malformed else readText fuel (c :: acc) rest

/-- What follows a quoted text that is skipped.  Numeric escapes need not make sense. -/
def skipText : Nat → List Char → Except Fault (List Char)
  | 0, _ => .error .ended
  | _ + 1, [] => .error .ended
  | _ + 1, '"' :: rest => .ok rest
  | _ + 1, '\\' :: [] => .error .ended
  | fuel + 1, '\\' :: c :: rest =>
    if c = 'u' then
      match hexEscape rest with
      | .ok (_, rest) => skipText fuel rest
      | .error fault => .error fault
    else if (simpleEscape? c).isSome then skipText fuel rest
    else .error .malformed
  | fuel + 1, c :: rest => if c.toNat < 0x20 then .error .malformed else skipText fuel rest

/-! ## Numbers -/

/-- The largest whole number of 64 bits. -/
def maxNatural : Nat :=
  Nat.pow 2 64 - 1

/-- The digits of a number as far as they have been read. -/
structure Significand where
  value : Nat
  /-- The power of ten that the value is to be multiplied by. -/
  exponent : Int
  /-- No further digit fits. -/
  full : Bool

/-- Take a digit before the point. -/
def Significand.pushWhole (s : Significand) (digit : Nat) : Significand :=
  if s.full then { s with exponent := s.exponent + 1 }
  else if maxNatural < s.value * 10 + digit then
    { s with exponent := s.exponent + 1, full := true }
  else { s with value := s.value * 10 + digit }

/-- Take a digit after the point. -/
def Significand.pushFraction (s : Significand) (digit : Nat) : Significand :=
  if s.full then s
  else if maxNatural < s.value * 10 + digit then { s with full := true }
  else { s with value := s.value * 10 + digit, exponent := s.exponent - 1 }

/-- Multiply a float by a power of ten, or divide it, in steps of at most 308 places.
There may be no float for the result. -/
def scaleByTen : Nat → Float → Int → Option Float
  | 0, _, _ => none
  | fuel + 1, f, exponent =>
    if exponent.natAbs ≤ 308 then
      let power := Float.ofScientific 1 false exponent.natAbs
      if 0 ≤ exponent then
        let product := f * power
        if product.isInf then none else some product
      else some (f / power)
    else if f == 0.0 then some f
    else if 0 ≤ exponent then none
    else scaleByTen fuel (f / Float.ofScientific 1 false 308) (exponent + 308)

/-- The float of a significand and an exponent.  After four steps of 308 places nothing
but zero is left of any significand. -/
def Significand.toFloat? (s : Significand) (negative : Bool) (exponent : Int) : Option Float :=
  let total := max (-(Nat.pow 2 31 : Int)) (min (Nat.pow 2 31 - 1) (s.exponent + exponent))
  (scaleByTen 8 (Float.ofNat s.value) total).map fun f => if negative then -f else f

/-- The end of a number with a point or an exponent. -/
def realNumber (s : Significand) (negative : Bool) (exponent : Int) : Except Fault Number :=
  match s.toFloat? negative exponent with
  | some x => .ok (.real x)
  | none => .error .malformed

/-- The end of a number without point and exponent.  A whole number that does not fit 64
bits becomes a float. -/
def wholeNumber (s : Significand) (negative : Bool) : Except Fault Number :=
  if s.full then realNumber s negative 0
  else if !negative then .ok (.natural s.value)
  else if s.value = 0 then .ok (.real (-0.0))
  else if s.value ≤ Nat.pow 2 63 then .ok (.negative s.value)
  else .ok (.real (-Float.ofNat s.value))

/-- An exponent, of which the letter has been read.  The first fault is a reader's, the
second one is for those who skip the number. -/
def exponentPart (s : Significand) (negative : Bool) (cs : List Char) :
    Except Fault Number × Except Fault Unit × List Char :=
  let (negativeExponent, cs) := match cs with
    | '+' :: rest => (false, rest)
    | '-' :: rest => (true, rest)
    | _ => (false, cs)
  match cs with
  | [] => (.error .ended, .error .malformed, [])
  | _ =>
    let (digits, rest) := spanDigits cs
    if digits.isEmpty then (.error .malformed, .error .malformed, rest)
    else
      let magnitude : Nat := natOfDigits digits
      let exponent : Int := if negativeExponent then -(magnitude : Int) else magnitude
      let content : Except Fault Number :=
        if magnitude < Nat.pow 2 31 then realNumber s negative exponent
        else if s.value ≠ 0 ∧ !negativeExponent then .error .malformed
        else .ok (.real (if negative then -0.0 else 0.0))
      (content, .ok (), rest)

/-- What follows the whole part of a number. -/
def afterWhole (s : Significand) (negative : Bool) (cs : List Char) :
    Except Fault Number × Except Fault Unit × List Char :=
  match cs with
  | '.' :: cs =>
    let (digits, rest) := spanDigits cs
    if digits.isEmpty then
      (.error (if rest.isEmpty then .ended else .malformed), .error .malformed, rest)
    else
      let s := digits.foldl (fun s c => s.pushFraction (digitValue c)) { s with full := false }
      match rest with
      | 'e' :: rest => exponentPart s negative rest
      | 'E' :: rest => exponentPart s negative rest
      | _ => (realNumber s negative 0, .ok (), rest)
  | 'e' :: cs => exponentPart s negative cs
  | 'E' :: cs => exponentPart s negative cs
  | _ => (wholeNumber s negative, .ok (), cs)

/-- A number, of which the sign has been read. -/
def readNumber (negative : Bool) (cs : List Char) :
    Except Fault Number × Except Fault Unit × List Char :=
  match cs with
  | [] => (.error .ended, .error .malformed, [])
  | '0' :: rest =>
    match rest with
    | c :: _ =>
      if c.isDigit then (.error .malformed, .error .malformed, rest)
      else afterWhole ⟨0, 0, false⟩ negative rest
    | [] => afterWhole ⟨0, 0, false⟩ negative rest
  | _ =>
    let (digits, rest) := spanDigits cs
    if digits.isEmpty then (.error .malformed, .error .malformed, rest)
    else
      afterWhole (digits.foldl (fun s c => s.pushWhole (digitValue c)) ⟨0, 0, false⟩) negative rest

/-! ## Tokens -/

/-- Whether a character separates tokens. -/
def isBlank (c : Char) : Bool :=
  c = ' ' || c = '\n' || c = '\t' || c = '\r'

/-- A word that has to be spelled out: what follows it, or what is wrong. -/
def spell : List Char → List Char → Except Fault (List Char)
  | [], cs => .ok cs
  | _ :: _, [] => .error .ended
  | w :: word, c :: cs => if w = c then spell word cs else .error .malformed

/-- The token for a word, of which the first letter has been read. -/
def wordToken (token : Token) (word cs : List Char) : Token × List Char :=
  match spell word cs with
  | .ok rest => (token, rest)
  | .error fault => (.junk fault, [])

/-- The token of a number. -/
def numberToken (negative : Bool) (cs : List Char) : Token × List Char :=
  let (content, skipped, rest) := readNumber negative cs
  (.number content skipped, rest)

/-- The token of a quoted text, of which the first quote has been read.  There is fuel for
as many characters as are left. -/
def textToken (fuel : Nat) (cs : List Char) : Token × List Char :=
  let content := (readText fuel [] cs).map fun acc => String.ofList acc.reverse
  match skipText fuel cs with
  | .ok rest => (.text content (.ok ()), rest)
  | .error fault => (.text content (.error fault), [])

/-- The token that begins with a character, and what follows it.  After a token that is
no good even for skipping nothing more is read. -/
def tokenAt (fuel : Nat) (c : Char) (rest : List Char) : Token × List Char :=
  match c with
  | '\x7b' => (.openBrace, rest)
  | '\x7d' => (.closeBrace, rest)
  | '[' => (.openBracket, rest)
  | ']' => (.closeBracket, rest)
  | ':' => (.colon, rest)
  | ',' => (.comma, rest)
  | '"' => textToken fuel rest
  | 'n' => wordToken .null ['u', 'l', 'l'] rest
  | 't' => wordToken (.bool true) ['r', 'u', 'e'] rest
  | 'f' => wordToken (.bool false) ['a', 'l', 's', 'e'] rest
  | '-' => numberToken true rest
  | c => if c.isDigit then numberToken false (c :: rest) else (.junk .malformed, [])

/-- The tokens of a text.  Each token takes a character at least. -/
def tokensWithin : Nat → List Char → List Token
  | 0, _ => []
  | _ + 1, [] => []
  | fuel + 1, c :: rest =>
    if isBlank c then tokensWithin fuel rest
    else
      let (token, rest) := tokenAt fuel c rest
      token :: tokensWithin fuel rest

/-- The tokens of a text. -/
def tokens (s : String) : List Token :=
  let cs := s.toList
  tokensWithin (cs.length + 1) cs

end Trampoline.Json
