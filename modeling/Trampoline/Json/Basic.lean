import Trampoline.Decimal.Notation

/-!
# JSON documents

The tree of a JSON document and its compact text.  The members of an object are kept
in the order in which they are written, with repetitions.
-/

namespace Trampoline

/-- A number of a document.  Whole numbers that fit 64 bits are kept exact. -/
inductive Json.Number where
  | natural (n : Nat)
  /-- The number `-n`, for a positive `n`. -/
  | negative (n : Nat)
  | real (x : Float)

/-- The float nearest to a number. -/
def Json.Number.toFloat : Json.Number → Float
  | natural n => Float.ofNat n
  | negative n => -Float.ofNat n
  | real x => x

/-- A JSON document. -/
inductive Json where
  | null
  | bool (b : Bool)
  | number (n : Json.Number)
  | text (s : String)
  | array (items : List Json)
  | object (members : List (String × Json))

namespace Json

/-- The first member with a key. -/
def field? (j : Json) (key : String) : Option Json :=
  match j with
  | object members => members.lookup key
  | _ => none

/-- A hexadecimal digit of a number below 16. -/
def hexDigit (n : Nat) : Char :=
  Nat.digitChar n

/-- One character of a text in a document. -/
def escapeChar (c : Char) : List Char :=
  if c = '"' then ['\\', '"']
  else if c = '\\' then ['\\', '\\']
  else if c = '\n' then ['\\', 'n']
  else if c = '\r' then ['\\', 'r']
  else if c = '\t' then ['\\', 't']
  else if c = '\x08' then ['\\', 'b']
  else if c = '\x0c' then ['\\', 'f']
  else if c.toNat < 0x20 then
    ['\\', 'u', '0', '0', hexDigit (c.toNat / 16), hexDigit (c.toNat % 16)]
  else [c]

/-- A text between quotes. -/
def renderText (s : String) : List Char :=
  '"' :: s.toList.flatMap escapeChar ++ ['"']

/-- The text of a number. -/
def Number.render : Number → List Char
  | natural n => Text.digitsOf n
  | negative n => '-' :: Text.digitsOf n
  | real x => (Decimal.Layout.document.render x).toList

mutual

/-- The compact text of a document. -/
def renderChars : Json → List Char
  | null => ['n', 'u', 'l', 'l']
  | bool true => ['t', 'r', 'u', 'e']
  | bool false => ['f', 'a', 'l', 's', 'e']
  | number n => n.render
  | text s => renderText s
  | array [] => ['[', ']']
  | array (j :: rest) => '[' :: renderChars j ++ renderItems rest
  | object [] => ['\x7b', '\x7d']
  | object ((key, j) :: rest) =>
    '\x7b' :: renderText key ++ ':' :: renderChars j ++ renderMembers rest

/-- The text of the items after the first, and the end of the array. -/
def renderItems : List Json → List Char
  | [] => [']']
  | j :: rest => ',' :: renderChars j ++ renderItems rest

/-- The text of the members after the first, and the end of the object. -/
def renderMembers : List (String × Json) → List Char
  | [] => ['\x7d']
  | (key, j) :: rest => ',' :: renderText key ++ ':' :: renderChars j ++ renderMembers rest

end

/-- The compact text of a document. -/
def render (j : Json) : String :=
  String.ofList j.renderChars

end Json

end Trampoline
