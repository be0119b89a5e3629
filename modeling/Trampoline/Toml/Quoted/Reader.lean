import Trampoline.Toml.Basic
import Trampoline.Text.Digits

/-!
# Reading quoted text

Quoted text in the four styles.  Each reader starts after the opening quotes and gives
the text and what follows the closing quotes, or nothing if the text is malformed.

Main definitions:

- `readBasic`, `readLiteral`: text on one line.
- `readMultiBasic`, `readMultiLiteral`: text with lines.
- `read`: text in any style, `readLine`: text on one line in either style.
-/

namespace Trampoline.Toml.Quoted

/-- What a reader gives: a text and what follows it. -/
abbrev Result :=
  Option (List Char × List Char)

/-- Put a character in front of the text that a reader gives. -/
def prepend (c : Char) (result : Result) : Result :=
  result.map fun (cs, rest) => (c :: cs, rest)

/-- Whether a character may stand in a text as it is, line ends and quotes apart. -/
def isPlain (c : Char) : Bool :=
  c = '\t' || (0x20 ≤ c.toNat && c.toNat ≠ 0x7f)

/-- The character that a backslash and a letter stand for. -/
def escaped? (c : Char) : Option Char :=
  match c with
  | 'b' => some '\x08'
  | 't' => some '\t'
  | 'n' => some '\n'
  | 'f' => some '\x0c'
  | 'r' => some '\r'
  | '"' => some '"'
  | '\\' => some '\\'
  | _ => none

/-- The character with a code in hexadecimal digits. -/
def coded? (digits : List Char) : Option Char :=
  match Text.natOfHex? digits with
  | some code => if code.isValidChar then some (Char.ofNat code) else none
  | none => none

/-- The rest of a basic text. -/
def readBasic : List Char → Result
  | [] => none
  | '"' :: rest => some ([], rest)
  | '\\' :: 'u' :: a :: b :: c :: d :: rest =>
    match coded? [a, b, c, d] with
    | some x => prepend x (readBasic rest)
    | none => none
  | '\\' :: 'U' :: a :: b :: c :: d :: e :: f :: g :: h :: rest =>
    match coded? [a, b, c, d, e, f, g, h] with
    | some x => prepend x (readBasic rest)
    | none => none
  | '\\' :: c :: rest =>
    match escaped? c with
    | some x => prepend x (readBasic rest)
    | none => none
  | c :: rest => if isPlain c && c ≠ '\\' then prepend c (readBasic rest) else none

/-- The rest of a literal text. -/
def readLiteral : List Char → Result
  | [] => none
  | '\'' :: rest => some ([], rest)
  | c :: rest => if isPlain c then prepend c (readLiteral rest) else none

/-- Whether nothing but blanks stands before the end of the line. -/
def endsLine : List Char → Bool
  | ' ' :: rest => endsLine rest
  | '\t' :: rest => endsLine rest
  | '\n' :: _ => true
  | '\r' :: '\n' :: _ => true
  | _ => false

/-- The rest of a basic text with lines.  A backslash at the end of a line folds the
text up to the next character that is no blank and no line end.  One or two quotes may
stand right before the closing ones. -/
def readMultiBasic (folding : Bool) : List Char → Result
  | [] => none
  | '"' :: '"' :: '"' :: '"' :: '"' :: rest => some (['"', '"'], rest)
  | '"' :: '"' :: '"' :: '"' :: rest => some (['"'], rest)
  | '"' :: '"' :: '"' :: rest => some ([], rest)
  | '"' :: rest => prepend '"' (readMultiBasic false rest)
  | '\\' :: 'u' :: a :: b :: c :: d :: rest =>
    match coded? [a, b, c, d] with
    | some x => prepend x (readMultiBasic false rest)
    | none => none
  | '\\' :: 'U' :: a :: b :: c :: d :: e :: f :: g :: h :: rest =>
    match coded? [a, b, c, d, e, f, g, h] with
    | some x => prepend x (readMultiBasic false rest)
    | none => none
  | '\\' :: c :: rest =>
    if endsLine (c :: rest) then readMultiBasic true (c :: rest)
    else
      match escaped? c with
      | some x => prepend x (readMultiBasic false rest)
      | none => none
  | '\r' :: '\n' :: rest =>
    if folding then readMultiBasic true rest else prepend '\n' (readMultiBasic false rest)
  | c :: rest =>
    if folding && (c = ' ' || c = '\t' || c = '\n') then readMultiBasic true rest
    else if (isPlain c || c = '\n') && c ≠ '\\' then prepend c (readMultiBasic false rest)
    else none

/-- The rest of a literal text with lines. -/
def readMultiLiteral : List Char → Result
  | [] => none
  | '\'' :: '\'' :: '\'' :: '\'' :: '\'' :: rest => some (['\'', '\''], rest)
  | '\'' :: '\'' :: '\'' :: '\'' :: rest => some (['\''], rest)
  | '\'' :: '\'' :: '\'' :: rest => some ([], rest)
  | '\r' :: '\n' :: rest => prepend '\n' (readMultiLiteral rest)
  | c :: rest => if isPlain c || c = '\n' then prepend c (readMultiLiteral rest) else none

/-- Text without the line end in front, which the styles with lines do not count. -/
def skipLineEnd : List Char → List Char
  | '\n' :: rest => rest
  | '\r' :: '\n' :: rest => rest
  | cs => cs

/-- A quoted text on one line. -/
def readLine : List Char → Result
  | '"' :: rest => readBasic rest
  | '\'' :: rest => readLiteral rest
  | _ => none

/-- A quoted text. -/
def read : List Char → Result
  | '"' :: '"' :: '"' :: rest => readMultiBasic false (skipLineEnd rest)
  | '\'' :: '\'' :: '\'' :: rest => readMultiLiteral (skipLineEnd rest)
  | cs => readLine cs

end Trampoline.Toml.Quoted
