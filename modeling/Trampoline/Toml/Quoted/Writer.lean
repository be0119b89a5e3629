import Trampoline.Toml.Basic

/-!
# Writing quoted text

Text is quoted in the first style that fits it: the plain styles on one line before
those that span lines, and of each kind the one with escapes first, unless an escape
would be needed.

Main definitions:

- `Style`, `Style.choose`: the styles, and the one for a text.
- `quote`: a text between quotes.
-/

namespace Trampoline.Toml.Quoted

/-- The ways to quote a text. -/
inductive Style where
  /-- Between `"`, with escapes. -/
  | basic
  /-- Between `'`, as it is. -/
  | literal
  /-- Between `"""`, with escapes and lines. -/
  | multiBasic
  /-- Between `'''`, as it is. -/
  | multiLiteral
deriving DecidableEq

/-- Whether a character is a control character, the tab and the end of a line apart. -/
def isControl (c : Char) : Bool :=
  (c.toNat < 0x20 && c ≠ '\t' && c ≠ '\n') || c.toNat = 0x7f

/-- The length of the longest run of a quote, if `current` quotes stand in front. -/
def longestRun (quote : Char) (current : Nat) : List Char → Nat
  | [] => current
  | c :: rest =>
    if c = quote then longestRun quote (current + 1) rest
    else max current (longestRun quote 0 rest)

/-- The first style that fits a text. -/
def Style.choose (cs : List Char) : Style :=
  let control := cs.any isControl
  let backslash := cs.contains '\\'
  let lines := cs.contains '\n'
  let quotes := longestRun '"' 0 cs
  let apostrophes := longestRun '\'' 0 cs
  if !control && !backslash && !lines && quotes = 0 then .basic
  else if !control && !lines && apostrophes = 0 then .literal
  else if !control && !backslash && quotes ≤ 2 then .multiBasic
  else if !control && apostrophes ≤ 2 then .multiLiteral
  else if lines then .multiBasic
  else .basic

/-- An upper-case hexadecimal digit. -/
def hexDigit (n : Nat) : Char :=
  (Nat.digitChar n).toUpper

/-- A character that is no quote, escaped if it has to be. -/
def escape (c : Char) : List Char :=
  if c = '\\' then ['\\', '\\']
  else if c = '\x08' then ['\\', 'b']
  else if c = '\t' then ['\\', 't']
  else if c = '\n' then ['\\', 'n']
  else if c = '\x0c' then ['\\', 'f']
  else if c = '\r' then ['\\', 'r']
  else if c.toNat < 0x20 || c.toNat = 0x7f then
    ['\\', 'u', '0', '0', hexDigit (c.toNat / 16), hexDigit (c.toNat % 16)]
  else [c]

/-- The inside of a basic text. -/
def basicBody : List Char → List Char
  | [] => []
  | c :: rest => (if c = '"' then ['\\', '"'] else escape c) ++ basicBody rest

/-- The inside of a basic text with lines, of which `current` quotes have just been
written.  No three quotes are left side by side. -/
def multiBasicBody (current : Nat) : List Char → List Char
  | [] => []
  | c :: rest =>
    if c = '"' then
      if current = 2 then '\\' :: '"' :: multiBasicBody 0 rest
      else '"' :: multiBasicBody (current + 1) rest
    else (if c = '\n' then ['\n'] else escape c) ++ multiBasicBody 0 rest

/-- The line end that the styles with lines begin with if the text has lines. -/
def opening (cs : List Char) : List Char :=
  if cs.contains '\n' then ['\n'] else []

/-- Characters quoted in a style. -/
def Style.write (style : Style) (cs : List Char) : List Char :=
  match style with
  | basic => '"' :: basicBody cs ++ ['"']
  | literal => '\'' :: cs ++ ['\'']
  | multiBasic =>
    '"' :: '"' :: '"' :: opening cs ++ multiBasicBody 0 cs ++ ['"', '"', '"']
  | multiLiteral => '\'' :: '\'' :: '\'' :: opening cs ++ cs ++ ['\'', '\'', '\'']

/-- A text between quotes. -/
def quote (s : String) : List Char :=
  (Style.choose s.toList).write s.toList

end Trampoline.Toml.Quoted
