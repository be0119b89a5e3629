import Trampoline.Decimal.Notation
import Trampoline.Toml.Quoted.Writer

/-!
# Writing documents

Documents of sections with plain values, one value a line and a blank line between
sections.

Main definitions:

- `Scalar`, `Section`: what such a document holds.
- `render?`: its text, unless a number does not fit a document.
-/

namespace Trampoline.Toml

/-- A plain value. -/
inductive Scalar where
  | text (s : String)
  | bool (b : Bool)
  | count (n : Nat)

/-- A table with a head and plain values. -/
structure Section where
  name : String
  entries : List (String × Scalar)

/-- Whether a value fits a document. -/
def Scalar.fits : Scalar → Bool
  | count n => (n : Int) ≤ maxInteger
  | text _ | bool _ => true

/-- The text of a value. -/
def Scalar.write : Scalar → List Char
  | text s => Quoted.quote s
  | bool true => ['t', 'r', 'u', 'e']
  | bool false => ['f', 'a', 'l', 's', 'e']
  | count n => Text.digitsOf n

/-- A key with its value on a line. -/
def writeEntry (entry : String × Scalar) : List Char :=
  entry.1.toList ++ [' ', '=', ' '] ++ entry.2.write ++ ['\n']

/-- The lines of a section. -/
def Section.write (s : Section) : List Char :=
  '[' :: s.name.toList ++ [']', '\n'] ++ s.entries.flatMap writeEntry

/-- The lines of sections, with blank lines between them. -/
def writeSections : List Section → List Char
  | [] => []
  | [last] => last.write
  | s :: rest => s.write ++ '\n' :: writeSections rest

/-- The text of a document, if all its values fit. -/
def render? (sections : List Section) : Option String :=
  if sections.all fun s => s.entries.all fun entry => entry.2.fits then
    some (String.ofList (writeSections sections))
  else none

end Trampoline.Toml
