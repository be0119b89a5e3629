/-!
# Patterns

The regular expressions that the values of fields may be compared with, as trees.  Only
what decides whether a pattern can be used is kept, so classes of one kind are not told
from each other.

Main definitions:

- `Pattern.Change`: the flags that a group sets.
- `Pattern.Class`: what stands between brackets.
- `Pattern`: a pattern.
- `Pattern.depth`: how deep its parts are nested.
-/

namespace Trampoline.Log

namespace Pattern

/-! ## Flags -/

/-- A flag of a pattern. -/
inductive Flag where
  | foldCase
  | multiLine
  | dotMatchesAll
  | swapGreed
  | unicode
  | carriageReturn
  /-- White space and comments are skipped. -/
  | loose
deriving DecidableEq

/-- The flag that a letter stands for. -/
def Flag.ofChar? : Char → Option Flag
  | 'i' => some foldCase
  | 'm' => some multiLine
  | 's' => some dotMatchesAll
  | 'U' => some swapGreed
  | 'u' => some unicode
  | 'R' => some carriageReturn
  | 'x' => some loose
  | _ => none

/-- The flags that are set, and those that are cleared. -/
structure Change where
  on : List Flag
  off : List Flag

/-- No flag is set or cleared. -/
def Change.none : Change where
  on := []
  off := []

/-- Whether no flag is set or cleared. -/
def Change.isNone (change : Change) : Bool :=
  change.on.isEmpty && change.off.isEmpty

/-- The flags that are set in front of a hyphen and cleared behind it.  No flag occurs
twice, and a hyphen does not come last. -/
def Change.ofLetters? (cs : List Char) : Option Change := do
  let on ← (cs.takeWhile (· ≠ '-')).mapM Flag.ofChar?
  let off ← (cs.dropWhile (· ≠ '-')).tail.mapM Flag.ofChar?
  if cs.getLast? = some '-' || !decide (on ++ off).Nodup then failure
  return ⟨on, off⟩

/-- A flag after a change. -/
def Change.applyTo (change : Change) (flag : Flag) (value : Bool) : Bool :=
  if change.on.contains flag then true
  else if change.off.contains flag then false
  else value

/-! ## Classes -/

/-- A character that stands for itself. -/
structure Literal where
  character : Char
  /-- Whether it is given as the value of a byte. -/
  isByte : Bool

/-- A class of characters. -/
inductive Class where
  | empty
  | literal (l : Literal)
  | range (first last : Literal)
  /-- A class of ASCII characters that is named within colons. -/
  | ascii (negated : Bool)
  /-- The digits, the white space or the characters of words, named by a letter. -/
  | shorthand (negated : Bool)
  | union (parts : List Class)
  /-- What is common to two classes, or in one of them only. -/
  | operation (left right : Class)
  | bracketed (negated : Bool) (inner : Class)

/-- The class of so many parts. -/
def Class.ofParts : List Class → Class
  | [] => .empty
  | [part] => part
  | parts => .union parts

mutual

/-- How deep the parts of a class are nested. -/
def Class.depth : Class → Nat
  | union parts => Class.depthOfParts parts + 1
  | operation left right => max left.depth right.depth + 1
  | bracketed _ inner => inner.depth + 1
  | _ => 0

/-- How deep the deepest of several classes is nested. -/
def Class.depthOfParts : List Class → Nat
  | [] => 0
  | part :: parts => max part.depth (Class.depthOfParts parts)

end

end Pattern

/-! ## Patterns -/

/-- A pattern. -/
inductive Pattern where
  | empty
  /-- Flags for what follows in the group. -/
  | change (flags : Pattern.Change)
  | literal (l : Pattern.Literal)
  /-- Any character. -/
  | dot
  /-- An edge of the text, of a line or of a word. -/
  | edge (ofWord : Bool)
  | set (c : Pattern.Class)
  | repetition (p : Pattern)
  | group (flags : Pattern.Change) (p : Pattern)
  | alternatives (ps : List Pattern)
  | sequence (ps : List Pattern)

namespace Pattern

/-- The pattern of so many others in sequence. -/
def ofItems : List Pattern → Pattern
  | [] => .empty
  | [item] => item
  | items => .sequence items

mutual

/-- How deep the parts of a pattern are nested. -/
def depth : Pattern → Nat
  | set c => c.depth
  | repetition p => p.depth + 1
  | group _ p => p.depth + 1
  | alternatives ps => depthOfAll ps + 1
  | sequence ps => depthOfAll ps + 1
  | _ => 0

/-- How deep the deepest of several patterns is nested. -/
def depthOfAll : List Pattern → Nat
  | [] => 0
  | p :: ps => max p.depth (depthOfAll ps)

end

end Pattern

end Trampoline.Log
