import Trampoline.Log.Pattern.Reader

/-!
# Patterns that cannot be used

Patterns do without the tables of Unicode, and match nothing but text.  So case cannot be
folded and digits, white space and words cannot be told where Unicode is asked for; and
where it is not, nothing may stand for a part of a character that is not ASCII.

Main definitions:

- `Class.isSound`: whether a class can be used.
- `Pattern.survey`: the flags on the way through a pattern.
- `fault?`: what is wrong with a text as a pattern.
-/

namespace Trampoline.Log.Pattern

/-- What is wrong with a text as a pattern. -/
inductive Fault where
  | malformed
  /-- It asks for the edges of words in Unicode, which are not looked for. -/
  | wordEdge
deriving DecidableEq

/-- The flags that decide what can be used. -/
structure Mode where
  foldCase : Bool := false
  unicode : Bool := true

/-- The flags after a change. -/
def Mode.change (mode : Mode) (change : Change) : Mode where
  foldCase := change.applyTo .foldCase mode.foldCase
  unicode := change.applyTo .unicode mode.unicode

/-- Whether a character can be used.  The value of a byte stands for that byte alone where
Unicode is not asked for. -/
def Literal.isSound (mode : Mode) (l : Literal) : Bool :=
  if mode.unicode then !mode.foldCase else !l.isByte || l.character.toNat < 0x80

/-- Whether a character can be used in a class, which holds bytes where Unicode is not
asked for. -/
def Literal.isSoundInClass (mode : Mode) (l : Literal) : Bool :=
  if mode.unicode then !mode.foldCase else l.character.toNat < 0x80

mutual

/-- Whether a class can be used.  The negation of a class of bytes holds bytes that are
not ASCII. -/
def Class.isSound (mode : Mode) : Class → Bool
  | empty => true
  | literal l => l.isSoundInClass mode
  | range first last => first.isSoundInClass mode && last.isSoundInClass mode
  | ascii negated => if mode.unicode then !mode.foldCase else !negated
  | shorthand negated => !mode.unicode && !negated
  | union parts => Class.areSound mode parts
  | operation left right => left.isSound mode && right.isSound mode
  | bracketed negated inner => (mode.unicode || !negated) && inner.isSound mode

/-- Whether all of several classes can be used. -/
def Class.areSound (mode : Mode) : List Class → Bool
  | [] => true
  | part :: parts => part.isSound mode && Class.areSound mode parts

end

/-- What is known on the way through a pattern. -/
structure Survey where
  mode : Mode := {}
  /-- Whether all so far can be used. -/
  isSound : Bool := true
  /-- Whether the edges of words in Unicode are asked for. -/
  wordEdges : Bool := false

/-- Note whether a part can be used. -/
def Survey.require (s : Survey) (isSound : Bool) : Survey :=
  { s with isSound := s.isSound && isSound }

mutual

/-- Go through a pattern.  Flags last to the end of the group that they are set in. -/
def survey (s : Survey) : Pattern → Survey
  | empty => s
  | change flags => { s with mode := s.mode.change flags }
  | literal l => s.require (l.isSound s.mode)
  | dot => s.require s.mode.unicode
  | edge ofWord => { s with wordEdges := s.wordEdges || (ofWord && s.mode.unicode) }
  | set c => s.require (c.isSound s.mode)
  | repetition p => survey s p
  | group flags p =>
    { survey { s with mode := s.mode.change flags } p with mode := s.mode }
  | alternatives ps => surveyAll s ps
  | sequence ps => surveyAll s ps

/-- Go through several patterns. -/
def surveyAll (s : Survey) : List Pattern → Survey
  | [] => s
  | p :: ps => surveyAll (survey s p) ps

end

/-- How deep the parts of a pattern may be nested. -/
def maxDepth : Nat :=
  250

/-- What is wrong with a text as a pattern. -/
def fault? (cs : List Char) : Option Fault :=
  match read? cs with
  | none => some .malformed
  | some p =>
    let s := survey {} p
    if maxDepth < p.depth || !s.isSound then some .malformed
    else if s.wordEdges then some .wordEdge
    else none

end Trampoline.Log.Pattern
