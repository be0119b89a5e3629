import Trampoline.Log.Pattern.Basic
import Trampoline.Text.Alphanumeric
import Trampoline.Text.Blank
import Trampoline.Text.Digits

/-!
# Reading patterns

How a text is read as a pattern.  A closing brace never occurs, since it ends the field
that the pattern is the value of.  So nothing can be said about how often something is
repeated, and there are no names of properties.

Main definitions:

- `Escape.read?`: what a backslash begins.
- `OpenClass.read?`: what a bracket begins.
- `GroupStart.read?`: what a parenthesis begins.
- `Pattern.read?`: a whole pattern.
-/

namespace Trampoline.Log.Pattern

open Text

/-! ## Blanks -/

/-- Skip white space and comments, which reach from a number sign to the end of the
line. -/
def skipNotes : Bool → List Char → List Char
  | _, [] => []
  | true, c :: rest => skipNotes (c ≠ '\n') rest
  | false, c :: rest =>
    if isBlank c then skipNotes false rest
    else if c = '#' then skipNotes true rest
    else c :: rest

/-- Skip white space and comments where they mean nothing. -/
def skipBlanks (loose : Bool) (cs : List Char) : List Char :=
  if loose then skipNotes false cs else cs

/-- The character to expect next.  White space is passed over where it means nothing, and
so is a number sign, but not the comment behind it. -/
def peek? (loose : Bool) (cs : List Char) : Option Char :=
  if loose then
    match cs.dropWhile isBlank with
    | '#' :: rest => (rest.dropWhile isBlank).head?
    | rest => rest.head?
  else cs.head?

/-! ## Escapes -/

/-- What an escape stands for. -/
inductive Escape where
  | literal (l : Literal)
  | edge (ofWord : Bool)
  | set (c : Class)

/-- So many hexadecimal digits. -/
def hexDigits? (loose : Bool) : Nat → List Char → Option (List Char × List Char)
  | 0, cs => some ([], cs)
  | size + 1, cs => do
    match skipBlanks loose cs with
    | c :: rest =>
      let (digits, rest) ← hexDigits? loose size rest
      return (c :: digits, rest)
    | [] => failure

/-- A character given by so many hexadecimal digits. -/
def hexEscape? (loose : Bool) (size : Nat) (cs : List Char) :
    Option (Escape × List Char) := do
  let (digits, rest) ← hexDigits? loose size cs
  let n ← natOfHex? digits
  if n.isValidChar then return (.literal ⟨Char.ofNat n, size = 2⟩, rest) else failure

/-- An escape, of which the backslash has been read.  Marks stand for themselves; letters
and digits have to have a meaning. -/
def Escape.read? (loose : Bool) : List Char → Option (Escape × List Char)
  | [] => none
  | c :: rest =>
    let character (c : Char) : Option (Escape × List Char) := some (.literal ⟨c, false⟩, rest)
    match c with
    | 'x' => hexEscape? loose 2 rest
    | 'u' => hexEscape? loose 4 rest
    | 'U' => hexEscape? loose 8 rest
    | 'a' => character '\x07'
    | 'f' => character '\x0c'
    | 't' => character '\t'
    | 'n' => character '\n'
    | 'r' => character '\r'
    | 'v' => character '\x0b'
    | 'A' | 'z' => some (.edge false, rest)
    | 'b' | 'B' | '<' | '>' => some (.edge true, rest)
    | 'd' | 's' | 'w' => some (.set (.shorthand false), rest)
    | 'D' | 'S' | 'W' => some (.set (.shorthand true), rest)
    | _ => if c.toNat < 0x80 && !c.isAlphanum then character c else none

/-! ## Classes -/

/-- The names of classes of ASCII characters. -/
def asciiClasses : List String :=
  ["alnum", "alpha", "ascii", "blank", "cntrl", "digit", "graph", "lower", "print", "punct",
    "space", "upper", "word", "xdigit"]

/-- The name of a class of ASCII characters between colons and brackets, of which the
first bracket has been read. -/
def asciiClass? (cs : List Char) : Option (Class × List Char) :=
  match cs with
  | ':' :: cs =>
    let (negated, cs) := match cs with
      | '^' :: rest => (true, rest)
      | _ => (false, cs)
    match cs.dropWhile (· ≠ ':') with
    | ':' :: ']' :: rest =>
      if asciiClasses.contains (String.ofList (cs.takeWhile (· ≠ ':'))) then
        some (.ascii negated, rest)
      else none
    | _ => none
  | _ => none

/-- A class that is not closed yet. -/
structure OpenClass where
  negated : Bool
  /-- The left side of an operator of which the right side is being read. -/
  left : Option Class
  /-- The parts so far, the last one first. -/
  parts : List Class

namespace OpenClass

/-- Add a part. -/
def add (o : OpenClass) (part : Class) : OpenClass :=
  { o with parts := part :: o.parts }

/-- What has been read so far. -/
def content (o : OpenClass) : Class :=
  let parts := Class.ofParts o.parts.reverse
  match o.left with
  | some left => .operation left parts
  | none => parts

/-- Read an operator.  All that has been read is its left side. -/
def operate (o : OpenClass) : OpenClass :=
  { o with left := some o.content, parts := [] }

/-- Read the closing bracket. -/
def close (o : OpenClass) : Class :=
  .bracketed o.negated o.content

/-- Hyphens that stand for themselves, as many as there are steps at most. -/
def readHyphens (loose : Bool) : Nat → OpenClass → List Char → OpenClass × List Char
  | steps + 1, o, '-' :: rest =>
    readHyphens loose steps (o.add (.literal ⟨'-', false⟩)) (skipBlanks loose rest)
  | _, o, cs => (o, cs)

/-- The start of a class, of which the bracket has been read: a negation, hyphens, or a
closing bracket that stands for itself. -/
def readStart (loose : Bool) (cs : List Char) : OpenClass × List Char :=
  let (negated, cs) := match skipBlanks loose cs with
    | '^' :: rest => (true, skipBlanks loose rest)
    | cs => (false, cs)
  let o : OpenClass := ⟨negated, none, []⟩
  match cs with
  | ']' :: rest => (o.add (.literal ⟨']', false⟩), rest)
  | _ => readHyphens loose cs.length o cs

/-- A character or a shorthand within a class. -/
def readItem? (loose : Bool) : List Char → Option (Class × List Char)
  | [] => none
  | '\\' :: cs =>
    match Escape.read? loose cs with
    | some (.literal l, rest) => some (.literal l, rest)
    | some (.set c, rest) => some (c, rest)
    | _ => none
  | c :: cs => some (.literal ⟨c, false⟩, cs)

/-- A part of a class: an item, or a range of characters.  A hyphen in front of another
one, or of the closing bracket, begins no range. -/
def readPart? (loose : Bool) (cs : List Char) : Option (Class × List Char) := do
  let (item, rest) ← readItem? loose cs
  match skipBlanks loose rest with
  | [] => failure
  | '-' :: rest =>
    let next := peek? loose rest
    if next = some ']' || next = some '-' then return (item, '-' :: rest)
    match item, ← readItem? loose (skipBlanks loose rest) with
    | .literal first, (.literal last, rest) =>
      if first.character ≤ last.character then return (.range first last, rest) else failure
    | _, _ => failure
  | rest => return (item, rest)

/-- Read classes to the closing bracket of the outermost one.  Each step takes a
character. -/
def readWithin (loose : Bool) :
    Nat → OpenClass → List OpenClass → List Char → Option (Class × List Char)
  | 0, _, _, _ => none
  | fuel + 1, o, outer, cs =>
    match skipBlanks loose cs with
    | [] => none
    | '[' :: rest =>
      match asciiClass? rest with
      | some (part, rest) => readWithin loose fuel (o.add part) outer rest
      | none =>
        let (inner, rest) := readStart loose rest
        readWithin loose fuel inner (o :: outer) rest
    | ']' :: rest =>
      match outer with
      | [] => some (o.close, rest)
      | above :: outer => readWithin loose fuel (above.add o.close) outer rest
    | '&' :: '&' :: rest => readWithin loose fuel o.operate outer rest
    | '-' :: '-' :: rest => readWithin loose fuel o.operate outer rest
    | '~' :: '~' :: rest => readWithin loose fuel o.operate outer rest
    | cs =>
      match readPart? loose cs with
      | some (part, rest) => readWithin loose fuel (o.add part) outer rest
      | none => none

/-- A class, of which the bracket has been read. -/
def read? (loose : Bool) (cs : List Char) : Option (Class × List Char) :=
  let (o, rest) := readStart loose cs
  readWithin loose (cs.length + 1) o [] rest

end OpenClass

/-! ## Groups -/

/-- How a group begins. -/
inductive GroupStart where
  | plain (flags : Change)
  | named (name : List Char)
  /-- Nothing but flags, for what follows. -/
  | flags (flags : Change)

/-- Whether a text is the name of a group. -/
def isGroupName : List Char → Bool
  | [] => false
  | c :: rest =>
    (c = '_' || isAlphabetic c) &&
      rest.all fun c => c = '_' || c = '.' || c = '[' || c = ']' || isAlphanumeric c

/-- A name in front of an angle bracket. -/
def groupName? (cs : List Char) : Option (GroupStart × List Char) :=
  let name := cs.takeWhile (· ≠ '>')
  match cs.dropWhile (· ≠ '>') with
  | _ :: rest => if isGroupName name then some (.named name, rest) else none
  | [] => none

/-- Flags in front of a colon or of a closing parenthesis. -/
def groupFlags? (cs : List Char) : Option (GroupStart × List Char) := do
  let isEnd (c : Char) : Bool := c = ':' || c = ')'
  let flags ← Change.ofLetters? (cs.takeWhile fun c => !isEnd c)
  match cs.dropWhile fun c => !isEnd c with
  | ':' :: rest => return (.plain flags, rest)
  | ')' :: rest => if flags.isNone then failure else return (.flags flags, rest)
  | _ => failure

/-- The start of a group, of which the parenthesis has been read. -/
def GroupStart.read? (loose : Bool) (cs : List Char) : Option (GroupStart × List Char) :=
  match skipBlanks loose cs with
  | '?' :: '=' :: _ | '?' :: '!' :: _ | '?' :: '<' :: '=' :: _ | '?' :: '<' :: '!' :: _ => none
  | '?' :: 'P' :: '<' :: rest | '?' :: '<' :: rest => groupName? rest
  | '?' :: rest => groupFlags? rest
  | cs => some (.plain .none, cs)

/-! ## Whole patterns -/

/-- A group that is not closed yet, and what is around it. -/
structure OpenGroup where
  flags : Change
  /-- Whether white space and comments mean nothing around the group. -/
  loose : Bool
  /-- The alternatives in front of the one that the group is in, the last one first. -/
  alternatives : List Pattern
  /-- What is in front of the group, the last one first. -/
  items : List Pattern

/-- The state of reading a pattern. -/
structure Reading where
  /-- Whether white space and comments mean nothing. -/
  loose : Bool := false
  /-- The alternatives so far, the last one first. -/
  alternatives : List Pattern := []
  /-- What has been read of this alternative, the last one first. -/
  items : List Pattern := []
  /-- The groups that are open, the innermost first. -/
  outer : List OpenGroup := []
  /-- The names of the groups so far. -/
  names : List (List Char) := []

namespace Reading

/-- What has been read of this group. -/
def content (r : Reading) : Pattern :=
  let last := ofItems r.items.reverse
  match r.alternatives with
  | [] => last
  | others => .alternatives (others.reverse ++ [last])

/-- Add an item. -/
def add (r : Reading) (item : Pattern) : Reading :=
  { r with items := item :: r.items }

/-- Begin the next alternative. -/
def alternate (r : Reading) : Reading :=
  { r with alternatives := ofItems r.items.reverse :: r.alternatives, items := [] }

/-- Begin a group. -/
def enter (r : Reading) (flags : Change) : Reading :=
  { r with
    loose := flags.applyTo .loose r.loose
    alternatives := []
    items := []
    outer := ⟨flags, r.loose, r.alternatives, r.items⟩ :: r.outer }

/-- Read the start of a group.  No two groups have one name. -/
def start? (r : Reading) : GroupStart → Option Reading
  | .plain flags => some (r.enter flags)
  | .named name =>
    if r.names.contains name then none
    else some { r.enter .none with names := name :: r.names }
  | .flags flags =>
    some { r.add (.change flags) with loose := flags.applyTo .loose r.loose }

/-- End a group. -/
def leave? (r : Reading) : Option Reading :=
  match r.outer with
  | [] => none
  | around :: outer =>
    some { r with
      loose := around.loose
      alternatives := around.alternatives
      items := .group around.flags r.content :: around.items
      outer := outer }

/-- Repeat the last item.  Flags cannot be repeated. -/
def again? (r : Reading) : Option Reading :=
  match r.items with
  | [] | .change _ :: _ => none
  | item :: items => some { r with items := .repetition item :: items }

/-- Read a pattern to its end.  Each step takes a character.  A question mark right behind
a sign of repetition belongs to it. -/
def readWithin : Nat → Reading → List Char → Option Pattern
  | 0, _, _ => none
  | fuel + 1, r, cs =>
    match skipBlanks r.loose cs with
    | [] => if r.outer.isEmpty then some r.content else none
    | c :: rest =>
      match c with
      | '(' => do
        let (start, rest) ← GroupStart.read? r.loose rest
        readWithin fuel (← r.start? start) rest
      | ')' => do readWithin fuel (← r.leave?) rest
      | '|' => readWithin fuel r.alternate rest
      | '[' => do
        let (c, rest) ← OpenClass.read? r.loose rest
        readWithin fuel (r.add (.set c)) rest
      | '?' | '*' | '+' => do
        let rest := match rest with
          | '?' :: rest => rest
          | _ => rest
        readWithin fuel (← r.again?) rest
      | '\x7b' => none
      | '\\' => do
        match ← Escape.read? r.loose rest with
        | (.literal l, rest) => readWithin fuel (r.add (.literal l)) rest
        | (.edge ofWord, rest) => readWithin fuel (r.add (.edge ofWord)) rest
        | (.set c, rest) => readWithin fuel (r.add (.set c)) rest
      | '.' => readWithin fuel (r.add .dot) rest
      | '^' | '$' => readWithin fuel (r.add (.edge false)) rest
      | _ => readWithin fuel (r.add (.literal ⟨c, false⟩)) rest

end Reading

/-- The pattern that a text is. -/
def read? (cs : List Char) : Option Pattern :=
  Reading.readWithin (cs.length + 1) {} cs

end Trampoline.Log.Pattern
