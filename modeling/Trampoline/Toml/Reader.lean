import Trampoline.Text.Blank
import Trampoline.Toml.Quoted.Reader
import Trampoline.Toml.Scalar
import Trampoline.Toml.Tables

/-!
# Reading documents

TOML documents from text.  A reader takes what it needs from the front of the text and
leaves the rest; a text that is not well formed is not read at all.

Main definitions:

- `Reader`: the type of readers, a monad.
- `readValue`: any value.
- `lines?`: the lines of a text.
- `parse?`: the members of the document of a text.
-/

namespace Trampoline.Toml

/-- Something that takes characters from the front of a text. -/
abbrev Reader (α : Type) :=
  StateT (List Char) Option α

/-- How many arrays and tables may stand within each other, and how many keys may make
a dotted key. -/
def levelLimit : Nat :=
  79

/-! ## Between values -/

/-- Text without the line ends, blanks and comments in front.  In a comment all
characters up to the end of the line are passed over. -/
def skipLines (inComment : Bool) : List Char → Option (List Char)
  | [] => some []
  | '\n' :: rest => skipLines false rest
  | '\r' :: '\n' :: rest => skipLines false rest
  | c :: rest =>
    if inComment then
      if Quoted.isPlain c then skipLines true rest else none
    else if Text.isSpace c then skipLines false rest
    else if c = '#' then skipLines true rest
    else some (c :: rest)

/-- Text after the end of a line, before which only blanks and a comment may stand. -/
def endLine (cs : List Char) : Option (List Char) :=
  match cs.dropWhile Text.isSpace with
  | [] => some []
  | '\n' :: rest => some rest
  | '\r' :: '\n' :: rest => some rest
  | '#' :: rest => skipLines true rest
  | _ => none

namespace Reader

/-- Stop. -/
def fail {α : Type} : Reader α :=
  failure

/-- The character in front, which is left there. -/
def peek : Reader (Option Char) := do
  return (← get).head?

/-- Pass over the character in front. -/
def advance : Reader Unit :=
  modify List.tail

/-- Pass over a character, which has to stand in front. -/
def expect (c : Char) : Reader Unit := do
  if (← peek) = some c then advance else fail

/-- Pass over blanks. -/
def spaces : Reader Unit :=
  modify (List.dropWhile Text.isSpace)

/-- Pass over blanks, comments and line ends. -/
def breaks : Reader Unit := do
  set (← skipLines false (← get))

/-- Go one level down, if there is room for it. -/
def enter (room : Nat) : Reader Nat :=
  match room with
  | 0 => fail
  | room + 1 => return room

/-! ## Keys -/

/-- Whether a character may stand in a key without quotes. -/
def isKeyChar (c : Char) : Bool :=
  c.isAlphanum || c = '_' || c = '-'

/-- One key, quoted or not. -/
def key : Reader String := do
  let cs ← get
  match cs.head? with
  | some '"' | some '\'' =>
    let (key, rest) ← Quoted.readLine cs
    set rest
    return String.ofList key
  | _ =>
    let key := cs.takeWhile isKeyChar
    if key.isEmpty then fail
    set (cs.dropWhile isKeyChar)
    return String.ofList key

/-- A dotted key with the blanks around its parts, of at most so many keys. -/
def pathWithin : Nat → Reader Path
  | 0 => fail
  | room + 1 => do
    spaces
    let first ← key
    spaces
    if (← peek) = some '.' then
      advance
      let path ← pathWithin room
      return ⟨first :: path.tables, path.key⟩
    else return ⟨[], first⟩

/-- A dotted key with the blanks around its parts. -/
def path : Reader Path :=
  pathWithin levelLimit

/-! ## Values -/

/-- A quoted text. -/
def quoted : Reader Toml := do
  let (s, rest) ← Quoted.read (← get)
  set rest
  return .text (String.ofList s)

/-- A value that is written as a word. -/
def scalar : Reader Toml := do
  let (word, rest) := spanWord (← get)
  set rest
  word? word

mutual

/-- A value in front, with room for so many levels. -/
def valueWithin : Nat → Nat → Reader Toml
  | 0, _ => fail
  | fuel + 1, room => do
    match ← peek with
    | some '"' | some '\'' => quoted
    | some '[' => do
      advance
      let room ← enter room
      return .array (← itemsWithin fuel room)
    | some '\x7b' => do
      advance
      let room ← enter room
      spaces
      let assignments ← if (← peek) = some '\x7d' then do
          advance
          pure []
        else assignmentsWithin fuel room
      return .table (← ofAssignments? assignments)
    | _ => scalar

/-- The items of an array, and its end. -/
def itemsWithin : Nat → Nat → Reader (List Toml)
  | 0, _ => fail
  | fuel + 1, room => do
    breaks
    if (← peek) = some ']' then
      advance
      return []
    let v ← valueWithin fuel room
    breaks
    match ← peek with
    | some ',' => do
      advance
      return v :: (← itemsWithin fuel room)
    | some ']' => do
      advance
      return [v]
    | _ => fail

/-- The members of a table within braces, and its end. -/
def assignmentsWithin : Nat → Nat → Reader (List Assignment)
  | 0, _ => fail
  | fuel + 1, room => do
    let path ← path
    expect '='
    spaces
    let v ← valueWithin fuel room
    spaces
    match ← peek with
    | some ',' => do
      advance
      return ⟨path, v⟩ :: (← assignmentsWithin fuel room)
    | some '\x7d' => do
      advance
      return [⟨path, v⟩]
    | _ => fail

end

/-- A value in front.  No character is behind more than two calls within each other. -/
def readValue : Reader Toml := do
  valueWithin (2 * (← get).length + 2) levelLimit

/-! ## Lines -/

/-- The head of a table or of an element. -/
def head : Reader Line := do
  expect '['
  if (← peek) = some '[' then
    advance
    let path ← path
    expect ']'
    expect ']'
    return .element path
  else
    let path ← path
    expect ']'
    return .table path

/-- A value for a dotted key. -/
def assignment : Reader Line := do
  let path ← path
  expect '='
  spaces
  let v ← readValue
  return .assignment ⟨path, v⟩

/-- A line, with its end. -/
def line : Reader Line := do
  let line ← if (← peek) = some '[' then head else assignment
  set (← endLine (← get))
  return line

/-- So many lines at most, up to the end of the text. -/
def linesWithin : Nat → Reader (List Line)
  | 0 => fail
  | fuel + 1 => do
    breaks
    if (← get).isEmpty then return []
    let first ← line
    return first :: (← linesWithin fuel)

end Reader

/-- The lines of a text.  Each takes a character at least. -/
def lines? (cs : List Char) : Option (List Line) :=
  (Reader.linesWithin (cs.length + 1)).run' cs

/-- The members of the document of a text. -/
def parse? (s : String) : Option (List (String × Toml)) := do
  ofLines? (← lines? (Text.skipMark s.toList))

end Trampoline.Toml
