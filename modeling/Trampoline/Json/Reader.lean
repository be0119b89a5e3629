import Trampoline.Json.Token

/-!
# Reading JSON

Documents from tokens.  A reader takes what it needs from the front of a list of
tokens and gives back the rest; it stops at the first fault.

Main definitions:

- `Reader`: the type of readers, a monad.
- `document`: any document, with at most so many levels.
- `skip`: pass over a document.
- `parse?`: the document of a whole text.
-/

namespace Trampoline.Json

/-- Something that takes tokens from the front of a list. -/
abbrev Reader (α : Type) :=
  StateT (List Token) (Except Fault) α

/-- How many arrays and objects may stand within each other. -/
def levelLimit : Nat :=
  127

namespace Reader

/-- Stop with a fault. -/
def fail {α : Type} (fault : Fault) : Reader α :=
  throw fault

/-- The token in front, which is left there. -/
def peek : Reader (Option Token) := do
  return (← get).head?

/-- Pass over the token in front. -/
def advance : Reader Unit :=
  modify List.tail

/-- What is wrong with a token where a value of another shape is wanted. -/
def shapeFault : Option Token → Fault
  | none => .ended
  | some (.text (.error fault) _) | some (.number (.error fault) _) | some (.junk fault) => fault
  | some .closeBrace | some .closeBracket | some .colon | some .comma => .malformed
  | some _ => .shape

/-- Refuse the token in front because a value of another shape is wanted. -/
def refuse {α : Type} : Reader α := do
  fail (shapeFault (← peek))

/-- A quoted text. -/
def text : Reader String := do
  match ← peek with
  | some (.text (.ok s) _) =>
    advance
    return s
  | _ => refuse

/-- A quoted text where nothing else makes sense. -/
def name : Reader String := do
  match ← peek with
  | some (.text _ _) => text
  | none => fail .ended
  | some _ => fail .malformed

/-- The colon before the value of a member. -/
def colon : Reader Unit := do
  match ← peek with
  | some .colon => advance
  | none => fail .ended
  | some _ => fail .malformed

/-- Whether an array goes on.  The opening bracket or the item before has been read; in
front of a further item the comma is passed over. -/
def hasItem (isFirst : Bool) : Reader Bool := do
  match ← peek with
  | none => fail .ended
  | some .closeBracket => return false
  | some .comma =>
    if isFirst then return true
    else
      advance
      match ← peek with
      | none => fail .ended
      | some .closeBracket => fail .malformed
      | some _ => return true
  | some _ => if isFirst then return true else fail .malformed

/-- The end of an array. -/
def endArray : Reader Unit := do
  match ← peek with
  | some .closeBracket => advance
  | none => fail .ended
  | some _ => fail .malformed

/-- A key in front, which has to be a quoted text. -/
def keyHere : Reader (Option String) :=
  some <$> name

/-- The next key of an object, if the object goes on. -/
def key? (isFirst : Bool) : Reader (Option String) := do
  match ← peek with
  | none => fail .ended
  | some .closeBrace => return none
  | some .comma =>
    if isFirst then fail .malformed
    else
      advance
      keyHere
  | some _ => if isFirst then keyHere else fail .malformed

/-- The end of an object. -/
def endObject : Reader Unit := do
  match ← peek with
  | some .closeBrace => advance
  | none => fail .ended
  | some _ => fail .malformed

/-- Enter an array or an object, of which there is room for so many levels. -/
def enter (room : Nat) : Reader Nat := do
  match room with
  | 0 => fail .malformed
  | room + 1 =>
    advance
    return room

end Reader

open Reader

/-! ## Skipping -/

/-- What may come next while a document is skipped. -/
inductive SkipState where
  /-- A value, after a comma or a colon or at the start. -/
  | value
  /-- The first item of an array, or its end. -/
  | firstItem
  /-- The first key of an object, or its end. -/
  | firstKey
  /-- A further key. -/
  | key
  /-- The colon after a key. -/
  | colon
  /-- What follows a value. -/
  | after

/-- Pass over tokens until the document is complete.  `outer` tells of each open array
or object, from the inside out, whether it is an object. -/
def skipFrom : List Token → SkipState → List Bool → Except Fault (List Token)
  | [], .after, [] => .ok []
  | [], _, _ => .error .ended
  | ts, .after, [] => .ok ts
  | token :: ts, .after, isObject :: outer =>
    match token with
    | .comma => skipFrom ts (if isObject then .key else .value) (isObject :: outer)
    | .closeBracket => if isObject then .error .malformed else skipFrom ts .after outer
    | .closeBrace => if isObject then skipFrom ts .after outer else .error .malformed
    | _ => .error .malformed
  | token :: ts, .colon, outer =>
    match token with
    | .colon => skipFrom ts .value outer
    | _ => .error .malformed
  | token :: ts, .key, outer =>
    match token with
    | .text _ (.ok ()) => skipFrom ts .colon outer
    | .text _ (.error fault) => .error fault
    | _ => .error .malformed
  | token :: ts, .firstKey, outer =>
    match token, outer with
    | .closeBrace, _ :: outer => skipFrom ts .after outer
    | .text _ (.ok ()), outer => skipFrom ts .colon outer
    | .text _ (.error fault), _ => .error fault
    | _, _ => .error .malformed
  | token :: ts, state, outer =>
    match token, state, outer with
    | .closeBracket, .firstItem, _ :: outer => skipFrom ts .after outer
    | .null, _, _ | .bool _, _, _ | .text _ (.ok ()), _, _ | .number _ (.ok ()), _, _ =>
      skipFrom ts .after outer
    | .openBracket, _, _ => skipFrom ts .firstItem (false :: outer)
    | .openBrace, _, _ => skipFrom ts .firstKey (true :: outer)
    | .text _ (.error fault), _, _ | .number _ (.error fault), _, _ | .junk fault, _, _ =>
      .error fault
    | _, _, _ => .error .malformed

/-- Pass over a document of any depth. -/
def skip : Reader Unit :=
  fun ts => (skipFrom ts .value []).map fun rest => ((), rest)

/-! ## Documents -/

mutual

/-- A document with room for so many levels. -/
def documentWithin : Nat → Nat → Reader Json
  | 0, _ => fail .ended
  | fuel + 1, room => do
    match ← peek with
    | some .null =>
      advance
      return .null
    | some (.bool b) =>
      advance
      return .bool b
    | some (.number (.ok n) _) =>
      advance
      return .number n
    | some (.text (.ok s) _) =>
      advance
      return .text s
    | some .openBracket => do
      let room ← enter room
      let items ← itemsWithin fuel room true
      endArray
      return .array items
    | some .openBrace => do
      let room ← enter room
      let members ← membersWithin fuel room true
      endObject
      return .object members
    | _ => refuse

/-- The items of an array. -/
def itemsWithin : Nat → Nat → Bool → Reader (List Json)
  | 0, _, _ => fail .ended
  | fuel + 1, room, isFirst => do
    if ← hasItem isFirst then
      let item ← documentWithin fuel room
      let rest ← itemsWithin fuel room false
      return item :: rest
    else return []

/-- The members of an object. -/
def membersWithin : Nat → Nat → Bool → Reader (List (String × Json))
  | 0, _, _ => fail .ended
  | fuel + 1, room, isFirst => do
    match ← key? isFirst with
    | none => return []
    | some key =>
      colon
      let value ← documentWithin fuel room
      let rest ← membersWithin fuel room false
      return (key, value) :: rest

end

/-- A document with room for so many levels.  Each call of a reader of its parts takes a
token or is followed by one that does. -/
def document (room : Nat) : Reader Json := do
  documentWithin (2 * (← get).length + 2) room

/-- Run a reader on a whole text: after it there may be blanks only. -/
def Reader.runOn {α : Type} (reader : Reader α) (s : String) : Except Fault α := do
  match ← reader.run (tokens s) with
  | (a, []) => .ok a
  | (_, _ :: _) => .error .malformed

/-- The document of a whole text. -/
def parse? (room : Nat) (s : String) : Except Fault Json :=
  (document room).runOn s

end Trampoline.Json
