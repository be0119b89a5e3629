import Trampoline.Failure
import Trampoline.Json.Reader

/-!
# Values as JSON

A value is written as an object with a tag, `t`, that names its kind, and a content,
`v`, which null alone has none of.  When it is read, the two members may come in
either order and among others, or as an array of two items.  If the tag comes first,
the content is read as the tag demands; else it is read as a document and looked at
when the tag is known.  Documents are looked at a little more generously than texts are
read: in an array a tag may be given by its number.

Main definitions:

- `Value.toJson`, `Value.encode`: writing.
- `Value.decode`: reading.
-/

namespace Trampoline.Value

/-! ## Writing -/

/-- An error as a document. -/
def errorToJson (info : ErrorInfo) : Json :=
  .object [("code", .text info.code), ("message", .text info.message)]

/-- An object with a tag and a content. -/
def tagged (tag : String) (content : Json) : Json :=
  .object [("t", .text tag), ("v", content)]

mutual

/-- A value as a document. -/
def toJson : Value → Json
  | null => .object [("t", .text "Null")]
  | bool b => tagged "Bool" (.bool b)
  | number n => tagged "Num" (.number (.real n))
  | text s => tagged "Str" (.text s)
  | list items => tagged "List" (.array (itemsToJson items))
  | object members => tagged "Obj" (.object (membersToJson members))
  | error info => tagged "Error" (errorToJson info)

/-- The items of a list as documents. -/
def itemsToJson : List Value → List Json
  | [] => []
  | v :: rest => toJson v :: itemsToJson rest

/-- The members of an object as documents. -/
def membersToJson : List (String × Value) → List (String × Json)
  | [] => []
  | (key, v) :: rest => (key, toJson v) :: membersToJson rest

end

/-- The text of a value. -/
def encode (v : Value) : String :=
  v.toJson.render

/-! ## Tags -/

/-- The tags of values. -/
inductive Tag where
  | null
  | bool
  | number
  | text
  | list
  | object
  | error
deriving DecidableEq

/-- The tag with a name. -/
def Tag.ofName? (name : String) : Option Tag :=
  match name with
  | "Null" => some .null
  | "Bool" => some .bool
  | "Num" => some .number
  | "Str" => some .text
  | "List" => some .list
  | "Obj" => some .object
  | "Error" => some .error
  | _ => none

/-- The tag with a name; any other name has the wrong shape. -/
def Tag.ofName (name : String) : Except Json.Fault Tag :=
  match Tag.ofName? name with
  | some tag => .ok tag
  | none => .error .shape

/-- All tags, each at the place that its number says. -/
def Tag.all : List Tag :=
  [.null, .bool, .number, .text, .list, .object, .error]

/-- The tag with a number; any other number has the wrong shape. -/
def Tag.ofNumber (n : Nat) : Except Json.Fault Tag :=
  match Tag.all[n]? with
  | some tag => .ok tag
  | none => .error .shape

/-! ## Reading documents -/

/-- Refuse a document of the wrong shape. -/
def wrongShape {α : Type} : Except Json.Fault α :=
  .error .shape

/-- The tag that a member of an object stands for: its name, or the name as the only key
of an object whose member is null or has no members itself. -/
def tagOfMember : Json → Except Json.Fault Tag
  | .text name => Tag.ofName name
  | .object [(name, .null)] => Tag.ofName name
  | .object [(name, .object [])] => Tag.ofName name
  | _ => wrongShape

/-- The tag that the first item of an array stands for: its name or its number. -/
def tagOfItem : Json → Except Json.Fault Tag
  | .text name => Tag.ofName name
  | .number (.natural n) => Tag.ofNumber n
  | _ => wrongShape

/-- The code and the message among the members of an object.  None may come twice. -/
def errorMembersOfJson :
    List (String × Json) → Option String → Option String → Except Json.Fault ErrorInfo
  | [], some code, some message => .ok ⟨code, message⟩
  | [], _, _ => wrongShape
  | (key, j) :: rest, code, message =>
    if key = "code" then
      match j, code with
      | .text s, none => errorMembersOfJson rest (some s) message
      | _, _ => wrongShape
    else if key = "message" then
      match j, message with
      | .text s, none => errorMembersOfJson rest code (some s)
      | _, _ => wrongShape
    else errorMembersOfJson rest code message

/-- An error from a document. -/
def errorOfJson : Json → Except Json.Fault ErrorInfo
  | .array [.text code, .text message] => .ok ⟨code, message⟩
  | .object members => errorMembersOfJson members none none
  | _ => wrongShape

mutual

/-- A value from a document. -/
def ofJson : Json → Except Json.Fault Value
  | .array [tag, content] => do ofContent content (← tagOfItem tag)
  | .object members => ofTagged members none none
  | _ => wrongShape

/-- The value with a content and a tag. -/
def ofContent : Json → Tag → Except Json.Fault Value
  | .null, .null => .ok null
  | .bool b, .bool => .ok (bool b)
  | .number n, .number => .ok (number n.toFloat)
  | .text s, .text => .ok (text s)
  | .array items, .list => do return list (← ofItems items)
  | .object members, .object => do return ofMembers (← ofEntries members)
  | j, .error => do return error (← errorOfJson j)
  | _, _ => wrongShape

/-- The value that the members of an object give.  The tag and the content may come in
either order, among others, and neither twice; null alone may have no content. -/
def ofTagged : List (String × Json) → Option Tag → Option (Tag → Except Json.Fault Value) →
    Except Json.Fault Value
  | [], some tag, some content => content tag
  | [], some .null, none => .ok null
  | [], _, _ => wrongShape
  | (key, j) :: rest, tag, content =>
    if key = "t" then
      match tag with
      | none => do ofTagged rest (some (← tagOfMember j)) content
      | some _ => wrongShape
    else if key = "v" then
      match content with
      | none => ofTagged rest tag (some fun tag => ofContent j tag)
      | some _ => wrongShape
    else ofTagged rest tag content

/-- Values from the items of an array. -/
def ofItems : List Json → Except Json.Fault (List Value)
  | [] => .ok []
  | j :: rest => do
    let v ← ofJson j
    return v :: (← ofItems rest)

/-- Values from the members of an object. -/
def ofEntries : List (String × Json) → Except Json.Fault (List (String × Value))
  | [] => .ok []
  | (key, j) :: rest => do
    let v ← ofJson j
    return (key, v) :: (← ofEntries rest)

end

/-! ## Reading texts -/

open Json Json.Reader

/-- The tag in front: its name, or the name as the only key of an object whose member is
null. -/
def readTag (room : Nat) : Reader Tag := do
  match ← peek with
  | none => fail .ended
  | some (.text _ _) => do Tag.ofName (← Reader.text)
  | some .openBrace => do
    let _ ← enter room
    let tag ← Tag.ofName (← Reader.name)
    colon
    match ← peek with
    | some .null => advance
    | _ => refuse
    endObject
    return tag
  | some _ => fail .malformed

/-- A key of a tagged object that means something. -/
inductive Mark where
  | tag
  | content

/-- The next key that means something, past all others and their values. -/
def nextMark : Nat → Bool → Reader (Option Mark)
  | 0, _ => fail .ended
  | fuel + 1, isFirst => do
    match ← key? isFirst with
    | none => return none
    | some "t" => return some .tag
    | some "v" => return some .content
    | some _ => do
      colon
      skip
      nextMark fuel false

/-- The next key that means something.  Each key and each value takes a token. -/
def mark? (isFirst : Bool) : Reader (Option Mark) := do
  nextMark ((← get).length + 1) isFirst

/-- Refuse any further key that means something. -/
def noMark : Reader Unit := do
  match ← mark? false with
  | none => return ()
  | some _ => fail .shape

/-- The code and the message of an error among the members of an object. -/
def readErrorMembers : Nat → Bool → Option String → Option String → Reader ErrorInfo
  | 0, _, _, _ => fail .ended
  | fuel + 1, isFirst, code, message => do
    match ← key? isFirst with
    | none =>
      match code, message with
      | some code, some message => return ⟨code, message⟩
      | _, _ => fail .shape
    | some "code" => do
      if code.isSome then fail .shape
      colon
      let s ← Reader.text
      readErrorMembers fuel false (some s) message
    | some "message" => do
      if message.isSome then fail .shape
      colon
      let s ← Reader.text
      readErrorMembers fuel false code (some s)
    | some _ => do
      colon
      skip
      readErrorMembers fuel false code message

/-- An error, as an object or as an array of its code and its message. -/
def readError (room : Nat) : Reader ErrorInfo := do
  match ← peek with
  | some .openBracket => do
    let _ ← enter room
    if !(← hasItem true) then fail .shape
    let code ← Reader.text
    if !(← hasItem false) then fail .shape
    let message ← Reader.text
    endArray
    return ⟨code, message⟩
  | some .openBrace => do
    let _ ← enter room
    let info ← readErrorMembers ((← get).length + 1) true none none
    endObject
    return info
  | _ => refuse

mutual

/-- A value in front. -/
def readWithin : Nat → Nat → Reader Value
  | 0, _ => fail .ended
  | fuel + 1, room => do
    match ← peek with
    | some .openBracket => do
      let room ← enter room
      let v ← readPair fuel room
      endArray
      return v
    | some .openBrace => do
      let room ← enter room
      let v ← readTagged fuel room
      endObject
      return v
    | _ => refuse

/-- The tag and the content of a value that is written as an array. -/
def readPair : Nat → Nat → Reader Value
  | 0, _ => fail .ended
  | fuel + 1, room => do
    if !(← hasItem true) then fail .shape
    let tag ← Tag.ofName (← Reader.text)
    if !(← hasItem false) then fail .shape
    readContent fuel room tag

/-- The members of a value that is written as an object. -/
def readTagged : Nat → Nat → Reader Value
  | 0, _ => fail .ended
  | fuel + 1, room => do
    match ← mark? true with
    | none => fail .shape
    | some .tag => do
      colon
      let tag ← readTag room
      match ← mark? false with
      | some .tag => fail .shape
      | some .content => do
        colon
        let v ← readContent fuel room tag
        noMark
        return v
      | none => if tag = .null then return null else fail .shape
    | some .content => do
      colon
      let j ← Json.document room
      match ← mark? false with
      | some .tag => do
        colon
        let tag ← readTag room
        let v ← ofContent j tag
        noMark
        return v
      | _ => fail .shape

/-- The content for a tag. -/
def readContent : Nat → Nat → Tag → Reader Value
  | 0, _, _ => fail .ended
  | fuel + 1, room, tag => do
    match tag, ← peek with
    | .null, some .null => do
      advance
      return null
    | .null, some .openBracket | .null, some .openBrace => do
      let _ ← enter room
      fail .shape
    | .bool, some (.bool b) => do
      advance
      return bool b
    | .number, some (.number (.ok n) _) => do
      advance
      return number n.toFloat
    | .text, _ => return text (← Reader.text)
    | .list, some .openBracket => do
      let room ← enter room
      let items ← readItems fuel room true
      endArray
      return list items
    | .object, some .openBrace => do
      let room ← enter room
      let members ← readEntries fuel room true
      endObject
      return ofMembers members
    | .error, _ => return error (← readError room)
    | _, _ => refuse

/-- The items of a list. -/
def readItems : Nat → Nat → Bool → Reader (List Value)
  | 0, _, _ => fail .ended
  | fuel + 1, room, isFirst => do
    if ← hasItem isFirst then
      let v ← readWithin fuel room
      let rest ← readItems fuel room false
      return v :: rest
    else return []

/-- The members of an object. -/
def readEntries : Nat → Nat → Bool → Reader (List (String × Value))
  | 0, _, _ => fail .ended
  | fuel + 1, room, isFirst => do
    match ← key? isFirst with
    | none => return []
    | some key => do
      colon
      let v ← readWithin fuel room
      let rest ← readEntries fuel room false
      return (key, v) :: rest

end

/-- The value of a whole text.  Between two tokens that are taken there are at most three
calls of a reader of a part. -/
def decode (s : String) : Except Json.Fault Value :=
  Json.Reader.runOn (do readWithin (4 * (← get).length + 4) levelLimit) s

end Trampoline.Value
