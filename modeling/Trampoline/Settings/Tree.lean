import Trampoline.Association
import Trampoline.Text.Blank
import Trampoline.Text.Case
import Trampoline.Text.Digits
import Trampoline.Toml.Moment

/-!
# Layers of settings

The tree in which the sources of settings are laid over each other, key by key.  Keys
are kept in lower case.  A source that comes later replaces single values; its tables
are merged with the tables that are there.

Main definitions:

- `Tree`: the tree.
- `Tree.ofToml?`: the tree of a document.
- `Tree.assign`: lay a value over the tree under one key.
- `Way`: the places within a tree that a dotted key leads to.
- `Tree.overlay`: lay a value over the tree under a dotted key.
-/

namespace Trampoline.Settings

open Association

/-- A tree of settings. -/
inductive Tree where
  | missing
  | bool (b : Bool)
  | integer (n : Int)
  | float (x : Float)
  | text (s : String)
  | array (items : List Tree)
  | table (members : List (String × Tree))

namespace Tree

/-- The tree without any setting. -/
def empty : Tree :=
  table []

/-- The members of a tree; whatever is no table has none. -/
def members : Tree → List (String × Tree)
  | table members => members
  | _ => []

/-- The items of a tree; whatever is no array has none. -/
def items : Tree → List Tree
  | array items => items
  | _ => []

/-- What stands under a key. -/
def find? (t : Tree) (key : String) : Option Tree :=
  t.members.lookup key

/-- The first key of a table that stands for a date or a time. -/
def momentKey : String :=
  "$__toml_private_datetime"

/-- The tree of a date or a time that a table stands for.  It has to be given as a quoted
text. -/
def ofMoment? : Toml → Option Tree
  | .text s => (Toml.quotedMoment? s.toList).map fun canonical => text (String.ofList canonical)
  | _ => none

mutual

/-- The tree of a value of a document.  There is none if a table within the value should
stand for a date or a time and does not. -/
def ofToml? : Toml → Option Tree
  | .text s => some (text s)
  | .integer n => some (integer n)
  | .float x => some (float x)
  | .bool b => some (bool b)
  | .moment s => some (text s)
  | .array items => (ofItems? items).map array
  | .table [] => some empty
  | .table ((key, v) :: rest) =>
    if key = momentKey then ofMoment? v
    else do
      let first ← ofToml? v
      return table ((key, first) :: (← ofMembers? rest))

/-- The trees of the items of an array. -/
def ofItems? : List Toml → Option (List Tree)
  | [] => some []
  | v :: rest => do
    let first ← ofToml? v
    return first :: (← ofItems? rest)

/-- The trees of members of a table. -/
def ofMembers? : List (String × Toml) → Option (List (String × Tree))
  | [] => some []
  | (key, v) :: rest => do
    let first ← ofToml? v
    return (key, first) :: (← ofMembers? rest)

end

mutual

/-- Lay a value over a tree under one key.  The members of a table are laid over what
is there one by one, in the order in which they stand, anything else replaces it.

The order matters only to members whose keys differ in nothing but case: the last of them wins
here, where a loader without an order may let any of them win. -/
def assign (key : String) (value : Tree) (root : Tree) : Tree :=
  let name := Text.lower key
  match value with
  | table members =>
    table (put name (assignAll members ((root.find? name).getD empty)) root.members)
  | other => table (put name other root.members)

/-- Lay members over a tree one by one. -/
def assignAll : List (String × Tree) → Tree → Tree
  | [], root => root
  | (key, value) :: rest, root => assignAll rest (assign key value root)

end

/-- The items of an array with one of them changed.  An array that is too short is
filled up. -/
def changeItem (change : Tree → Tree) (place : Nat) (items : List Tree) : List Tree :=
  items.take place ++ List.replicate (place - items.length) missing ++
    change ((items[place]?).getD missing) :: items.drop (place + 1)

end Tree

/-- One step into a tree. -/
inductive Step where
  /-- To what stands under a key. -/
  | key (name : String)
  /-- To the item of an array that has so many items before it, or so many from it to
  the end. -/
  | item (fromEnd : Bool) (n : Nat)
deriving DecidableEq

namespace Tree

/-- The place of an item, if there can be one. -/
def placeOf (fromEnd : Bool) (n : Nat) (items : List Tree) : Option Nat :=
  if fromEnd then if n ≤ items.length then some (items.length - n) else none
  else some n

/-- Lay a value over the tree at the end of a way.  What is no table or no array on the
way becomes one. -/
def overlay (value : Tree) : List Step → Tree → Tree
  | [], _ => value
  | [.key name], root => assign name value root
  | .key name :: way, root =>
    let name := Text.lower name
    table (put name (overlay value way ((root.find? name).getD missing)) root.members)
  | .item fromEnd n :: way, root =>
    match placeOf fromEnd n root.items with
    | some place => array (changeItem (overlay value way) place root.items)
    | none => root

end Tree

/-! ## Dotted keys -/

/-- Whether a character may stand in a part of a dotted key. -/
def isKeyChar (c : Char) : Bool :=
  c.isAlphanum || c = ' ' || c = '_' || c = '-'

/-- The step to the item with a number.  A negative number counts from the end; no
number has more than 64 bits. -/
def itemStep? (negative : Bool) (n : Nat) : Option Step :=
  if n < Nat.pow 2 63 || (negative && n = Nat.pow 2 63) then some (.item (negative && n ≠ 0) n)
  else none

/-- The step in brackets that a text begins with, of which the bracket has been read,
and what follows it. -/
def bracketStep? (cs : List Char) : Option (Step × List Char) :=
  let (negative, cs) := match cs.dropWhile Text.isSpace with
    | '-' :: rest => (true, rest)
    | rest => (false, rest)
  let (digits, rest) := Text.spanDigits cs
  if digits.isEmpty then none
  else
    match rest.dropWhile Text.isSpace with
    | ']' :: rest => (itemStep? negative (Text.natOfDigits digits)).map (·, rest)
    | _ => none

/-- The steps after the first that a text stands for. -/
def stepsWithin : Nat → List Char → Option (List Step)
  | _, [] => some []
  | 0, _ => none
  | fuel + 1, '.' :: cs =>
    let name := cs.takeWhile isKeyChar
    if name.isEmpty then none
    else (stepsWithin fuel (cs.dropWhile isKeyChar)).map (.key (String.ofList name) :: ·)
  | fuel + 1, '[' :: cs => do
    let (step, rest) ← bracketStep? cs
    return step :: (← stepsWithin fuel rest)
  | _, _ => none

/-- The way that a dotted key stands for, if it is one. -/
def way? (key : String) : Option (List Step) :=
  let cs := key.toList
  let name := cs.takeWhile isKeyChar
  if name.isEmpty then none
  else
    (stepsWithin (cs.length + 1) (cs.dropWhile isKeyChar)).map
      (.key (String.ofList name) :: ·)

/-- Lay a value over a tree under a dotted key.  A key that is no dotted key stands for
itself. -/
def Tree.set (root : Tree) (key : String) (value : Tree) : Tree :=
  overlay value ((way? key).getD [.key key]) root

/-- Lay the members of a source over a tree, one after the other. -/
def Tree.setAll : List (String × Tree) → Tree → Tree
  | [], root => root
  | (key, value) :: rest, root => setAll rest (root.set key value)

end Trampoline.Settings
