import Trampoline.Association
import Trampoline.Toml.Line

/-!
# Tables of a document

The tables that lines make.  Each table is defined in one place: by a head, or by
dotted keys of one table.  A table that only stands on the way to others may get its
own head later, once.

Main definitions:

- `Node`: a table under construction.
- `ofLines?`: the members of a whole document.
- `ofAssignments?`: the members of a table that is written within braces.
-/

namespace Trampoline.Toml

open Association

/-- How a table has come about. -/
inductive Origin where
  /-- It has a head of its own. -/
  | head
  /-- It stands on the way to the table of a head. -/
  | passage
  /-- It stands on the way to a dotted key. -/
  | dotted
deriving DecidableEq

/-- What stands under a key of a table under construction. -/
inductive Node where
  | value (v : Toml)
  | table (origin : Origin) (members : List (String × Node))
  /-- An array of tables with heads, the latest first. -/
  | tables (items : List (List (String × Node)))

/-- The members of a table under construction. -/
abbrev Members :=
  List (String × Node)

namespace Node

mutual

/-- The finished value. -/
def finish : Node → Toml
  | value v => v
  | table _ members => .table (finishMembers members)
  | tables items => .array (finishItems items [])

/-- The finished members. -/
def finishMembers : Members → List (String × Toml)
  | [] => []
  | (key, node) :: rest => (key, finish node) :: finishMembers rest

/-- The finished tables of an array, the latest last. -/
def finishItems : List Members → List Toml → List Toml
  | [], later => later
  | members :: earlier, later => finishItems earlier (.table (finishMembers members) :: later)

end

end Node

/-- Change the table at the end of a way.  Tables that are missing on the way are made;
the last table of an array stands for the array.  Dotted keys do not lead into a
table with a head. -/
def changeAt (dotted : Bool) (change : Origin → Members → Option Members) :
    List String → Origin → Members → Option Members
  | [], origin, members => change origin members
  | key :: way, _, members =>
    let made := if dotted then .dotted else .passage
    match members.lookup key with
    | none => do
      let inner ← changeAt dotted change way made []
      return put key (.table made inner) members
    | some (.value _) => none
    | some (.table origin inner) =>
      if dotted && origin = .head then none
      else do
        let inner ← changeAt dotted change way origin inner
        return put key (.table origin inner) members
    | some (.tables (inner :: earlier)) => do
      let inner ← changeAt dotted change way .head inner
      return put key (.tables (inner :: earlier)) members
    | some (.tables []) => none

/-- Put a value under a new key.  A dotted key belongs to a table that dotted keys
have made, any other to a table that they have not. -/
def assignHere (dotted : Bool) (key : String) (v : Toml) (origin : Origin)
    (members : Members) : Option Members :=
  if decide (origin = .dotted) ≠ dotted then none
  else
    match members.lookup key with
    | some _ => none
    | none => some (put key (.value v) members)

/-- Put the value of an assignment into a table. -/
def Assignment.apply (a : Assignment) (origin : Origin) (members : Members) : Option Members :=
  changeAt true (assignHere (!a.path.tables.isEmpty) a.path.key a.value) a.path.tables
    origin members

/-- Give a table its head, and its place with it.  A table that is there already must
have stood on the way to others only. -/
def openTable (key : String) (_ : Origin) (members : Members) : Option Members :=
  match members.lookup key with
  | none => some (put key (.table .head []) members)
  | some (.table .passage inner) => some (put key (.table .head inner) (drop key members))
  | some _ => none

/-- Add a table to an array of tables. -/
def openElement (key : String) (_ : Origin) (members : Members) : Option Members :=
  match members.lookup key with
  | none => some (put key (.tables [[]]) members)
  | some (.tables items) => some (put key (.tables ([] :: items)) members)
  | some _ => none

/-- Do what a line says.  `head` is the way to the table of the head before, and the
result has the way to the table of the head after. -/
def Line.apply (line : Line) (head : List String) (document : Members) :
    Option (List String × Members) :=
  match line with
  | .table path => do
    return (path.keys, ← changeAt false (openTable path.key) path.tables .head document)
  | .element path => do
    return (path.keys, ← changeAt false (openElement path.key) path.tables .head document)
  | .assignment a => do
    return (head, ← changeAt false a.apply head .head document)

/-- Do what lines say, one after the other. -/
def applyLines : List Line → List String → Members → Option Members
  | [], _, document => some document
  | line :: rest, head, document => do
    let (head, document) ← line.apply head document
    applyLines rest head document

/-- The members of the document that lines make. -/
def ofLines? (lines : List Line) : Option (List (String × Toml)) :=
  (applyLines lines [] []).map Node.finishMembers

/-- The members of the table that assignments make. -/
def ofAssignments? (assignments : List Assignment) : Option (List (String × Toml)) :=
  (assignments.foldlM (fun members (a : Assignment) => a.apply .head members) []).map Node.finishMembers

end Trampoline.Toml
