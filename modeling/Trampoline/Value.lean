/-!
# Values

The values that a run passes from frame to frame: plain data in the style of a
document format, with one extra kind that carries a structured error.

Main definitions:

- `ErrorInfo`: a code and a message.
- `Value`: null, booleans, numbers, text, lists, objects and errors.
- `Value.beq`: equality of values, in which a number that is not equal to itself
  makes every value around it unequal as well.
-/

namespace Trampoline

/-- A structured error: a machine-readable code and a message for people. -/
structure ErrorInfo where
  code : String
  message : String
deriving DecidableEq, Inhabited

/-- A value that travels through a run.

The members of an object are kept in ascending order of their keys, each key once;
`Value.ofMembers` brings any list of members into that form. -/
inductive Value where
  | null
  | bool (b : Bool)
  | number (n : Float)
  | text (s : String)
  | list (items : List Value)
  | object (members : List (String × Value))
  | error (info : ErrorInfo)
deriving Inhabited

namespace Value

/-- The name of the kind of a value, as error messages show it. -/
def typeName : Value → String
  | null => "null"
  | bool _ => "bool"
  | number _ => "number"
  | text _ => "string"
  | list _ => "list"
  | object _ => "object"
  | error _ => "error"

/-- The number in a value, if it is one. -/
def asNumber? : Value → Option Float
  | number n => some n
  | _ => none

@[simp]
theorem asNumber?_number (n : Float) : (number n).asNumber? = some n :=
  rfl

/-- Whether a value is a number. -/
def isNumber (v : Value) : Bool :=
  v.asNumber?.isSome

mutual

/-- Equality of values.  Numbers are compared as numbers: the two zeros are equal
and an undefined number differs from itself. -/
def beq : Value → Value → Bool
  | null, null => true
  | bool a, bool b => a == b
  | number a, number b => a == b
  | text a, text b => a == b
  | list as, list bs => beqItems as bs
  | object as, object bs => beqMembers as bs
  | error a, error b => a == b
  | _, _ => false

/-- Equality of lists of values, item by item. -/
def beqItems : List Value → List Value → Bool
  | [], [] => true
  | a :: as, b :: bs => beq a b && beqItems as bs
  | _, _ => false

/-- Equality of members, key by key and value by value. -/
def beqMembers : List (String × Value) → List (String × Value) → Bool
  | [], [] => true
  | (k, a) :: as, (l, b) :: bs => k == l && beq a b && beqMembers as bs
  | _, _ => false

end

instance : BEq Value :=
  ⟨beq⟩

/-- Put one member into an ordered list of members.  An equal key is replaced. -/
def insertMember (key : String) (v : Value) : List (String × Value) → List (String × Value)
  | [] => [(key, v)]
  | (k, w) :: rest =>
    if key < k then (key, v) :: (k, w) :: rest
    else if key = k then (key, v) :: rest
    else (k, w) :: insertMember key v rest

/-- The object with the given members.  Of members with one key the last counts. -/
def ofMembers (members : List (String × Value)) : Value :=
  object (members.foldl (fun acc (k, v) => insertMember k v acc) [])

end Value

end Trampoline
