import Trampoline.Decimal.Reader
import Trampoline.Settings.Tree

/-!
# Settings from the environment

An environment variable gives a setting if its name has the prefix of the program; two
underscores in the rest of the name stand between the parts of a dotted key.  Case
does not matter in names.

Main definitions:

- `Variables`: the environment.
- `Variables.entries`: the settings that it gives.
-/

namespace Trampoline.Settings

/-- Environment variables with their values. -/
abbrev Variables :=
  List (String × String)

namespace Variables

/-- What the names of variables that give settings begin with, in lower case. -/
def namePrefix : List Char :=
  ['r', 'u', 'n', 'l', 'o', 'o', 'p', '_']

/-- A name with each two underscores made a point. -/
def dotted : List Char → List Char
  | [] => []
  | '_' :: '_' :: rest => '.' :: dotted rest
  | c :: rest => c :: dotted rest

/-- The dotted key that a variable gives a setting for. -/
def key? (name : String) : Option String :=
  let cs := (Text.lower name).toList
  if namePrefix.isPrefixOf cs then some (String.ofList (dotted (cs.drop namePrefix.length)))
  else none

/-- The integer of 64 bits that a text stands for. -/
def integer? (s : String) : Option Int :=
  let (negative, digits) := Decimal.spanSign s.toList
  if digits.isEmpty || !digits.all Char.isDigit then none
  else
    let magnitude : Int := Text.natOfDigits digits
    let n := if negative then -magnitude else magnitude
    if Toml.minInteger ≤ n ∧ n ≤ Toml.maxInteger then some n else none

/-- The value of a variable: a truth value, an integer or a float if it reads as one,
else a text. -/
def value (s : String) : Tree :=
  match Text.lower s with
  | "true" => .bool true
  | "false" => .bool false
  | _ =>
    match integer? s with
    | some n => .integer n
    | none =>
      match Decimal.parseFloat? s with
      | some x => .float x
      | none => .text s

/-- The settings that variables give. -/
def entries (env : Variables) : List (String × Tree) :=
  env.filterMap fun (name, s) => (key? name).map fun key => (key, value s)

end Variables

end Trampoline.Settings
