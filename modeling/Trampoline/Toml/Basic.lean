/-!
# TOML documents

The tree of a TOML document.  A date or a time is kept as its canonical text.
-/

namespace Trampoline

/-- A value of a TOML document. -/
inductive Toml where
  | text (s : String)
  | integer (n : Int)
  | float (x : Float)
  | bool (b : Bool)
  /-- A date, a time or both. -/
  | moment (s : String)
  | array (items : List Toml)
  | table (members : List (String × Toml))

namespace Toml

/-- The largest integer of a document. -/
def maxInteger : Int :=
  (Nat.pow 2 63 : Int) - 1

/-- The smallest integer of a document. -/
def minInteger : Int :=
  -(Nat.pow 2 63 : Int)

end Toml

end Trampoline
