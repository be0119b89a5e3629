import Trampoline.Toml.Basic

/-!
# Lines of a document

What a TOML document says line by line, before it is known which tables come of it.
-/

namespace Trampoline.Toml

/-- A dotted key: the tables on the way, and the key in the last of them. -/
structure Path where
  tables : List String
  key : String
deriving DecidableEq

/-- All keys of a path. -/
def Path.keys (path : Path) : List String :=
  path.tables ++ [path.key]

/-- A value for a dotted key. -/
structure Assignment where
  path : Path
  value : Toml

/-- A line of a document. -/
inductive Line where
  /-- The head of a table. -/
  | table (path : Path)
  /-- The head of one more table in an array. -/
  | element (path : Path)
  /-- A value in the table of the head before. -/
  | assignment (a : Assignment)

end Trampoline.Toml
