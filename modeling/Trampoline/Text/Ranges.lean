/-!
# Ranges of characters

Sets of characters as tables of ranges in ascending order, which are looked up by
halving.

Main definitions:

- `Ranges`: the tables.
- `Ranges.has`: whether a character is in one of the ranges.
-/

namespace Trampoline.Text

/-- The first and last code points of ranges of characters, in ascending order. -/
abbrev Ranges :=
  Array (Nat × Nat)

namespace Ranges

/-- Look a code point up in a part of a table, halving the part at each step. -/
def hasWithin (ranges : Ranges) (code : Nat) : Nat → Nat → Nat → Bool
  | 0, _, _ => false
  | fuel + 1, low, high =>
    if low < high then
      let middle := (low + high) / 2
      match ranges[middle]? with
      | some (first, last) =>
        if code < first then hasWithin ranges code fuel low middle
        else if last < code then hasWithin ranges code fuel (middle + 1) high
        else true
      | none => false
    else false

/-- Whether a character is in one of the ranges.  The table is halved at each step, so as
many steps as its size has bits are enough. -/
def has (ranges : Ranges) (c : Char) : Bool :=
  hasWithin ranges c.toNat 16 0 ranges.size

end Ranges

end Trampoline.Text
