/-!
# Lower case

Lower case as far as it can turn a character into a Latin letter: the Latin capitals
and the Kelvin sign.  All other characters stay.
-/

namespace Trampoline.Text

/-- A character in lower case. -/
def lowerChar (c : Char) : Char :=
  if c = '\u212a' then 'k' else c.toLower

/-- A text in lower case. -/
def lower (s : String) : String :=
  String.ofList (s.toList.map lowerChar)

end Trampoline.Text
