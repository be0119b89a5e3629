import Trampoline.Association
import Trampoline.Settings.Environment
import Trampoline.Text.Alphanumeric
import Trampoline.Text.Blank

/-!
# Environment files

A file of environment variables, one to a line: a name, an equals sign and a value,
which may be quoted and may refer to other variables.  `export` may stand in front, and
a comment may stand at the end.  A quoted value may go on over several lines.

Reading stops at the first line that is malformed.  A variable that is set already
keeps its value.

Main definitions:

- `logicalLines`: the lines of a file, where quoted values do not end a line.
- `readLine`: the variable that a line sets.
- `extend`: an environment with the variables of a file.
-/

namespace Trampoline.EnvironmentFile

open Association
open Settings (Variables)

/-! ## Lines -/

/-- Where the end of a text stands with regard to quotes. -/
inductive Quotation where
  /-- In no quotes. -/
  | outside
  /-- In no quotes, after a blank, where a comment may begin. -/
  | afterBlank
  /-- After a backslash. -/
  | escape
  | single
  | singleEscape
  | double
  | doubleEscape
  /-- In a comment. -/
  | comment
deriving DecidableEq

/-- Where the text stands after one more character. -/
def Quotation.after (q : Quotation) (c : Char) : Quotation :=
  match q with
  | outside =>
    if c = '\\' then escape
    else if c = '"' then double
    else if c = '\'' then single
    else if Text.isBlank c && c ≠ '\n' && c ≠ '\r' then afterBlank
    else outside
  | afterBlank =>
    if c = '#' then comment
    else if c = '\\' then escape
    else if c = '"' then double
    else if c = '\'' then single
    else outside
  | escape => outside
  | single => if c = '\\' then singleEscape else if c = '\'' then outside else single
  | singleEscape => single
  | double => if c = '\\' then doubleEscape else if c = '"' then outside else double
  | doubleEscape => double
  | comment => comment

/-- Cut a text after its line ends. -/
def physicalLines : List Char → List (List Char)
  | [] => []
  | c :: rest =>
    if c = '\n' then [c] :: physicalLines rest
    else
      match physicalLines rest with
      | [] => [[c]]
      | first :: others => (c :: first) :: others

/-- A line up to its comment, of which the start stands with regard to quotes as given.
Where the end stands comes with it. -/
def scan (q : Quotation) : List Char → List Char × Quotation
  | [] => ([], q)
  | c :: rest =>
    if q.after c = .comment then ([], .comment)
    else
      let (kept, last) := scan (q.after c) rest
      (c :: kept, last)

/-- A line without its end. -/
def dropLineEnd (cs : List Char) : List Char :=
  match cs.reverse with
  | '\n' :: '\r' :: rest => rest.reverse
  | '\n' :: rest => rest.reverse
  | _ => cs

/-- Join the lines that a value goes on over.  `before` is what has been read of the
line so far.  A line that never ends is malformed, which is the last thing to say. -/
def joinLines (before : List Char) (q : Quotation) : List (List Char) → List (Option (List Char))
  | [] => if q = .outside then [] else [none]
  | cs :: rest =>
    if (Text.trimStart (before ++ cs)).head? = some '#' then
      some [] :: joinLines [] .outside rest
    else
      match scan q cs with
      | (_, .outside) => some (dropLineEnd (before ++ cs)) :: joinLines [] .outside rest
      | (kept, .comment) => some (before ++ kept) :: joinLines [] .outside rest
      | (_, q) => joinLines (before ++ cs) q rest

/-- The lines of a file; nothing stands for one that is malformed. -/
def logicalLines (cs : List Char) : List (Option (List Char)) :=
  joinLines [] .outside (physicalLines cs)

/-! ## Values -/

/-- How a reference to a variable is written. -/
inductive Reference where
  /-- After a dollar sign, up to what is no letter and no digit. -/
  | bare
  /-- In braces. -/
  | braced
deriving DecidableEq

/-- The state of reading a value. -/
structure Reading where
  /-- What has been read, the latest first. -/
  output : List Char := []
  single : Bool := false
  double : Bool := false
  escaped : Bool := false
  /-- The value has ended. -/
  ended : Bool := false
  reference : Option Reference := none
  /-- The name in a reference, the latest first. -/
  name : List Char := []

/-- Put the value of the variable that is referred to into the output.  One that is not
set has none. -/
def Reading.resolve (valueOf : String → Option String) (r : Reading) : Reading :=
  let value := (valueOf (String.ofList r.name.reverse)).getD ""
  { r with output := value.toList.reverse ++ r.output, name := [] }

/-- Read a character of a reference. -/
def Reading.refer (valueOf : String → Option String) (r : Reading) (reference : Reference)
    (c : Char) : Reading :=
  if Text.isAlphanumeric c then { r with name := c :: r.name }
  else
    match reference with
    | .bare =>
      if c = '\x7b' && r.name.isEmpty then { r with reference := some .braced }
      else
        let r := r.resolve valueOf
        if c = '$' then { r with reference := some .bare }
        else { r with reference := none, output := c :: r.output }
    | .braced =>
      if c = '\x7d' then { r.resolve valueOf with reference := none }
      else { r with name := c :: r.name }

/-- The character that a backslash and a character stand for. -/
def escaped? (c : Char) : Option Char :=
  match c with
  | '\\' | '\'' | '"' | ' ' | '$' => some c
  | 'n' => some '\n'
  | _ => none

/-- Read a character of a value.  The result is nothing if it is malformed. -/
def Reading.read (valueOf : String → Option String) (r : Reading) (c : Char) :
    Option Reading :=
  if r.escaped then
    (escaped? c).map fun x => { r with escaped := false, output := x :: r.output }
  else if r.single then
    some (if c = '\'' then { r with single := false } else { r with output := c :: r.output })
  else
    match r.reference with
    | some reference => some (r.refer valueOf reference c)
    | none =>
      some <|
        if c = '$' then { r with reference := some .bare }
        else if c = '\\' then { r with escaped := true }
        else if r.double then
          if c = '"' then { r with double := false } else { r with output := c :: r.output }
        else if c = '\'' then { r with single := true }
        else if c = '"' then { r with double := true }
        else if c = ' ' || c = '\t' then { r with ended := true }
        else { r with output := c :: r.output }

/-- Read the characters of a value.  After its end only blanks and a comment may
follow. -/
def readValue (valueOf : String → Option String) (r : Reading) : List Char → Option String
  | [] =>
    if r.single || r.double || r.reference = some .braced then none
    else some (String.ofList (r.resolve valueOf).output.reverse)
  | c :: rest =>
    if r.ended then
      if c = ' ' || c = '\t' then readValue valueOf r rest
      else if c = '#' then readValue valueOf r []
      else none
    else
      match r.read valueOf c with
      | some r => readValue valueOf r rest
      | none => none

/-- A name in front, and what follows it and the white space behind it. -/
def name? (cs : List Char) : Option (String × List Char) :=
  match cs with
  | c :: _ =>
    if c.isAlpha || c = '_' then
      let isNameChar (c : Char) : Bool := c.isAlphanum || c = '_' || c = '.'
      some (String.ofList (cs.takeWhile isNameChar), Text.trimStart (cs.dropWhile isNameChar))
    else none
  | [] => none

/-- The name that a line sets a variable of, and what follows the equals sign. -/
def target? (cs : List Char) : Option (String × List Char) := do
  match ← name? cs with
  | (name, '=' :: rest) => return (name, rest)
  | ("export", rest) =>
    match ← name? rest with
    | (name, '=' :: rest) => return (name, rest)
    | _ => none
  | _ => none

/-- The variable that a line sets: nothing if the line is malformed, and no variable if
it is empty or a comment. -/
def readLine (valueOf : String → Option String) (line : List Char) :
    Option (Option (String × String)) :=
  let cs := Text.trimStart (Text.trimEnd line)
  if cs.isEmpty || cs.head? = some '#' then some none
  else do
    let (name, rest) ← target? cs
    let value := Text.trimStart rest
    if value.isEmpty || value.head? = some '#' then return some (name, "")
    else return some (name, ← readValue valueOf {} value)

/-! ## Files -/

/-- The environment after lines.  `own` holds the variables of the lines before, also
those that were set already. -/
def readLines (env own : Variables) : List (Option (List Char)) → Variables
  | [] => env
  | none :: _ => env
  | some line :: rest =>
    let valueOf (name : String) : Option String :=
      (env.lookup name).or (own.lookup name)
    match readLine valueOf line with
    | none => env
    | some none => readLines env own rest
    | some (some (name, value)) =>
      let own := put name value own
      match env.lookup name with
      | some _ => readLines env own rest
      | none => readLines (put name value env) own rest

/-- An environment with the variables of a file. -/
def extend (env : Variables) (file : String) : Variables :=
  readLines env [] (logicalLines (Text.skipMark file.toList))

end Trampoline.EnvironmentFile
