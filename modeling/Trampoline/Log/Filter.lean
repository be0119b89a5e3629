import Trampoline.Decimal.Reader
import Trampoline.Log.Pattern.Fault
import Trampoline.Text.Blank

/-!
# Filters of the log

A filter is a list of directives between commas.  A directive names a level, or a
target, a span with its fields, or both, and a level for them.  What a filter lets
through is not told here, only what is wrong with its directives.

Main definitions:

- `Directive.fault?`: what is wrong with a directive.
- `Filter.complaints`: what is said about a filter.
-/

namespace Trampoline.Log

/-! ## Directives -/

/-- What is wrong with a directive. -/
inductive DirectiveFault where
  | malformed
  /-- The level is none. -/
  | level
  /-- The value of a field is no pattern. -/
  | field (fault : Pattern.Fault)
deriving DecidableEq

/-- The text about a text that is no pattern. -/
def Pattern.Fault.message : Pattern.Fault → String
  | malformed => "error building NFA"
  | wordEdge => "unsupported regex feature for DFAs: cannot build DFAs for regexes with " ++
      "Unicode word boundaries; switch to ASCII word boundaries, or heuristically enable " ++
      "Unicode word boundaries or use a different regex engine"

/-- The text about a directive. -/
def DirectiveFault.message : DirectiveFault → String
  | malformed => "invalid filter directive"
  | level => "error parsing level filter: expected one of \"off\", \"error\", \"warn\", " ++
      "\"info\", \"debug\", \"trace\", or a number 0-5"
  | field fault => "invalid field filter: " ++ fault.message

namespace Directive

/-- The names of the levels. -/
def levelNames : List String :=
  ["off", "error", "warn", "info", "debug", "trace"]

/-- Whether a text is a level: a name in any case, or a number. -/
def isLevel (cs : List Char) : Bool :=
  levelNames.contains (String.ofList (cs.map Char.toLower)) ||
    match Text.count? (String.ofList cs) with
    | some n => n < levelNames.length
    | none => false

/-- What is wrong with a level.  No text at all stands for the lowest one. -/
def levelFault? (cs : List Char) : Option DirectiveFault :=
  if cs.isEmpty || isLevel cs then none else some .level

/-- What is wrong with a field, which has a name and may have a value.  A value is a
number or a pattern. -/
def fieldFault? (cs : List Char) : Option DirectiveFault :=
  if cs.isEmpty then some .malformed
  else
    match cs.dropWhile (· ≠ '=') with
    | [] => none
    | _ :: rest =>
      let value := rest.takeWhile (· ≠ '=')
      if (Decimal.parseFloat? (String.ofList value)).isSome then none
      else (Pattern.fault? value).map .field

/-- The bytes of characters. -/
def byteCount (cs : List Char) : Nat :=
  cs.foldl (fun bytes c => bytes + c.utf8Size) 0

/-- The characters before a distance in bytes from the start. -/
def takeBytes (bytes : Nat) : List Char → List Char
  | [] => []
  | c :: rest => if bytes = 0 then [] else c :: takeBytes (bytes - c.utf8Size) rest

/-- The characters from a distance in bytes from the start on. -/
def dropBytes (bytes : Nat) : List Char → List Char
  | [] => []
  | c :: rest => if bytes = 0 then c :: rest else dropBytes (bytes - c.utf8Size) rest

/-- A directive as it is given, and what is left of it without the white space at its
ends.  The parts are found in the latter, and read at the same distance from the start in
the former. -/
structure Source where
  given : List Char
  trimmed : List Char

/-- The source of a text. -/
def Source.ofText (s : String) : Source where
  given := s.toList
  trimmed := Text.trimStart (Text.trimEnd s.toList)

/-- The text given where this end of the trimmed text begins. -/
def Source.from (source : Source) (rest : List Char) : List Char :=
  dropBytes (byteCount source.trimmed - byteCount rest) source.given

/-- What is wrong with the end of a directive behind a span. -/
def afterSpanFault? (source : Source) : List Char → Option DirectiveFault
  | [] => none
  | '=' :: rest => levelFault? (source.from rest)
  | _ => some .malformed

/-- What is wrong with a directive from the fields of a span on. -/
def fieldsFault? (source : Source) (cs : List Char) : Option DirectiveFault :=
  match cs.dropWhile (· ≠ '\x7d') with
  | [] => some .malformed
  | _ :: rest =>
    let field := takeBytes (byteCount (cs.takeWhile (· ≠ '\x7d'))) (source.from cs)
    match fieldFault? field, rest with
    | some fault, _ => some fault
    | none, ']' :: rest => afterSpanFault? source rest
    | none, _ => some .malformed

/-- What is wrong with a directive from a span on. -/
def spanFault? (source : Source) (cs : List Char) : Option DirectiveFault :=
  match cs.dropWhile (fun c => c ≠ ']' && c ≠ '\x7b') with
  | ']' :: rest => afterSpanFault? source rest
  | '\x7b' :: rest => fieldsFault? source rest
  | _ => some .malformed

/-- Whether a target may begin with a character. -/
def isTargetStart (c : Char) : Bool :=
  c = '-' || c = ':' || c = '_' || Text.isAlphanumeric c

/-- What is wrong with a directive. -/
def fault? (s : String) : Option DirectiveFault :=
  let source := Source.ofText s
  match source.trimmed with
  | [] => some .malformed
  | '[' :: rest => spanFault? source rest
  | c :: rest =>
    if isTargetStart c then
      match rest.dropWhile (fun c => c ≠ '=' && c ≠ '[') with
      | '=' :: rest => levelFault? (source.from rest)
      | _ :: rest => spanFault? source rest
      | [] => none
    else some .malformed

end Directive

/-! ## Filters -/

namespace Filter

/-- The directives of a filter. -/
def directives (filter : String) : List String :=
  (filter.splitOn ",").filter fun directive => !directive.isEmpty

/-- Whether nothing is wrong with any directive of a filter. -/
def isSound (filter : String) : Bool :=
  (directives filter).all fun directive => (Directive.fault? directive).isNone

/-- What is said about the directives of a filter with which something is wrong. -/
def complaints (filter : String) : List String :=
  (directives filter).filterMap fun directive =>
    (Directive.fault? directive).map fun fault =>
      "ignoring `" ++ directive ++ "`: " ++ fault.message

end Filter

end Trampoline.Log
