import Trampoline.Decimal.Notation
import Trampoline.Effect
import Trampoline.Text.Quoted

/-!
# Descriptions

The texts that stand for values, failures, effects, connections and call stacks when
a program shows its own data to a programmer.
-/

namespace Trampoline

/-- Join texts with a comma and a blank. -/
def commaSeparated (items : List String) : String :=
  ", ".intercalate items

/-- The description of an error. -/
def ErrorInfo.describe (info : ErrorInfo) : String :=
  "ErrorInfo \x7b code: " ++ Text.quoted info.code ++ ", message: " ++ Text.quoted info.message ++
    " \x7d"

namespace Value

mutual

/-- The description of a value. -/
def describe : Value → String
  | null => "Null"
  | bool b => "Bool(" ++ (if b then "true" else "false") ++ ")"
  | number n => "Num(" ++ Decimal.Layout.description.render n ++ ")"
  | text s => "Str(" ++ Text.quoted s ++ ")"
  | list items => "List([" ++ commaSeparated (describeItems items) ++ "])"
  | object members => "Obj(\x7b" ++ commaSeparated (describeMembers members) ++ "\x7d)"
  | error info => "Error(" ++ info.describe ++ ")"

/-- The descriptions of the items of a list. -/
def describeItems : List Value → List String
  | [] => []
  | v :: rest => describe v :: describeItems rest

/-- The descriptions of the members of an object. -/
def describeMembers : List (String × Value) → List String
  | [] => []
  | (key, v) :: rest => (Text.quoted key ++ ": " ++ describe v) :: describeMembers rest

end

end Value

/-- The description of a failure. -/
def Failure.describe : Failure → String
  | .raised info => "Raised(" ++ info.describe ++ ")"
  | .cancelled => "Cancelled"
  | .panicked message => "Panicked(" ++ Text.quoted message ++ ")"
  | .internal detail => "Internal(" ++ Text.quoted detail ++ ")"

/-- The description of an effect: its contents if it is an outcome, its context if it
has one, else only its kind. -/
def Effect.describe {S : Closures} : Effect S → String
  | .pure v => "Pure(" ++ v.describe ++ ")"
  | .fail e => "Fail(" ++ e.describe ++ ")"
  | .deferred context _ => "Deferred \x7b context: " ++ Text.quoted context.name ++ ", .. \x7d"
  | .continueOn context _ => "ContinueOn \x7b context: " ++ Text.quoted context.name ++ ", .. \x7d"
  | e => e.kind ++ "(..)"

/-- The description of a connection that is or is not canceled. -/
def Connection.describe (c : Connection) (isCanceled : Bool) : String :=
  match c with
  | .uncancelable => "Connection(uncancelable)"
  | .cancelable _ =>
    "Connection \x7b id: " ++ toString c.id ++ ", canceled: " ++
      (if isCanceled then "true" else "false") ++ " \x7d"

/-- The description of a call stack: the frame in the slot, and the frames below it
from the bottom up. -/
def CallStack.describe {S : Closures} (stack : CallStack (Frame S)) : String :=
  let first := match stack.first with
    | some frame => "Some(" ++ frame.describe ++ ")"
    | none => "None"
  "CallStack \x7b first: " ++ first ++ ", rest: [" ++
    commaSeparated (stack.rest.reverse.map Frame.describe) ++ "] \x7d"

end Trampoline
