import Trampoline.Value

/-!
# Failures and outcomes

How a run can fail, and the outcome that it delivers.  A failure is a cause; its
code and its text are functions of the cause.
-/

namespace Trampoline

/-- The cause of a failure. -/
inductive Failure where
  /-- An error raised on purpose by the code of the run. -/
  | raised (info : ErrorInfo)
  /-- The run observed that its connection was canceled. -/
  | cancelled
  /-- Code of the run panicked in a way that the run survives. -/
  | panicked (message : String)
  /-- The engine met a state that it does not expect. -/
  | internal (detail : String)
deriving DecidableEq, Inhabited

namespace Failure

/-- The failure raised with a code and a message. -/
def raise (code message : String) : Failure :=
  raised ⟨code, message⟩

/-- The text of a failure. -/
def message : Failure → String
  | raised info => info.code ++ ": " ++ info.message
  | cancelled => "run cancelled"
  | panicked text => "panicked: " ++ text
  | internal detail => "internal run-loop failure: " ++ detail

/-- The code of a failure: its own if it was raised, else one for its kind. -/
def code : Failure → String
  | raised info => info.code
  | cancelled => "Cancelled"
  | panicked _ => "Panicked"
  | internal _ => "InternalError"

/-- A failure as data.  A raised error is given back as it is; any other cause is
described by its code and its text. -/
def toInfo : Failure → ErrorInfo
  | raised info => info
  | e => ⟨e.code, e.message⟩

@[simp]
theorem toInfo_raised (info : ErrorInfo) : (raised info).toInfo = info :=
  rfl

/-- Data keeps the code of the failure that it describes. -/
@[simp]
theorem toInfo_code (e : Failure) : e.toInfo.code = e.code := by
  cases e <;> rfl

end Failure

/-- What a run delivers: a value or a failure. -/
abbrev Outcome :=
  Except Failure Value

namespace Value

/-- The number in a value; any other value is a type error that names its kind. -/
def expectNumber (v : Value) : Except Failure Float :=
  match v with
  | number n => .ok n
  | v => .error (Failure.raise "TypeError" ("expected number, got " ++ v.typeName))

@[simp]
theorem expectNumber_number (n : Float) : (number n).expectNumber = .ok n :=
  rfl

end Value

end Trampoline
