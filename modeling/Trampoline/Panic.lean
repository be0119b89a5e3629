/-!
# Panics

What a panic carries, and how a host tells the panics that a run survives from
those that abandon it.
-/

namespace Trampoline

/-- What a panic carries. -/
inductive Payload where
  /-- A plain message. -/
  | message (text : String)
  /-- A demand to abandon everything, with its reason. -/
  | fatal (reason : String)
  /-- Anything that has no text. -/
  | other
deriving DecidableEq, Inhabited

namespace Payload

/-- Whether a payload demands to abandon everything. -/
def isFatal : Payload → Bool
  | fatal _ => true
  | _ => false

/-- The text of a payload. -/
def describe : Payload → String
  | message text => text
  | fatal reason => "fatal: " ++ reason
  | other => "unknown panic"

end Payload

/-- The rule by which a host decides whether a run survives a panic: true means
that the panic becomes an ordinary failure. -/
abbrev Classifier :=
  Payload → Bool

/-- The standing rule: only a fatal payload abandons the run. -/
def Classifier.standard : Classifier :=
  fun payload => !payload.isFatal

end Trampoline
