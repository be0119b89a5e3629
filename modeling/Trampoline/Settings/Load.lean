import Trampoline.Settings.Conversion
import Trampoline.Settings.Environment
import Trampoline.Toml.Reader

/-!
# Loading settings

Settings from a file and from the environment.  The environment wins over the file, and
the file over the defaults.

Main definitions:

- `Sources`: where settings come from.
- `Sources.tree?`: the sources laid over each other.
- `Sources.load`: the settings, if they can be read and are valid.
-/

namespace Trampoline.Settings

/-- Where settings come from. -/
structure Sources where
  /-- The text of the file, if there is one. -/
  file : Option String := none
  /-- Whether there has to be a file. -/
  fileRequired : Bool := false
  /-- The environment. -/
  env : Variables := []

/-- Why there are no settings. -/
inductive LoadFault where
  /-- A source is missing or malformed, or a setting is no value of its kind. -/
  | unreadable
  /-- A setting is not valid. -/
  | invalid (field : Field)
deriving DecidableEq

namespace Sources

/-- The settings that the file gives. -/
def fileEntries? (sources : Sources) : Option (List (String × Tree)) :=
  match sources.file with
  | some s => do
    match ← Tree.ofToml? (.table (← Toml.parse? s)) with
    | .table entries => some entries
    | _ => none
  | none => if sources.fileRequired then none else some []

/-- The tree of all sources. -/
def tree? (sources : Sources) : Option Tree :=
  sources.fileEntries?.map fun entries =>
    Tree.setAll (entries ++ sources.env.entries) .empty

/-- The settings of all sources, valid or not. -/
def settings? (sources : Sources) : Option Settings := do
  Settings.ofTree? (← sources.tree?)

/-- The settings of all sources. -/
def load (sources : Sources) : Except LoadFault Settings :=
  match sources.settings? with
  | none => .error .unreadable
  | some settings =>
    match settings.fault? with
    | some field => .error (.invalid field)
    | none => .ok settings

/-- Whatever is loaded is valid. -/
theorem isValid_of_load {sources : Sources} {settings : Settings}
    (h : sources.load = .ok settings) : settings.IsValid := by
  unfold load at h
  split at h
  · simp at h
  · split at h
    · simp at h
    · rename_i fault
      cases h
      exact (fault?_eq_none_iff _).1 fault

end Sources

end Trampoline.Settings
