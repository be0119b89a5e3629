import Trampoline.Text.Blank

/-!
# Settings

The settings of the program in three sections, their defaults, and what makes them
valid.

Main definitions:

- `Settings`: the sections `log`, `bench` and `runtime`.
- `Settings.fault?`: the first setting that is not valid.
- `Settings.IsValid`: what a valid setting of each kind is.

Main statement: `fault?_eq_none_iff`, there is no fault exactly in valid settings.
-/

namespace Trampoline

/-- What the log shows. -/
structure LogSettings where
  /-- The directive that filters the log. -/
  filter : String := "info"
  /-- Whether the log is colored. -/
  ansi : Bool := true
deriving DecidableEq

/-- How a benchmark is run unless the command line says otherwise. -/
structure BenchSettings where
  /-- The steps of a chain. -/
  depth : Nat := 100000
  /-- The runs of a benchmark. -/
  iterations : Nat := 5
deriving DecidableEq

/-- What tasks run on. -/
structure RuntimeSettings where
  /-- The worker threads of the pool, if their number is not left to the pool. -/
  workerThreads : Option Nat := none
deriving DecidableEq

/-- All settings. -/
structure Settings where
  log : LogSettings := {}
  bench : BenchSettings := {}
  runtime : RuntimeSettings := {}
deriving DecidableEq

namespace Settings

/-- What stands for a setting read, or the default of the setting if nothing does. -/
def readOr {σ α : Type} (standard : α) (read : σ → Option α) : Option σ → Option α
  | none => some standard
  | some x => read x

/-- A setting that may be found not valid. -/
inductive Field where
  | depth
  | iterations
  | workerThreads
  | filter
deriving DecidableEq

/-- The name of a setting, with its section. -/
def Field.name : Field → String
  | depth => "bench.depth"
  | iterations => "bench.iterations"
  | workerThreads => "runtime.worker_threads"
  | filter => "log.filter"

/-- What a setting has to be. -/
def Field.demand : Field → String
  | depth => "must be at least 1"
  | iterations => "must be at least 1"
  | workerThreads => "must be at least 1 when set"
  | filter => "must not be empty"

/-- The message about a setting that is not valid. -/
def Field.message (field : Field) : String :=
  "invalid configuration value for " ++ field.name ++ ": " ++ field.demand

/-- The first setting that is not valid. -/
def fault? (s : Settings) : Option Field :=
  if s.bench.depth = 0 then some .depth
  else if s.bench.iterations = 0 then some .iterations
  else if s.runtime.workerThreads = some 0 then some .workerThreads
  else if Text.isBlankText s.log.filter then some .filter
  else none

/-- Counts are positive and the filter is not blank. -/
structure IsValid (s : Settings) : Prop where
  depth_ne : s.bench.depth ≠ 0
  iterations_ne : s.bench.iterations ≠ 0
  workerThreads_ne : s.runtime.workerThreads ≠ some 0
  filter_ne : Text.isBlankText s.log.filter = false

/-- There is no fault exactly in valid settings. -/
theorem fault?_eq_none_iff (s : Settings) : s.fault? = none ↔ s.IsValid := by
  constructor
  · intro h
    unfold fault? at h
    split at h
    · simp at h
    split at h
    · simp at h
    split at h
    · simp at h
    split at h
    · simp at h
    rename_i h1 h2 h3 h4
    exact ⟨h1, h2, h3, by simpa using h4⟩
  · rintro ⟨h1, h2, h3, h4⟩
    simp [fault?, h1, h2, h3, h4]

end Settings

end Trampoline
