import Trampoline.Proofs.Settings.Precedence
import Trampoline.Proofs.Toml.Documents
import Trampoline.Settings.Document

/-!
# Written settings are loaded again

The text of settings has three sections, the keys of which need no quotes, and no setting is left
out but a number of worker threads that is not set.  So the text is read back as these sections, and
each of them gives its settings the values that they have.

Main definitions and results:

- Definition `Settings.IsOversized`: a count is larger than any integer of a document.
- Definition `Settings.toEntries`: the entries that the text of settings is read as.
- Theorem `Settings.toToml?_eq_none_iff`: which settings have no text.
- Theorem `Settings.gives`: the text of settings gives them their values.
- Theorem `Settings.reloads`: the text of valid settings is loaded as the settings.
-/

namespace Trampoline.Settings

open Toml (maxInteger Scalar)

/-- A count is larger than any integer of a document. -/
def IsOversized (s : Settings) : Prop :=
  maxInteger < s.bench.depth ∨ maxInteger < s.bench.iterations ∨
    ∃ n : Nat, s.runtime.workerThreads = some n ∧ maxInteger < n

/-- The keys of the sections differ and need no quotes. -/
theorem isPlain_sections (s : Settings) : Toml.IsPlain s.sections := by
  have hbare : ∀ key ∈ ["log", "filter", "ansi", "bench", "depth", "iterations", "runtime",
      "worker_threads"], Toml.IsBareKey key := by decide +kernel
  refine ⟨fun t ht => ?_, by simp [sections]⟩
  cases hthreads : s.runtime.workerThreads <;>
    simp only [sections, hthreads, List.mem_cons, List.not_mem_nil, or_false] at ht <;>
    rcases ht with rfl | rfl | rfl <;>
    exact ⟨hbare _ (by simp), by simp [hbare], by simp⟩

/-- Settings have no text exactly if a count is too large for a document. -/
theorem toToml?_eq_none_iff (s : Settings) : s.toToml? = none ↔ s.IsOversized := by
  cases hthreads : s.runtime.workerThreads <;>
    simp [toToml?, Toml.render?, sections, hthreads, Scalar.fits, IsOversized] <;>
    omega

/-- The values of all settings. -/
def toPartial (s : Settings) : Partial where
  filter := some s.log.filter
  ansi := some s.log.ansi
  depth := some s.bench.depth
  iterations := some s.bench.iterations
  workerThreads := s.runtime.workerThreads

/-- The entries that the text of settings is read as. -/
def toEntries (s : Settings) : List (String × Tree) :=
  [("log", .table [("filter", .text s.log.filter), ("ansi", .bool s.log.ansi)]),
    ("bench", .table [("depth", .integer s.bench.depth),
      ("iterations", .integer s.bench.iterations)]),
    ("runtime", .table (match s.runtime.workerThreads with
      | some n => [("worker_threads", .integer n)]
      | none => []))]

theorem ofToml?_sections (s : Settings) :
    Tree.ofToml? (.table (s.sections.map Toml.Section.toMember)) = some (.table s.toEntries) := by
  cases hthreads : s.runtime.workerThreads <;>
    simp [sections, toEntries, hthreads, Toml.Section.toMember, Scalar.toToml, Tree.ofToml?,
      Tree.ofMembers?, Tree.momentKey, Tree.empty]

/-- The entries give each setting the value that it has. -/
theorem given?_toEntries (s : Settings) (leaf : Leaf) :
    leaf.given? s.toEntries = s.toPartial.tree? leaf := by
  obtain ⟨⟨filter, ansi⟩, ⟨depth, iterations⟩, ⟨workerThreads⟩⟩ := s
  cases workerThreads <;> cases leaf <;> rfl

/-- The text of settings gives all of them their values, and no setting another one. -/
theorem gives {s : Settings} {text : String} (h : s.toToml? = some text) (required : Bool) :
    ({ file := some text, fileRequired := required, env := [] } : Sources).Gives s.toEntries
      s.toPartial {} where
  read := by
    have hparse := Toml.parse?_render? s.isPlain_sections h
    simp [Sources.fileEntries?, hparse, ofToml?_sections]
  orderly := by
    intro entry hentry
    simp only [Variables.entries, toEntries, List.filterMap_nil, List.append_nil, List.mem_cons,
      List.not_mem_nil, or_false] at hentry
    rcases hentry with rfl | rfl | rfl
    · exact isOrderly_section .filter _
    · exact isOrderly_section .depth _
    · exact isOrderly_section .workerThreads _
  file := s.given?_toEntries
  env leaf := by cases leaf <;> rfl

/-- Valid settings have a text exactly if none of their counts is larger than any integer of a
document.  If they have one, a file with this text is loaded, without an environment, as the same
settings. -/
theorem reloads (s : Settings) (valid : s.fault? = none) :
    (s.toToml? = none ↔ s.IsOversized) ∧
      ∀ text, s.toToml? = some text → ∀ required,
        ({ file := some text, fileRequired := required, env := [] } : Sources).load = .ok s :=
  ⟨s.toToml?_eq_none_iff, fun _ h required =>
    (gives h required).load_of_isValid ((fault?_eq_none_iff s).mp valid)⟩

/-- Settings with the largest count of a document, and with a filter of two lines that no style can
hold as it is: it has a backslash, three quotes of either kind side by side, and quotes at the
end. -/
def demanding : Settings where
  log := { filter := "a=\"\"\"\"b'''\\\n\"\"", ansi := false }
  bench := { depth := 1, iterations := 9223372036854775807 }
  runtime := { workerThreads := some 3 }

theorem toToml?_demanding : demanding.toToml? = some
    ("[log]\nfilter = \"\"\"\na=\"\"\\\"\"b'''\\\\\n\"\"\"\"\"\nansi = false\n\n" ++
      "[bench]\ndepth = 1\niterations = 9223372036854775807\n\n" ++
      "[runtime]\nworker_threads = 3\n") := by
  decide +kernel

theorem reloads_demanding :
    demanding.fault? = none ∧ ∃ text, demanding.toToml? = some text ∧
      ({ file := some text, fileRequired := true, env := [] } : Sources).load = .ok demanding :=
  have valid : demanding.fault? = none := by decide +kernel
  ⟨valid, _, toToml?_demanding, (reloads demanding valid).2 _ toToml?_demanding true⟩

end Trampoline.Settings
