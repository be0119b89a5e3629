import Trampoline.Proofs.Settings.Layers

/-!
# Which value a setting has

A setting has the value that the environment gives it, or else the one that the file gives it, or
else its default.  The settings that come of this are loaded if they are valid, and one that is not
is named if they are not.

Main definitions and results:

- Definition `Partial`: values for some of the settings.
- Definition `Sources.Gives`: the values that a file and an environment give.
- Theorem `Sources.Gives.settings?_eq`: the settings of sources.
- Theorems `Sources.Gives.load_of_isValid`, `Sources.Gives.load_of_not_isValid`: when the settings
  sources are loaded.
-/

namespace Trampoline.Settings

/-! ## Values for some of the settings -/

/-- Values for some of the settings. -/
structure Partial where
  filter : Option String := none
  ansi : Option Bool := none
  depth : Option Nat := none
  iterations : Option Nat := none
  workerThreads : Option Nat := none

namespace Partial

/-- The value of a setting in a tree. -/
def tree? (p : Partial) : Leaf → Option Tree
  | .filter => p.filter.map Tree.text
  | .ansi => p.ansi.map Tree.bool
  | .depth => p.depth.map fun n : Nat => Tree.integer n
  | .iterations => p.iterations.map fun n : Nat => Tree.integer n
  | .workerThreads => p.workerThreads.map fun n : Nat => Tree.integer n

/-- The values of `top`, and those of `bottom` for the settings that `top` has none for. -/
def above (top bottom : Partial) : Partial where
  filter := top.filter.or bottom.filter
  ansi := top.ansi.or bottom.ansi
  depth := top.depth.or bottom.depth
  iterations := top.iterations.or bottom.iterations
  workerThreads := top.workerThreads.or bottom.workerThreads

/-- All settings, with the default of each that has no value. -/
def settings (p : Partial) : Settings where
  log := { filter := p.filter.getD "info", ansi := p.ansi.getD true }
  bench := { depth := p.depth.getD 100000, iterations := p.iterations.getD 5 }
  runtime := { workerThreads := p.workerThreads }

/-- A setting has the value on top, or else the one at the bottom. -/
theorem tree?_above (top bottom : Partial) (leaf : Leaf) :
    (top.above bottom).tree? leaf = (top.tree? leaf).or (bottom.tree? leaf) := by
  cases leaf <;> simp only [tree?, above, Option.map_or]

/-- The value of a setting is no table. -/
theorem not_isTable {p : Partial} {leaf : Leaf} {t : Tree} (h : p.tree? leaf = some t) :
    ¬t.IsTable := by
  cases leaf <;> obtain ⟨_, -, rfl⟩ := Option.map_eq_some_iff.mp h <;> exact id

end Partial

/-! ## Settings of a tree -/

section OfTree

variable {t : Tree} {p : Partial}

/-- A section that is missing gives no settings, as one without members. -/
theorem readOr_section {α : Type} (standard : α) (read : Tree → Option α)
    (hempty : read .empty = some standard) (found : Option Tree) :
    readOr standard read found = read (found.getD .empty) := by
  cases found with
  | none => exact hempty.symm
  | some found => rfl

/-- A section is a table, also where it is missing. -/
theorem isTable_section (sectioned : t.IsSectioned) (leaf : Leaf) :
    ∃ members, (t.find? leaf.sectionName).getD .empty = .table members := by
  cases hfound : t.find? leaf.sectionName with
  | none => exact ⟨[], rfl⟩
  | some found =>
      cases found with
      | table members => exact ⟨members, rfl⟩
      | _ => exact (sectioned leaf _ hfound).elim

/-- A setting stands in its section. -/
theorem leaf?_eq (leaf : Leaf) {members : List (String × Tree)}
    (h : (t.find? leaf.sectionName).getD .empty = .table members) :
    members.lookup leaf.name = t.leaf? leaf := by
  have hfind := Tree.find?_getD (t.find? leaf.sectionName) .empty (fun _ => rfl) leaf.name
  rw [h] at hfind
  exact hfind

/-- A count is read as it is, or else as the default. -/
theorem readOr_count (standard : Nat) (n : Option Nat) :
    readOr standard Tree.toCount? (n.map fun n : Nat => Tree.integer n) =
      some (n.getD standard) := by
  cases n <;> simp [readOr, Tree.toCount?]

/-- The settings of the log are read from their section. -/
theorem log_ofTree? (sectioned : t.IsSectioned) (h : ∀ leaf, t.leaf? leaf = p.tree? leaf) :
    readOr {} LogSettings.ofTree? (t.find? "log") = some p.settings.log := by
  obtain ⟨members, hmembers⟩ := isTable_section sectioned .filter
  have hfilter : members.lookup "filter" = p.filter.map Tree.text :=
    (leaf?_eq .filter hmembers).trans (h .filter)
  have hansi : members.lookup "ansi" = p.ansi.map Tree.bool :=
    (leaf?_eq .ansi hmembers).trans (h .ansi)
  have htext : readOr "info" Tree.toText? (p.filter.map Tree.text) =
      some (p.filter.getD "info") := by cases p.filter <;> rfl
  have hbool : readOr true Tree.toBool? (p.ansi.map Tree.bool) = some (p.ansi.getD true) := by
    cases p.ansi <;> rfl
  rw [readOr_section {} LogSettings.ofTree? rfl]
  change LogSettings.ofTree? ((t.find? Leaf.filter.sectionName).getD .empty) = _
  rw [hmembers]
  simp [LogSettings.ofTree?, Tree.isSection, Tree.setting?, hfilter, hansi, htext, hbool,
    Partial.settings]

/-- The settings of the benchmark are read from their section. -/
theorem bench_ofTree? (sectioned : t.IsSectioned) (h : ∀ leaf, t.leaf? leaf = p.tree? leaf) :
    readOr {} BenchSettings.ofTree? (t.find? "bench") = some p.settings.bench := by
  obtain ⟨members, hmembers⟩ := isTable_section sectioned .depth
  have hdepth : members.lookup "depth" = p.depth.map fun n : Nat => Tree.integer n :=
    (leaf?_eq .depth hmembers).trans (h .depth)
  have hiterations : members.lookup "iterations" = p.iterations.map fun n : Nat => Tree.integer n :=
    (leaf?_eq .iterations hmembers).trans (h .iterations)
  rw [readOr_section {} BenchSettings.ofTree? rfl]
  change BenchSettings.ofTree? ((t.find? Leaf.depth.sectionName).getD .empty) = _
  rw [hmembers]
  simp [BenchSettings.ofTree?, Tree.isSection, Tree.setting?, hdepth, hiterations, readOr_count,
    Partial.settings]

/-- The settings of the runtime are read from their section. -/
theorem runtime_ofTree? (sectioned : t.IsSectioned) (h : ∀ leaf, t.leaf? leaf = p.tree? leaf) :
    readOr {} RuntimeSettings.ofTree? (t.find? "runtime") = some p.settings.runtime := by
  obtain ⟨members, hmembers⟩ := isTable_section sectioned .workerThreads
  have hthreads : members.lookup "worker_threads" =
      p.workerThreads.map fun n : Nat => Tree.integer n :=
    (leaf?_eq .workerThreads hmembers).trans (h .workerThreads)
  have hcount : readOr none Tree.toOptionalCount?
      (p.workerThreads.map fun n : Nat => Tree.integer n) = some p.workerThreads := by
    cases p.workerThreads <;> simp [readOr, Tree.toOptionalCount?, Tree.toCount?]
  rw [readOr_section {} RuntimeSettings.ofTree? rfl]
  change RuntimeSettings.ofTree? ((t.find? Leaf.workerThreads.sectionName).getD .empty) = _
  rw [hmembers]
  simp [RuntimeSettings.ofTree?, Tree.isSection, Tree.setting?, hthreads, hcount, Partial.settings]

/-- The settings of a tree are the values that stand in it, and else the defaults. -/
theorem ofTree?_of_leaves (sectioned : t.IsSectioned)
    (h : ∀ leaf, t.leaf? leaf = p.tree? leaf) : Settings.ofTree? t = some p.settings := by
  simp [Settings.ofTree?, log_ofTree? sectioned h, bench_ofTree? sectioned h,
    runtime_ofTree? sectioned h]

end OfTree

/-! ## Sources -/

/-- The values that a file and an environment give.  The file has been read as entries, and no
entry of the file or the environment makes a section something else than a table.  Of members whose
keys differ in nothing but case, the last one in the file counts. -/
structure Sources.Gives (sources : Sources) (entries : List (String × Tree))
    (file env : Partial) : Prop where
  read : sources.fileEntries? = some entries
  orderly : ∀ entry ∈ entries ++ sources.env.entries, IsOrderly entry
  file : ∀ leaf : Leaf, leaf.given? entries = file.tree? leaf
  env : ∀ leaf : Leaf, leaf.given? sources.env.entries = env.tree? leaf

namespace Sources.Gives

variable {sources : Sources} {entries : List (String × Tree)} {file env : Partial}

/-- The environment wins over the file, and the file over the defaults, for each setting. -/
theorem settings?_eq (h : sources.Gives entries file env) :
    sources.settings? = some (env.above file).settings := by
  have hempty : Tree.empty.IsSectioned := fun _ _ hfound => by cases hfound
  have hleaf : ∀ leaf, (Tree.setAll (entries ++ sources.env.entries) .empty).leaf? leaf =
      (env.above file).tree? leaf := by
    intro leaf
    have hgiven : leaf.given? (entries ++ sources.env.entries) = (env.above file).tree? leaf := by
      rw [given?_append, h.file, h.env, Partial.tree?_above]
    cases htree : (env.above file).tree? leaf with
    | none => exact Tree.leaf?_setAll_of_not_given h.orderly (hgiven.trans htree) _
    | some given =>
        exact Tree.leaf?_setAll_of_given (Partial.not_isTable htree) h.orderly
          (hgiven.trans htree) _
  have htree := ofTree?_of_leaves (Tree.isSectioned_setAll h.orderly hempty) hleaf
  simp [Sources.settings?, Sources.tree?, h.read, htree]

end Sources.Gives

/-! ## Loading -/

/-- Whether a setting is one that makes settings not valid. -/
def Field.Offends (field : Field) (s : Settings) : Prop :=
  match field with
  | .depth => s.bench.depth = 0
  | .iterations => s.bench.iterations = 0
  | .workerThreads => s.runtime.workerThreads = some 0
  | .filter => Text.isBlankText s.log.filter = true

/-- The field that settings are rejected for is one that makes them not valid. -/
theorem offends_of_fault? {s : Settings} {field : Field} (h : s.fault? = some field) :
    field.Offends s := by
  unfold fault? at h
  split at h
  · cases h; assumption
  split at h
  · cases h; assumption
  split at h
  · cases h; assumption
  split at h
  · cases h; assumption
  · cases h

namespace Sources.Gives

variable {sources : Sources} {entries : List (String × Tree)} {file env : Partial}

/-- Valid settings are loaded. -/
theorem load_of_isValid (h : sources.Gives entries file env)
    (valid : (env.above file).settings.IsValid) :
    sources.load = .ok (env.above file).settings := by
  simp only [Sources.load, h.settings?_eq, (fault?_eq_none_iff _).mpr valid]

/-- Settings that are not valid are refused, and the message names one that offends. -/
theorem load_of_not_isValid (h : sources.Gives entries file env)
    (invalid : ¬(env.above file).settings.IsValid) :
    ∃ field : Field, field.Offends (env.above file).settings ∧
      sources.load = .error (.invalid field) := by
  cases hfault : (env.above file).settings.fault? with
  | none => exact absurd ((fault?_eq_none_iff _).mp hfault) invalid
  | some field =>
      refine ⟨field, offends_of_fault? hfault, ?_⟩
      simp only [Sources.load, h.settings?_eq, hfault]

end Sources.Gives

end Trampoline.Settings
