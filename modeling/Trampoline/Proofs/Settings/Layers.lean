import Trampoline.Settings.Load

/-!
# Sources laid over each other

A source is a list of entries, each with a key and a tree.  An entry gives a setting a value as a
member of the table of its section, or by itself under the dotted key of the setting.  When sources
are laid over each other, what they give one setting has nothing to do with the others, and the
last value that a setting is given stands in the end.

Main definitions and results:

- Definition `Leaf`: the five settings.
- Definition `Leaf.given?`: the last value that entries give a setting.
- Definition `IsOrderly`: an entry leaves the sections tables.
- Theorems `leaf?_setAll_of_given`, `leaf?_setAll_of_not_given`: what stands for a setting after
  entries have been laid over a tree.
-/

namespace Trampoline.Settings

open Association

/-! ## The settings and their places -/

/-- A single setting. -/
inductive Leaf where
  | filter
  | ansi
  | depth
  | iterations
  | workerThreads
deriving DecidableEq

namespace Leaf

/-- The name of the section of a setting. -/
def sectionName : Leaf → String
  | filter | ansi => "log"
  | depth | iterations => "bench"
  | workerThreads => "runtime"

/-- The name of a setting in its section. -/
def name : Leaf → String
  | filter => "filter"
  | ansi => "ansi"
  | depth => "depth"
  | iterations => "iterations"
  | workerThreads => "worker_threads"

/-- The dotted key of a setting. -/
def key (leaf : Leaf) : String :=
  leaf.sectionName ++ "." ++ leaf.name

end Leaf

/-- Whether a tree is a table. -/
def Tree.IsTable : Tree → Prop
  | .table _ => True
  | _ => False

/-- What stands for a setting in a tree. -/
def Tree.leaf? (t : Tree) (leaf : Leaf) : Option Tree :=
  (t.find? leaf.sectionName).bind fun found => found.find? leaf.name

/-- The steps from the root that a key of a source stands for. -/
def stepsOf (key : String) : List Step :=
  (way? key).getD [.key key]

/-- The last of some members with a name, up to its case. -/
def lastMember? (name : String) : List (String × Tree) → Option Tree
  | [] => none
  | (key, value) :: rest =>
    (lastMember? name rest).or (if Text.lower key = name then some value else none)

namespace Leaf

/-- The value that an entry gives a setting, as a member of its section or by itself. -/
def givenBy? (leaf : Leaf) (key : String) (value : Tree) : Option Tree :=
  match stepsOf key with
  | [.key outer] =>
    if Text.lower outer = leaf.sectionName then lastMember? leaf.name value.members else none
  | [.key outer, .key inner] =>
    if Text.lower outer = leaf.sectionName ∧ Text.lower inner = leaf.name then some value else none
  | _ => none

/-- The last value that entries give a setting. -/
def given? (leaf : Leaf) : List (String × Tree) → Option Tree
  | [] => none
  | (key, value) :: rest => (leaf.given? rest).or (leaf.givenBy? key value)

end Leaf

/-- The sections are tables after an entry has been laid over a tree: an entry for a section is a
table, and an entry for something in a section does not lead further into it than to a member.
There may be any entries for what is no section.

Entries whose keys differ in nothing but case are laid over the tree in the order in which they
stand, so that the last of them wins. -/
def IsOrderly (entry : String × Tree) : Prop :=
  match stepsOf entry.1 with
  | [.key outer] => (∃ leaf : Leaf, Text.lower outer = leaf.sectionName) → entry.2.IsTable
  | [.key _, .key _] => True
  | .key outer :: _ => ∀ leaf : Leaf, Text.lower outer ≠ leaf.sectionName
  | _ => False

/-- The key of a setting leads to it. -/
theorem stepsOf_key (leaf : Leaf) :
    stepsOf leaf.key = [.key leaf.sectionName, .key leaf.name] := by
  cases leaf <;> decide

/-- An entry for a setting by itself is orderly. -/
theorem isOrderly_key (leaf : Leaf) (value : Tree) : IsOrderly (leaf.key, value) := by
  unfold IsOrderly
  rw [stepsOf_key]
  trivial

/-- The key of a section leads to it. -/
theorem stepsOf_sectionName (leaf : Leaf) : stepsOf leaf.sectionName = [.key leaf.sectionName] := by
  cases leaf <;> decide

/-- A table for a section is orderly. -/
theorem isOrderly_section (leaf : Leaf) (members : List (String × Tree)) :
    IsOrderly (leaf.sectionName, .table members) := by
  unfold IsOrderly
  rw [stepsOf_sectionName]
  exact fun _ => trivial

/-- Each section of a tree is a table. -/
def Tree.IsSectioned (t : Tree) : Prop :=
  ∀ (leaf : Leaf) (found : Tree), t.find? leaf.sectionName = some found → found.IsTable

/-- Of two entries for a setting the later one counts. -/
theorem given?_append (leaf : Leaf) (entries more : List (String × Tree)) :
    leaf.given? (entries ++ more) = (leaf.given? more).or (leaf.given? entries) := by
  induction entries with
  | nil => simp [Leaf.given?]
  | cons entry entries ih => simp [Leaf.given?, ih, Option.or_assoc]

/-! ## Tables -/

namespace Tree

/-- A member that has been put is found, and the others as before. -/
theorem find?_table_put (name : String) (value : Tree) (members : List (String × Tree))
    (key : String) :
    (table (put name value members)).find? key =
      if key = name then some value else members.lookup key := by
  by_cases h : key = name
  · subst h
    simp [find?, Tree.members]
  · simp [find?, Tree.members, h, lookup_put_of_ne value members h]

/-- What is laid over a tree under one key is found there. -/
theorem find?_assign {value : Tree} (h : ¬value.IsTable) (key : String) (root : Tree)
    (name : String) :
    (assign key value root).find? name =
      if name = Text.lower key then some value else root.find? name := by
  cases value with
  | table members => exact absurd trivial h
  | _ =>
      unfold assign
      exact find?_table_put _ _ _ name

/-- A table that is laid over a tree under one key leaves the other keys alone. -/
theorem find?_assign_of_ne (value : Tree) (key : String) (root : Tree) {name : String}
    (h : name ≠ Text.lower key) : (assign key value root).find? name = root.find? name := by
  cases value <;> unfold assign <;> rw [find?_table_put, if_neg h] <;> rfl

/-- A tree with an assignment is a table. -/
theorem isTable_assign (key : String) (value root : Tree) : (assign key value root).IsTable := by
  cases value <;> unfold assign <;> trivial

/-- Members of other names leave what is found under a name alone. -/
theorem find?_assignAll_of_none {name : String} {members : List (String × Tree)}
    (h : lastMember? name members = none) (root : Tree) :
    (assignAll members root).find? name = root.find? name := by
  induction members generalizing root with
  | nil => rw [assignAll]
  | cons member members ih =>
      obtain ⟨key, value⟩ := member
      obtain ⟨hrest, hfirst⟩ := Option.or_eq_none_iff.mp h
      have hne : name ≠ Text.lower key := fun heq => by simp [heq] at hfirst
      rw [assignAll, ih hrest, find?_assign_of_ne value key root hne]

/-- The last of the members with a name is found under it. -/
theorem find?_assignAll_of_last {name : String} {value : Tree} (htable : ¬value.IsTable)
    {members : List (String × Tree)} (h : lastMember? name members = some value) (root : Tree) :
    (assignAll members root).find? name = some value := by
  induction members generalizing root with
  | nil => cases h
  | cons member members ih =>
      obtain ⟨key, first⟩ := member
      rw [assignAll]
      cases hrest : lastMember? name members with
      | some last =>
          obtain rfl : last = value := by simpa [lastMember?, hrest] using h
          exact ih hrest _
      | none =>
          obtain ⟨hkey, rfl⟩ : Text.lower key = name ∧ first = value := by
            simpa [lastMember?, hrest] using h
          rw [find?_assignAll_of_none hrest, find?_assign htable, if_pos hkey.symm]

/-- A table with assignments is a table. -/
theorem isTable_assignAll (members : List (String × Tree)) {root : Tree} (h : root.IsTable) :
    (assignAll members root).IsTable := by
  induction members generalizing root with
  | nil =>
      rw [assignAll]
      exact h
  | cons member members ih =>
      rw [assignAll]
      exact ih (isTable_assign _ _ _)

/-! ## Entries -/

/-- A section that has been put gives its settings, and the others theirs. -/
theorem leaf?_table_put (name : String) (value : Tree) (members : List (String × Tree))
    (leaf : Leaf) :
    (table (put name value members)).leaf? leaf =
      if leaf.sectionName = name then value.find? leaf.name
      else (table members).leaf? leaf := by
  simp only [leaf?, find?_table_put]
  split <;> rfl

/-- The member of a table that may be missing. -/
theorem find?_getD (t : Option Tree) (standard : Tree) (h : ∀ name, standard.find? name = none)
    (name : String) : (t.getD standard).find? name = t.bind fun found => found.find? name := by
  cases t with
  | none => exact h name
  | some found => rfl

/-- What is laid over a tree under a key leaves the other keys alone. -/
theorem find?_overlay_of_ne (value : Tree) (outer : String) (way : List Step) (root : Tree)
    {name : String} (h : name ≠ Text.lower outer) :
    (overlay value (.key outer :: way) root).find? name = root.find? name := by
  cases way with
  | nil => exact find?_assign_of_ne value outer root h
  | cons step way =>
      unfold overlay
      rw [find?_table_put, if_neg h]
      rfl

/-- What is laid over a tree under one key after another is laid over what is found under the first
one. -/
theorem overlay_two (value : Tree) (outer inner : String) (root : Tree) :
    overlay value [.key outer, .key inner] root =
      table (put (Text.lower outer)
        (assign inner value ((root.find? (Text.lower outer)).getD missing)) root.members) := by
  unfold overlay
  rfl

/-- A table that is laid over a tree under one key is laid over what is found under it. -/
theorem overlay_table (members : List (String × Tree)) (outer : String) (root : Tree) :
    overlay (table members) [.key outer] root =
      table (put (Text.lower outer)
        (assignAll members ((root.find? (Text.lower outer)).getD empty)) root.members) := by
  unfold overlay assign
  rfl

section Set

variable {root : Tree} {key : String} {value : Tree} {leaf : Leaf}

/-- A setting has the value that an entry gives it. -/
theorem leaf?_set_of_given {given : Tree} (htable : ¬given.IsTable)
    (h : leaf.givenBy? key value = some given) : (root.set key value).leaf? leaf = some given := by
  change (overlay value (stepsOf key) root).leaf? leaf = _
  unfold Leaf.givenBy? at h
  split at h
  · next outer hsteps =>
      split at h
      · next houter =>
          cases value with
          | table members =>
              rw [hsteps, overlay_table, leaf?_table_put, if_pos houter.symm]
              exact find?_assignAll_of_last htable h _
          | _ => cases h
      · cases h
  · next outer inner hsteps =>
      split at h
      · next hnames =>
          obtain ⟨houter, hinner⟩ := hnames
          cases h
          rw [hsteps, overlay_two, leaf?_table_put, if_pos houter.symm, find?_assign htable,
            if_pos hinner.symm]
      · cases h
  · cases h

/-- A setting keeps its value if an entry gives it none. -/
theorem leaf?_set_of_not_given (orderly : IsOrderly (key, value))
    (h : leaf.givenBy? key value = none) : (root.set key value).leaf? leaf = root.leaf? leaf := by
  change (overlay value (stepsOf key) root).leaf? leaf = _
  have elsewhere : ∀ {outer : String} {way : List Step}, stepsOf key = .key outer :: way →
      Text.lower outer ≠ leaf.sectionName →
        (overlay value (stepsOf key) root).leaf? leaf = root.leaf? leaf := by
    intro outer way hsteps hne
    rw [hsteps, leaf?, find?_overlay_of_ne value outer way root hne.symm]
    rfl
  unfold IsOrderly at orderly
  unfold Leaf.givenBy? at h
  split at orderly
  · next outer hsteps =>
      by_cases houter : Text.lower outer = leaf.sectionName
      · rw [hsteps] at h
        simp only [houter, if_true] at h
        cases value with
        | table members =>
            have hnone : lastMember? leaf.name members = none := h
            rw [hsteps, overlay_table, leaf?_table_put, if_pos houter.symm,
              find?_assignAll_of_none hnone, find?_getD _ _ (fun _ => rfl), houter]
            rfl
        | _ => exact (orderly ⟨leaf, houter⟩).elim
      · exact elsewhere hsteps houter
  · next outer inner hsteps =>
      by_cases houter : Text.lower outer = leaf.sectionName
      · have hinner : leaf.name ≠ Text.lower inner := by
          intro hinner
          rw [hsteps] at h
          simp [houter, hinner] at h
        rw [hsteps, overlay_two, leaf?_table_put, if_pos houter.symm,
          find?_assign_of_ne value inner _ hinner, find?_getD _ _ (fun _ => rfl), houter]
        rfl
      · exact elsewhere hsteps houter
  · next outer way _ _ hsteps => exact elsewhere hsteps (orderly leaf)
  · exact orderly.elim

/-- An orderly entry leaves the sections tables. -/
theorem isSectioned_set (orderly : IsOrderly (key, value)) (h : root.IsSectioned) :
    (root.set key value).IsSectioned := by
  intro leaf found hfound
  change (overlay value (stepsOf key) root).find? leaf.sectionName = some found at hfound
  unfold IsOrderly at orderly
  split at orderly
  · next outer hsteps =>
      by_cases houter : leaf.sectionName = Text.lower outer
      · cases value with
        | table members =>
            rw [hsteps, overlay_table, find?_table_put, if_pos houter] at hfound
            cases hfound
            refine isTable_assignAll members ?_
            cases hsection : root.find? (Text.lower outer) with
            | none => trivial
            | some old => exact h leaf old (houter ▸ hsection)
        | _ => exact (orderly ⟨leaf, houter.symm⟩).elim
      · rw [hsteps, find?_overlay_of_ne value outer [] root houter] at hfound
        exact h leaf found hfound
  · next outer inner hsteps =>
      by_cases houter : leaf.sectionName = Text.lower outer
      · rw [hsteps, overlay_two, find?_table_put, if_pos houter] at hfound
        cases hfound
        exact isTable_assign _ _ _
      · rw [hsteps, find?_overlay_of_ne value outer _ root houter] at hfound
        exact h leaf found hfound
  · next outer way _ _ hsteps =>
      rw [hsteps, find?_overlay_of_ne value outer way root (orderly leaf).symm] at hfound
      exact h leaf found hfound
  · exact orderly.elim

end Set

/-! ## Sources -/

variable {entries : List (String × Tree)}

/-- A setting keeps its value if no entry gives it one. -/
theorem leaf?_setAll_of_not_given {leaf : Leaf} (orderly : ∀ entry ∈ entries, IsOrderly entry)
    (h : leaf.given? entries = none) (root : Tree) :
    (setAll entries root).leaf? leaf = root.leaf? leaf := by
  induction entries generalizing root with
  | nil => rfl
  | cons entry entries ih =>
      obtain ⟨hrest, hfirst⟩ := Option.or_eq_none_iff.mp h
      exact (ih (fun e he => orderly e (by simp [he])) hrest _).trans
        (leaf?_set_of_not_given (orderly entry (by simp)) hfirst)

/-- A setting has the last value that entries give it. -/
theorem leaf?_setAll_of_given {leaf : Leaf} {given : Tree} (htable : ¬given.IsTable)
    (orderly : ∀ entry ∈ entries, IsOrderly entry) (h : leaf.given? entries = some given)
    (root : Tree) : (setAll entries root).leaf? leaf = some given := by
  induction entries generalizing root with
  | nil => cases h
  | cons entry entries ih =>
      have hlater : ∀ e ∈ entries, IsOrderly e := fun e he => orderly e (by simp [he])
      cases hrest : leaf.given? entries with
      | some last =>
          obtain rfl : last = given := by simpa [Leaf.given?, hrest] using h
          exact ih hlater hrest _
      | none =>
          have hfirst : leaf.givenBy? entry.1 entry.2 = some given := by
            simpa [Leaf.given?, hrest] using h
          exact (leaf?_setAll_of_not_given hlater hrest _).trans
            (leaf?_set_of_given htable hfirst)

/-- Orderly entries leave the sections tables. -/
theorem isSectioned_setAll (orderly : ∀ entry ∈ entries, IsOrderly entry) {root : Tree}
    (h : root.IsSectioned) : (setAll entries root).IsSectioned := by
  induction entries generalizing root with
  | nil => exact h
  | cons entry entries ih =>
      exact ih (fun e he => orderly e (by simp [he]))
        (isSectioned_set (orderly entry (by simp)) h)

end Tree

end Trampoline.Settings
