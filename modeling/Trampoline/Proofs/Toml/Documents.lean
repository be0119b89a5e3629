import Trampoline.Proofs.Toml.Values

/-!
# Documents are read back

The text of sections is read, line by line, as the heads and the assignments that it was written
from, and these make one table for each section, in order.  The names of the sections differ, and so
do the keys within a section, and all of them can be written without quotes.

Main definitions and results:

- Definition `IsPlain`: sections that can be told apart and whose keys need no quotes.
- Definition `Reads`: the lines that a text is read as.
- Theorem `reads_writeSections`: the lines of the text of sections.
- Theorem `applyLines_sections`: the tables that the lines of sections make.
- Theorem `parse?_render?`: the text of sections is read back.
-/

namespace Trampoline.Toml

open Association Text

/-! ## Sections -/

/-- A key that can be written without quotes. -/
structure IsBareKey (key : String) : Prop where
  ne_nil : key.toList ≠ []
  isKeyChar : ∀ c ∈ key.toList, Reader.isKeyChar c = true

/-- A key without quotes begins with one of its characters. -/
theorem IsBareKey.exists_cons {key : String} (h : IsBareKey key) :
    ∃ c cs, key.toList = c :: cs ∧ Reader.isKeyChar c = true := by
  obtain ⟨c, cs, hkey⟩ := List.exists_cons_of_ne_nil h.ne_nil
  exact ⟨c, cs, hkey, h.isKeyChar c (by simp [hkey])⟩

/-- Whether a key needs quotes can be decided. -/
instance (key : String) : Decidable (IsBareKey key) :=
  decidable_of_iff ((!key.toList.isEmpty && key.toList.all Reader.isKeyChar) = true) <| by
    rw [Bool.and_eq_true, List.all_eq_true]
    exact ⟨fun h => ⟨by simpa using h.1, h.2⟩, fun h => ⟨by simpa using h.1, h.2⟩⟩

/-- A section whose keys differ and need no quotes. -/
structure Section.IsPlain (s : Section) : Prop where
  name : IsBareKey s.name
  keys : ∀ entry ∈ s.entries, IsBareKey entry.1
  distinct : s.entries.Pairwise fun entry later => entry.1 ≠ later.1

/-- Sections that can be told apart and whose keys need no quotes. -/
structure IsPlain (sections : List Section) : Prop where
  plain : ∀ s ∈ sections, s.IsPlain
  distinct : sections.Pairwise fun s later => s.name ≠ later.name

/-- The assignment of a value to a key. -/
def assignmentOf (entry : String × Scalar) : Assignment :=
  ⟨⟨[], entry.1⟩, entry.2.toToml⟩

/-- The lines that a section is written as. -/
def Section.lines (s : Section) : List Line :=
  .table ⟨[], s.name⟩ :: s.entries.map fun entry => .assignment (assignmentOf entry)

/-- A section as a member of a document. -/
def Section.toMember (s : Section) : String × Toml :=
  (s.name, .table (s.entries.map fun entry => (entry.1, entry.2.toToml)))

/-! ## Lines -/

namespace Reader

/-- A character that is expected is read. -/
theorem expect_self (c : Char) (cs : List Char) : expect c (c :: cs) = some ((), cs) := by
  rw [expect, bind_of_some (peek_cons c cs), if_pos rfl]
  rfl

/-- Spaces are skipped. -/
theorem spaces_eq (cs : List Char) : spaces cs = some ((), cs.dropWhile isSpace) :=
  rfl

/-- The ends of lines are skipped. -/
theorem breaks_eq (cs : List Char) :
    breaks cs = (skipLines false cs).map fun rest => ((), rest) := by
  rw [breaks, get_bind]
  cases skipLines false cs <;> rfl

section Keys

variable {name : String} (h : IsBareKey name) {rest : List Char}
include h

/-- A key without quotes goes as far as its characters do. -/
theorem key_bare (hrest : ∀ c ∈ rest.head?, isKeyChar c = false) :
    key (name.toList ++ rest) = some (name, rest) := by
  obtain ⟨c, cs, hname, hc⟩ := h.exists_cons
  have hhead : (name.toList ++ rest).head? = some c := by simp [hname]
  have hempty : name.toList.isEmpty = false := by simp [hname]
  rw [key, get_bind, takeWhile_run h.isKeyChar hrest, dropWhile_run h.isKeyChar hrest, hhead]
  -- no quote stands in front, so that this is not read as a quoted key
  refine (congrFun (?_ : _ = (do
    set rest
    return String.ofList name.toList : Reader String)) _).trans ?_
  · split
    · next heq => cases heq; exact absurd hc (by decide)
    · next heq => cases heq; exact absurd hc (by decide)
    · exact if_neg (by simp [hempty])
  · rw [String.ofList_toList]
    rfl

/-- There are no spaces in front of a key without quotes. -/
theorem dropWhile_bare : (name.toList ++ rest).dropWhile isSpace = name.toList ++ rest := by
  obtain ⟨c, cs, hname, hc⟩ := h.exists_cons
  have hspace : isSpace c = false := not_isSpace_of rfl rfl hc
  rw [hname, List.cons_append, List.dropWhile_cons_of_neg (by simp [hspace])]

/-- A key without quotes is a whole dotted key if no point follows it. -/
theorem path_bare (hrest : ∀ c ∈ rest.head?, isKeyChar c = false) {c : Char} {next : List Char}
    (hnext : rest.dropWhile isSpace = c :: next) (hpoint : c ≠ '.') :
    path (name.toList ++ rest) = some (⟨[], name⟩, c :: next) := by
  have hspaces : spaces (name.toList ++ rest) = some ((), name.toList ++ rest) := by
    rw [spaces_eq, dropWhile_bare h]
  have hafter : spaces rest = some ((), c :: next) := by rw [spaces_eq, hnext]
  have hne : some c ≠ some '.' := fun heq => hpoint (Option.some.inj heq)
  have hlimit : levelLimit = 78 + 1 := rfl
  rw [path, hlimit, pathWithin, bind_of_some hspaces, bind_of_some (key_bare h hrest),
    bind_of_some hafter, bind_of_some (peek_cons c next), if_neg hne]
  rfl

end Keys

/-- Nothing but the end of the line may follow what is read from a line. -/
theorem line_of_head {cs rest : List Char} {l : Line}
    (h : head ('[' :: cs) = some (l, '\n' :: rest)) : line ('[' :: cs) = some (l, rest) := by
  rw [line, bind_of_some (peek_cons '[' cs), if_pos rfl, bind_of_some h]
  rfl

/-- An assignment goes as far as the end of its line. -/
theorem line_of_assignment {c : Char} {cs rest : List Char} {l : Line} (hc : c ≠ '[')
    (h : assignment (c :: cs) = some (l, '\n' :: rest)) : line (c :: cs) = some (l, rest) := by
  rw [line, bind_of_some (peek_cons c cs), if_neg (fun heq => hc (Option.some.inj heq)),
    bind_of_some h]
  rfl

/-- The head of a section is read back. -/
theorem line_head {name : String} (h : IsBareKey name) (rest : List Char) :
    line ('[' :: (name.toList ++ ']' :: '\n' :: rest)) = some (.table ⟨[], name⟩, rest) := by
  obtain ⟨c, cs, hname, hc⟩ := h.exists_cons
  have hbracket : c ≠ '[' := by
    rintro rfl
    exact absurd hc (by decide)
  have hpeek : peek (name.toList ++ ']' :: '\n' :: rest) =
      some (some c, name.toList ++ ']' :: '\n' :: rest) := by
    rw [hname]
    rfl
  have hpath : path (name.toList ++ ']' :: '\n' :: rest) = some (⟨[], name⟩, ']' :: '\n' :: rest) :=
    path_bare h (by rintro d ⟨⟩; decide) rfl (by decide)
  refine line_of_head ?_
  rw [head, bind_of_some (expect_self '[' _), bind_of_some hpeek,
    if_neg (fun heq => hbracket (Option.some.inj heq)), bind_of_some hpath,
    bind_of_some (expect_self ']' _)]
  rfl

/-- A key with a value that fits is read back. -/
theorem line_writeEntry {entry : String × Scalar} (h : IsBareKey entry.1)
    (hfits : entry.2.fits = true) (rest : List Char) :
    line (writeEntry entry ++ rest) = some (.assignment (assignmentOf entry), rest) := by
  obtain ⟨name, v⟩ := entry
  obtain ⟨c, cs, hname, hc⟩ := h.exists_cons
  have hbracket : c ≠ '[' := by
    rintro rfl
    exact absurd hc (by decide)
  have hwrite : writeEntry (name, v) ++ rest =
      name.toList ++ ' ' :: '=' :: ' ' :: (v.write ++ '\n' :: rest) := by simp [writeEntry]
  have hpath : path (name.toList ++ ' ' :: '=' :: ' ' :: (v.write ++ '\n' :: rest)) =
      some (⟨[], name⟩, '=' :: ' ' :: (v.write ++ '\n' :: rest)) :=
    path_bare h (by rintro d ⟨⟩; decide) rfl (by decide)
  have hspaces : spaces (' ' :: (v.write ++ '\n' :: rest)) =
      some ((), v.write ++ '\n' :: rest) := by
    rw [spaces_eq, List.dropWhile_cons_of_pos rfl, dropWhile_write]
  have hassignment : assignment (name.toList ++ ' ' :: '=' :: ' ' :: (v.write ++ '\n' :: rest)) =
      some (.assignment (assignmentOf (name, v)), '\n' :: rest) := by
    rw [assignment, bind_of_some hpath, bind_of_some (expect_self '=' _), bind_of_some hspaces,
      bind_of_some (readValue_write hfits rest)]
    rfl
  rw [hwrite]
  rw [hname] at hassignment ⊢
  exact line_of_assignment hbracket hassignment

end Reader

/-- A text is read as lines, with as many calls as it has characters. -/
def Reads (cs : List Char) (lines : List Line) : Prop :=
  ∀ fuel, cs.length < fuel → Reader.linesWithin fuel cs = some (lines, [])

namespace Reads

/-- Nothing is read as no lines. -/
theorem nil : Reads [] [] := by
  intro fuel hfuel
  obtain ⟨fuel, rfl⟩ : ∃ k, fuel = k + 1 := ⟨fuel - 1, by omega⟩
  rfl

variable {cs rest : List Char} {lines : List Line}

/-- A line is read before the lines that follow it. -/
theorem cons {c : Char} {l : Line} (hc : Reader.isKeyChar c = true ∨ c = '[')
    (hline : Reader.line (c :: cs) = some (l, rest)) (hlength : rest.length ≤ cs.length)
    (h : Reads rest lines) : Reads (c :: cs) (l :: lines) := by
  intro fuel hfuel
  obtain ⟨fuel, rfl⟩ : ∃ k, fuel = k + 1 := ⟨fuel - 1, by omega⟩
  -- a line begins with no blank and no comment, so that nothing is passed over before it
  have hskip : skipLines false (c :: cs) = some (c :: cs) := by
    have hnot : Text.isSpace c = false ∧ c ≠ '#' ∧ c ≠ '\n' ∧ c ≠ '\r' := by
      rcases hc with hc | rfl
      · refine ⟨Reader.not_isSpace_of rfl rfl hc, ?_, ?_, ?_⟩ <;>
          rintro rfl <;> exact absurd hc (by decide)
      · decide
    rw [skipLines] <;> simp [hnot]
  have hbreaks : Reader.breaks (c :: cs) = some ((), c :: cs) := by
    rw [Reader.breaks_eq, hskip]
    rfl
  have hlater : Reader.linesWithin fuel rest = some (lines, []) :=
    h fuel (by simp only [List.length_cons] at hfuel; omega)
  rw [Reader.linesWithin, Reader.bind_of_some hbreaks, Reader.get_bind]
  change (Reader.line >>= fun first => Reader.linesWithin fuel >>= fun later => 
    pure (first :: later) : Reader (List Line)) (c :: cs) = _
  rw [Reader.bind_of_some hline, Reader.bind_of_some hlater]
  rfl

/-- An empty line is passed over. -/
theorem lineEnd (h : Reads cs lines) : Reads ('\n' :: cs) lines := by
  intro fuel hfuel
  obtain ⟨fuel, rfl⟩ : ∃ k, fuel = k + 1 := ⟨fuel - 1, by omega⟩
  have hbreaks : Reader.breaks ('\n' :: cs) = Reader.breaks cs := by
    rw [Reader.breaks_eq, Reader.breaks_eq, skipLines]
  have hskip : Reader.linesWithin (fuel + 1) ('\n' :: cs) = Reader.linesWithin (fuel + 1) cs :=
    Reader.bind_congr hbreaks _
  rw [hskip]
  exact h (fuel + 1) (by simp only [List.length_cons] at hfuel; omega)

/-- The assignments of a section are read before what follows it. -/
theorem entries {entries : List (String × Scalar)} (hkeys : ∀ entry ∈ entries, IsBareKey entry.1)
    (hfits : ∀ entry ∈ entries, entry.2.fits = true) (h : Reads rest lines) :
    Reads (entries.flatMap writeEntry ++ rest)
      ((entries.map fun entry => .assignment (assignmentOf entry)) ++ lines) := by
  induction entries with
  | nil => exact h
  | cons entry entries ih =>
      have hlater := ih (fun e he => hkeys e (by simp [he])) fun e he => hfits e (by simp [he])
      have hkey : IsBareKey entry.1 := hkeys entry (by simp)
      have hline := Reader.line_writeEntry hkey (hfits entry (by simp))
        (entries.flatMap writeEntry ++ rest)
      obtain ⟨c, cs, hname, hc⟩ := hkey.exists_cons
      have hwrite : writeEntry entry = c :: (cs ++ [' ', '=', ' '] ++ entry.2.write ++ ['\n']) := by
        simp [writeEntry, hname]
      rw [List.flatMap_cons, List.append_assoc, List.map_cons, List.cons_append]
      rw [hwrite, List.cons_append] at hline ⊢
      have hlength : ∀ taken more : List Char, more.length ≤ (taken ++ more).length :=
        fun taken more => by simp
      exact cons (.inl hc) hline (hlength _ _) hlater

/-- A section is read before what follows it. -/
theorem append {s : Section} (plain : s.IsPlain) (hfits : ∀ entry ∈ s.entries, entry.2.fits = true)
    (h : Reads rest lines) : Reads (s.write ++ rest) (s.lines ++ lines) := by
  have hentries := entries plain.keys hfits h
  have hwrite : s.write ++ rest =
      '[' :: (s.name.toList ++ ']' :: '\n' :: (s.entries.flatMap writeEntry ++ rest)) := by
    simp [Section.write]
  rw [hwrite]
  exact cons (.inr rfl) (Reader.line_head plain.name _) (by simp; omega) hentries

end Reads

/-- The text of sections is read as their lines. -/
theorem reads_writeSections : ∀ {sections : List Section}, (∀ s ∈ sections, s.IsPlain) →
    (∀ s ∈ sections, ∀ entry ∈ s.entries, entry.2.fits = true) →
      Reads (writeSections sections) (sections.flatMap Section.lines)
  | [], _, _ => .nil
  | [s], plain, hfits => by
      have hread := Reads.nil.append (plain s (by simp)) (hfits s (by simp))
      simpa [writeSections] using hread
  | s :: t :: rest, plain, hfits => by
      have hrest : Reads (writeSections (t :: rest)) _ :=
        reads_writeSections (fun u hu => plain u (List.mem_cons_of_mem s hu))
          fun u hu => hfits u (List.mem_cons_of_mem s hu)
      exact hrest.lineEnd.append (plain s (by simp)) (hfits s (by simp))

/-! ## Tables -/

/-- A value with its key as it stands in a table under construction. -/
def nodeOf (entry : String × Scalar) : String × Node :=
  (entry.1, .value entry.2.toToml)

/-- A section as it stands in a document under construction. -/
def Section.node (s : Section) : String × Node :=
  (s.name, .table .head (s.entries.map nodeOf))

/-- What is put under a key that some pairs do not have is put behind them. -/
theorem put_append {α : Type} {key : String} {before : List (String × α)}
    (h : before.lookup key = none) (a : α) (rest : List (String × α)) :
    put key a (before ++ rest) = before ++ put key a rest := by
  induction before with
  | nil => rfl
  | cons pair before ih =>
      obtain ⟨k, b⟩ := pair
      by_cases hk : k = key
      · simp [hk] at h
      · have hlater : before.lookup key = none := by
          have hbeq : (key == k) = false := by simp [Ne.symm hk]
          simpa [List.lookup_cons, hbeq] using h
        simp [put, hk, ih hlater]

/-- A key that is new is put at the end. -/
theorem put_of_lookup_none {α : Type} {key : String} {before : List (String × α)}
    (h : before.lookup key = none) (a : α) : put key a before = before ++ [(key, a)] := by
  have happend := put_append h a []
  rwa [List.append_nil] at happend

/-- A member with another key does not matter to a key. -/
theorem lookup_append_single {α : Type} {key other : String} {before : List (String × α)}
    (h : before.lookup other = none) (hne : key ≠ other) (a : α) :
    (before ++ [(key, a)]).lookup other = none := by
  have hbeq : (other == key) = false := by simp [Ne.symm hne]
  simp [List.lookup_append, h, List.lookup_cons, hbeq]

/-- An assignment puts its value at the end of the table of the head before, if the key is new. -/
theorem apply_assignment {name : String} {before inner : Members} {entry : String × Scalar}
    (hname : before.lookup name = none) (hkey : inner.lookup entry.1 = none) :
    (Line.assignment (assignmentOf entry)).apply [name] (before ++ [(name, .table .head inner)]) =
      some ([name], before ++ [(name, .table .head (inner ++ [nodeOf entry]))]) := by
  have hfound : (before ++ [(name, Node.table .head inner)]).lookup name =
      some (.table .head inner) := by simp [List.lookup_append, hname]
  have hinner : (assignmentOf entry).apply .head inner = some (inner ++ [nodeOf entry]) := by
    change assignHere false entry.1 entry.2.toToml .head inner = _
    simp [assignHere, hkey, put_of_lookup_none hkey, nodeOf]
  simp [Line.apply, changeAt, hfound, hinner, put_append hname, put]

/-- The assignments of a section fill its table. -/
theorem applyLines_entries {name : String} {before : Members} (hname : before.lookup name = none)
    {entries : List (String × Scalar)}
    (distinct : entries.Pairwise fun entry later => entry.1 ≠ later.1) {inner : Members}
    (hkeys : ∀ entry ∈ entries, inner.lookup entry.1 = none) (lines : List Line) :
    applyLines ((entries.map fun entry => .assignment (assignmentOf entry)) ++ lines) [name]
        (before ++ [(name, .table .head inner)]) =
      applyLines lines [name] (before ++ [(name, .table .head (inner ++ entries.map nodeOf))]) := by
  induction entries generalizing inner with
  | nil => simp
  | cons entry entries ih =>
      obtain ⟨hfirst, hlater⟩ := List.pairwise_cons.mp distinct
      have hnew : ∀ e ∈ entries, (inner ++ [nodeOf entry]).lookup e.1 = none := fun e he =>
        lookup_append_single (hkeys e (by simp [he])) (hfirst e he) _
      have hnext := ih hlater hnew
      rw [List.map_cons, List.cons_append, applyLines,
        apply_assignment hname (hkeys entry (by simp))]
      simpa using hnext

/-- The head of a section with a new name makes an empty table at the end. -/
theorem apply_head {name : String} {before : Members} (hname : before.lookup name = none)
    (head : List String) : (Line.table ⟨[], name⟩).apply head before =
      some ([name], before ++ [(name, .table .head [])]) := by
  simp [Line.apply, Path.keys, changeAt, openTable, hname, put_of_lookup_none hname]

/-- The lines of sections make a table for each of them, behind the tables that are there. -/
theorem applyLines_sections {sections : List Section} (plain : IsPlain sections) {before : Members}
    (hnames : ∀ s ∈ sections, before.lookup s.name = none) (head : List String) :
    applyLines (sections.flatMap Section.lines) head before =
      some (before ++ sections.map Section.node) := by
  induction sections generalizing before head with
  | nil => simp [applyLines]
  | cons s sections ih =>
      obtain ⟨hfirst, hlater⟩ := List.pairwise_cons.mp plain.distinct
      have hname : before.lookup s.name = none := hnames s (by simp)
      have hrest : IsPlain sections := ⟨fun t ht => plain.plain t (by simp [ht]), hlater⟩
      have hnew : ∀ t ∈ sections, (before ++ [s.node]).lookup t.name = none := fun t ht =>
        lookup_append_single (hnames t (by simp [ht])) (hfirst t ht) _
      have hnext := ih hrest hnew [s.name]
      rw [List.flatMap_cons, Section.lines, List.cons_append, applyLines, apply_head hname]
      simp only [Option.bind_eq_bind, Option.bind_some]
      rw [applyLines_entries hname (plain.plain s (by simp)).distinct (by simp)]
      simpa [Section.node] using hnext

/-! ## Documents -/

/-- The entries of a section are finished as they are. -/
theorem finishMembers_entries (entries : List (String × Scalar)) :
    Node.finishMembers (entries.map nodeOf) =
      entries.map fun entry => (entry.1, entry.2.toToml) := by
  induction entries with
  | nil => rfl
  | cons entry entries ih => simp [Node.finishMembers, Node.finish, nodeOf, ih]

/-- The sections of a document are finished as they are. -/
theorem finishMembers_sections (sections : List Section) :
    Node.finishMembers (sections.map Section.node) = sections.map Section.toMember := by
  induction sections with
  | nil => rfl
  | cons s sections ih =>
      simp [Node.finishMembers, Node.finish, Section.node, Section.toMember,
        finishMembers_entries, ih]

/-- The text of sections is read back. -/
theorem parse?_render? {sections : List Section} (plain : IsPlain sections) {text : String}
    (h : render? sections = some text) : parse? text = some (sections.map Section.toMember) := by
  obtain ⟨hfits, rfl⟩ : (∀ s ∈ sections, ∀ entry ∈ s.entries, entry.2.fits = true) ∧
      String.ofList (writeSections sections) = text := by
    simpa [render?] using h
  have hmark : skipMark (writeSections sections) = writeSections sections := by
    cases sections with
    | nil => rfl
    | cons s sections => cases sections <;> rfl
  have hlines : lines? (writeSections sections) = some (sections.flatMap Section.lines) := by
    have hread := reads_writeSections plain.plain hfits _ (Nat.lt_succ_self _)
    simp [lines?, StateT.run', hread]
  have htables : applyLines (sections.flatMap Section.lines) [] [] = _ :=
    applyLines_sections plain (fun _ _ => rfl) []
  simp [parse?, hmark, hlines, ofLines?, htables, finishMembers_sections]

end Trampoline.Toml
