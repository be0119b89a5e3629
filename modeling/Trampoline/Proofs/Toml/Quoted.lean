import Trampoline.Toml.Quoted.Reader
import Trampoline.Toml.Quoted.Writer

/-!
# Quoted text is read back

A text that is quoted in the style that is chosen for it is read as this text, whatever follows the
closing quotes, as long as it is no quote.  In the styles with escapes the readers go on behind each
escape with the character that it stands for.  In the styles with lines quotes stand in the text as
they are, but no three of them side by side, so that only the closing quotes end the text, and one
or two quotes right before them belong to it.

Main definitions and results:

- Definition `Unescapes`: what the readers of both styles with escapes do with escapes.
- Definition `Closes`: what the readers of both styles with lines do with quotes.
- Definition `FollowsQuote`: what may stand behind a quote in a text with lines.
- Definition `Style.Fits`: the texts that a style can hold.
- Theorem `Style.fits_choose`: the style that is chosen for a text fits it.
- Theorem `read_quote`: a quoted text is read back.
-/

namespace Trampoline.Toml.Quoted

/-- A character in front of what has been read. -/
@[simp]
theorem prepend_some (c : Char) (cs rest : List Char) :
    prepend c (some (cs, rest)) = some (c :: cs, rest) :=
  rfl

/-- A text does not begin with a quote of one kind. -/
def Avoids (quote : Char) (cs : List Char) : Prop :=
  ∀ c ∈ cs.head?, c ≠ quote

/-- A text that begins with another character avoids the quote. -/
theorem avoids_cons {quote c : Char} (h : c ≠ quote) (cs : List Char) : Avoids quote (c :: cs) := by
  rintro d ⟨⟩
  exact h

/-- A text that avoids a quote does not begin with it. -/
theorem Avoids.ne_cons {quote : Char} {cs : List Char} (h : Avoids quote cs) (more : List Char) :
    cs ≠ quote :: more :=
  fun heq => h quote (by rw [heq]; rfl) rfl

/-! ## Escapes -/

/-- The code of a character in four digits is read as the character. -/
theorem coded?_hexDigit : ∀ n < 0x80,
    coded? ['0', '0', hexDigit (n / 16), hexDigit (n % 16)] = some (Char.ofNat n) := by
  decide

/-- A character is escaped by one letter, or by its code, or it stands for itself. -/
theorem escape_cases (c : Char) :
    (∃ e, escape c = ['\\', e] ∧ escaped? e = some c) ∨
      (∃ high low, escape c = ['\\', 'u', '0', '0', high, low] ∧
        coded? ['0', '0', high, low] = some c) ∨
      (escape c = [c] ∧ c ≠ '\\' ∧ isPlain c = true) := by
  unfold escape
  split
  · next h =>
      subst h
      exact .inl ⟨'\\', rfl, rfl⟩
  split
  · next h => exact .inl ⟨'b', rfl, h ▸ rfl⟩
  split
  · next h => exact .inl ⟨'t', rfl, h ▸ rfl⟩
  split
  · next h => exact .inl ⟨'n', rfl, h ▸ rfl⟩
  split
  · next h => exact .inl ⟨'f', rfl, h ▸ rfl⟩
  split
  · next h => exact .inl ⟨'r', rfl, h ▸ rfl⟩
  split
  · next h =>
      refine .inr (.inl ⟨_, _, rfl, ?_⟩)
      have hcode : c.toNat < 0x80 := by
        simp only [Bool.or_eq_true, decide_eq_true_eq] at h
        omega
      rw [coded?_hexDigit c.toNat hcode, Char.ofNat_toNat]
  · next hslash _ _ _ _ _ hcontrol =>
      refine .inr (.inr ⟨rfl, hslash, ?_⟩)
      simp only [Bool.or_eq_true, decide_eq_true_eq, not_or, Nat.not_lt] at hcontrol
      simp [isPlain, hcontrol]

/-- A reader of text between `"` goes on behind a character, and behind an escape with the character
that it stands for. -/
structure Unescapes (read : List Char → Result) : Prop where
  escaped : ∀ {e c : Char}, escaped? e = some c → ∀ rest,
    read ('\\' :: e :: rest) = prepend c (read rest)
  coded : ∀ {high low c : Char}, coded? ['0', '0', high, low] = some c → ∀ rest,
    read ('\\' :: 'u' :: '0' :: '0' :: high :: low :: rest) = prepend c (read rest)
  plain : ∀ {c : Char}, c ≠ '"' → c ≠ '\\' → isPlain c = true → ∀ rest,
    read (c :: rest) = prepend c (read rest)

/-- A text between quotes is read with its escapes. -/
theorem unescapes_basic : Unescapes readBasic where
  escaped h rest := by
    unfold escaped? at h
    split at h <;> cases h <;> rfl
  coded h rest := by simp only [readBasic, h]
  plain hquote hslash h rest := by simp [readBasic, h, hslash]

/-- A text with lines is read with its escapes. -/
theorem unescapes_multiBasic : Unescapes (readMultiBasic false) where
  escaped h rest := by
    unfold escaped? at h
    split at h <;> cases h <;> rfl
  coded h rest := by simp only [readMultiBasic, h]
  plain {c} hquote hslash h rest := by
    have hreturn : c ≠ '\r' := by
      rintro rfl
      exact absurd h (by decide)
    rw [readMultiBasic]
    · simp [h, hslash]
    all_goals intros; contradiction

/-- A character is read back from its escape. -/
theorem Unescapes.escape {read : List Char → Result} (h : Unescapes read) {c : Char}
    (hquote : c ≠ '"') (rest : List Char) :
    read (escape c ++ rest) = prepend c (read rest) := by
  rcases escape_cases c with ⟨e, he, hread⟩ | ⟨high, low, he, hread⟩ | ⟨he, hslash, hplain⟩ <;>
    rw [he]
  · exact h.escaped hread rest
  · exact h.coded hread rest
  · exact h.plain hquote hslash hplain rest

/-- An escape begins with a backslash or with a character that stands for itself. -/
theorem head_escape (c : Char) :
    ∃ d rest, escape c = d :: rest ∧ (d = '\\' ∨ d = c ∧ isPlain c = true) := by
  rcases escape_cases c with ⟨e, he, -⟩ | ⟨high, low, he, -⟩ | ⟨he, -, hplain⟩
  · exact ⟨_, _, he, .inl rfl⟩
  · exact ⟨_, _, he, .inl rfl⟩
  · exact ⟨_, _, he, .inr ⟨rfl, hplain⟩⟩

/-! ## Text on one line -/

/-- The inside of a basic text is read up to the closing quote. -/
theorem readBasic_basicBody (cs rest : List Char) :
    readBasic (basicBody cs ++ '"' :: rest) = some (cs, rest) := by
  induction cs with
  | nil => rfl
  | cons c cs ih =>
      rw [basicBody, List.append_assoc]
      by_cases hquote : c = '"'
      · rw [if_pos hquote, hquote]
        have hread : readBasic ('\\' :: '"' :: (basicBody cs ++ '"' :: rest)) = _ :=
          unescapes_basic.escaped rfl _
        rw [ih] at hread
        exact hread
      · rw [if_neg hquote, unescapes_basic.escape hquote, ih, prepend_some]

/-- Characters that stand for themselves are read up to the closing apostrophe. -/
theorem readLiteral_append {cs : List Char} (h : ∀ c ∈ cs, isPlain c = true ∧ c ≠ '\'')
    (rest : List Char) : readLiteral (cs ++ '\'' :: rest) = some (cs, rest) := by
  induction cs with
  | nil => rfl
  | cons c cs ih =>
      obtain ⟨hplain, hquote⟩ := h c (by simp)
      have hrest := ih fun d hd => h d (by simp [hd])
      simp [readLiteral, hplain, hrest]

/-- The inside of a basic text does not begin with a quote. -/
theorem avoids_basicBody (cs : List Char) : Avoids '"' (basicBody cs) := by
  cases cs with
  | nil => rintro c ⟨⟩
  | cons c cs =>
      by_cases hquote : c = '"'
      · rw [basicBody, if_pos hquote]
        exact avoids_cons (by decide) _
      · obtain ⟨d, rest, he, hhead⟩ := head_escape c
        rw [basicBody, if_neg hquote, he]
        refine avoids_cons ?_ _
        rcases hhead with rfl | ⟨rfl, -⟩
        · decide
        · exact hquote

/-- No two quotes open a text behind its opening quote, if it does not begin with one and what
follows its closing quote does not either. -/
theorem not_two_quotes {quote : Char} {body rest : List Char} (hbody : Avoids quote body)
    (hrest : Avoids quote rest) : ¬[quote, quote] <+: body ++ quote :: rest := by
  intro h
  cases body with
  | nil =>
      cases rest with
      | nil => simp [List.cons_prefix_cons] at h
      | cons c rest => exact hrest c rfl (by simpa [List.cons_prefix_cons, eq_comm] using h)
  | cons c body => exact hbody c rfl (by simp [List.cons_prefix_cons] at h; exact h.1.symm)

/-- A quote that no two others follow begins a text on one line. -/
theorem read_of_basic {cs : List Char} (h : ¬['"', '"'] <+: cs) :
    read ('"' :: cs) = readBasic cs := by
  unfold read
  split
  · next rest heq => exact absurd ⟨rest, (List.cons.inj heq).2.symm⟩ h
  · next heq => cases heq
  · rfl

/-- A single quote that no two others follow begins a literal text on one line. -/
theorem read_of_literal {cs : List Char} (h : ¬['\'', '\''] <+: cs) :
    read ('\'' :: cs) = readLiteral cs := by
  unfold read
  split
  · next heq => cases heq
  · next rest heq => exact absurd ⟨rest, (List.cons.inj heq).2.symm⟩ h
  · rfl

/-! ## Text with lines -/

/-- Behind a quote in a text with lines there is nothing, or one more quote at the end, or there are
no two quotes. -/
def FollowsQuote (quote : Char) (cs : List Char) : Prop :=
  cs = [] ∨ cs = [quote] ∨ ∀ rest, ¬[quote, quote] <+: cs ++ rest

/-- Another character may follow a quote. -/
theorem followsQuote_of_ne {quote c : Char} (h : c ≠ quote) (cs : List Char) :
    FollowsQuote quote (c :: cs) :=
  .inr (.inr fun rest hrest => h (by simp [List.cons_prefix_cons] at hrest; exact hrest.1.symm))

/-- Another character may stand after the next one. -/
theorem followsQuote_cons_of_ne {quote c : Char} (h : c ≠ quote) (d : Char) (cs : List Char) :
    FollowsQuote quote (d :: c :: cs) :=
  .inr (.inr fun rest hrest => h (by simp [List.cons_prefix_cons] at hrest; exact hrest.2.symm))

/-- A run is as long as the quotes in front of the text at least. -/
theorem le_longestRun (quote : Char) (n : Nat) (cs : List Char) : n ≤ longestRun quote n cs := by
  induction cs generalizing n with
  | nil => exact Nat.le_refl n
  | cons c cs ih =>
      unfold longestRun
      split
      · exact Nat.le_of_succ_le (ih (n + 1))
      · exact Nat.le_max_left _ _

/-- More quotes in front of a text make no run shorter. -/
theorem longestRun_mono (quote : Char) {n m : Nat} (h : n ≤ m) (cs : List Char) :
    longestRun quote n cs ≤ longestRun quote m cs := by
  induction cs generalizing n m with
  | nil => exact h
  | cons c cs ih =>
      unfold longestRun
      split
      · exact ih (Nat.add_le_add_right h 1)
      · omega

/-- A text without three quotes side by side may follow a quote that counts for it. -/
theorem followsQuote_of_longestRun {quote : Char} {cs : List Char}
    (h : longestRun quote 1 cs ≤ 2) : FollowsQuote quote cs := by
  match cs with
  | [] => exact .inl rfl
  | [c] =>
      by_cases hc : c = quote
      · exact .inr (.inl (by rw [hc]))
      · exact followsQuote_of_ne hc []
  | c :: d :: cs =>
      by_cases hd : d = quote
      · refine followsQuote_of_ne (fun hc => ?_) (d :: cs)
        have hthree : 3 ≤ longestRun quote (1 + 1 + 1) cs := le_longestRun quote 3 cs
        simp only [longestRun, hc, hd, if_true] at h
        omega
      · exact followsQuote_cons_of_ne hd c cs

/-- A reader of text with lines stops at three quotes, before which there may be one or two more,
and goes on behind a single quote. -/
structure Closes (quote : Char) (read : List Char → Result) : Prop where
  three : ∀ {rest : List Char}, Avoids quote rest →
    read (quote :: quote :: quote :: rest) = some ([], rest)
  four : ∀ {rest : List Char}, Avoids quote rest →
    read (quote :: quote :: quote :: quote :: rest) = some ([quote], rest)
  five : ∀ rest, read (quote :: quote :: quote :: quote :: quote :: rest) =
    some ([quote, quote], rest)
  single : ∀ {cs : List Char}, ¬[quote, quote] <+: cs → read (quote :: cs) = prepend quote (read cs)

/-- Three quotes close a text with lines. -/
theorem closes_multiBasic : Closes '"' (readMultiBasic false) where
  three h := by
    have hne := h.ne_cons
    rw [readMultiBasic] <;> grind
  four h := by
    have hne := h.ne_cons
    rw [readMultiBasic]
    grind
  five rest := rfl
  single {cs} h := by
    have hne : ∀ more, cs ≠ '"' :: '"' :: more := fun more heq => h ⟨more, heq.symm⟩
    rw [readMultiBasic] <;> grind

/-- Three single quotes close a literal text with lines. -/
theorem closes_multiLiteral : Closes '\'' readMultiLiteral where
  three h := by
    have hne := h.ne_cons
    rw [readMultiLiteral] <;> grind
  four h := by
    have hne := h.ne_cons
    rw [readMultiLiteral]
    grind
  five rest := rfl
  single {cs} h := by
    have hne : ∀ more, cs ≠ '\'' :: '\'' :: more := fun more heq => h ⟨more, heq.symm⟩
    rw [readMultiLiteral]
    · rfl
    all_goals grind

/-- A quote in a text with lines is read as itself. -/
theorem Closes.quote {quote : Char} {read : List Char → Result} (closes : Closes quote read)
    {cs rest : List Char} (h : FollowsQuote quote cs) (hrest : Avoids quote rest) :
    read (quote :: (cs ++ quote :: quote :: quote :: rest)) =
      prepend quote (read (cs ++ quote :: quote :: quote :: rest)) := by
  rcases h with rfl | rfl | hbehind
  · rw [List.nil_append, closes.four hrest, closes.three hrest, prepend_some]
  · rw [List.singleton_append, closes.five, closes.four hrest, prepend_some]
  · exact closes.single (hbehind _)

/-- A character with its escape, or the end of a line as it is. -/
def escapeInLines (c : Char) : List Char :=
  if c = '\n' then ['\n'] else escape c

/-- A quote behind none or one is written as it is. -/
theorem multiBasicBody_quote {current : Nat} (h : current ≠ 2) (cs : List Char) :
    multiBasicBody current ('"' :: cs) = '"' :: multiBasicBody (current + 1) cs := by
  rw [multiBasicBody, if_pos rfl, if_neg h]

/-- A quote behind two others is escaped. -/
theorem multiBasicBody_third (cs : List Char) :
    multiBasicBody 2 ('"' :: cs) = '\\' :: '"' :: multiBasicBody 0 cs := by
  rw [multiBasicBody, if_pos rfl, if_pos rfl]

/-- A character that is no quote is escaped on its own. -/
theorem multiBasicBody_of_ne (current : Nat) {c : Char} (h : c ≠ '"') (cs : List Char) :
    multiBasicBody current (c :: cs) = escapeInLines c ++ multiBasicBody 0 cs := by
  rw [multiBasicBody, if_neg h]
  rfl

/-- A character that is no quote does not begin with one in a text with lines, and with the end of a
line only if it is one. -/
theorem head_escapeInLines {c : Char} (h : c ≠ '"') :
    ∃ d rest, escapeInLines c = d :: rest ∧ d ≠ '"' ∧ d ≠ '\r' ∧ (d = '\n' → c = '\n') := by
  by_cases hline : c = '\n'
  · exact ⟨'\n', [], if_pos hline, by decide, by decide, fun _ => hline⟩
  · obtain ⟨d, rest, he, hhead⟩ := head_escape c
    refine ⟨d, rest, (if_neg hline).trans he, ?_⟩
    rcases hhead with rfl | ⟨rfl, hplain⟩
    · exact ⟨by decide, by decide, fun heq => absurd heq (by decide)⟩
    · refine ⟨h, ?_, id⟩
      rintro rfl
      exact absurd hplain (by decide)

/-- A character that is no quote is written with no quote in front. -/
theorem head_multiBasicBody_of_ne (current : Nat) {c : Char} (h : c ≠ '"') (cs : List Char) :
    ∃ d rest, multiBasicBody current (c :: cs) = d :: rest ∧ d ≠ '"' := by
  obtain ⟨d, rest, he, hd, -⟩ := head_escapeInLines h
  exact ⟨d, rest ++ multiBasicBody 0 cs, by rw [multiBasicBody_of_ne current h, he]; rfl, hd⟩

/-- In a text with lines no third quote stands unescaped behind two others. -/
theorem followsQuote_multiBasicBody {current : Nat} (h : current = 1 ∨ current = 2)
    (cs : List Char) : FollowsQuote '"' (multiBasicBody current cs) := by
  cases cs with
  | nil => exact .inl rfl
  | cons c cs =>
      by_cases hc : c = '"'
      · subst hc
        rcases h with rfl | rfl
        · rw [multiBasicBody_quote (by decide)]
          cases cs with
          | nil => exact .inr (.inl rfl)
          | cons d cs =>
              by_cases hd : d = '"'
              · rw [hd, multiBasicBody_third]
                exact followsQuote_cons_of_ne (by decide) _ _
              · obtain ⟨e, rest, he, hne⟩ := head_multiBasicBody_of_ne (1 + 1) hd cs
                rw [he]
                exact followsQuote_cons_of_ne hne _ _
        · rw [multiBasicBody_third]
          exact followsQuote_of_ne (by decide) _
      · obtain ⟨e, rest, he, hne⟩ := head_multiBasicBody_of_ne current hc cs
        rw [he]
        exact followsQuote_of_ne hne rest

/-- The inside of a basic text with lines is read up to the closing quotes. -/
theorem readMultiBasic_multiBasicBody {rest : List Char} (hrest : Avoids '"' rest)
    (cs : List Char) {current : Nat} (h : current ≤ 2) :
    readMultiBasic false (multiBasicBody current cs ++ '"' :: '"' :: '"' :: rest) =
      some (cs, rest) := by
  induction cs generalizing current with
  | nil => exact closes_multiBasic.three hrest
  | cons c cs ih =>
      have hnext : readMultiBasic false (multiBasicBody 0 cs ++ '"' :: '"' :: '"' :: rest) =
          some (cs, rest) := ih (Nat.zero_le 2)
      by_cases hc : c = '"'
      · subst hc
        by_cases htwo : current = 2
        · rw [htwo, multiBasicBody_third, List.cons_append, List.cons_append,
            unescapes_multiBasic.escaped rfl, hnext, prepend_some]
        -- the reader looks ahead for the closing quotes, which the rest of the text may touch
        · have hfollows : FollowsQuote '"' (multiBasicBody (current + 1) cs) :=
            followsQuote_multiBasicBody (by omega) cs
          rw [multiBasicBody_quote htwo, List.cons_append, closes_multiBasic.quote hfollows hrest,
            ih (by omega), prepend_some]
      · rw [multiBasicBody_of_ne current hc, List.append_assoc, escapeInLines]
        split
        · next hline =>
            subst hline
            have hread : ∀ more, readMultiBasic false ('\n' :: more) =
                prepend '\n' (readMultiBasic false more) := fun more => by
              rw [readMultiBasic] <;> simp
            rw [List.singleton_append, hread, hnext, prepend_some]
        · rw [unescapes_multiBasic.escape hc, hnext, prepend_some]

/-- Characters that stand for themselves are read up to the closing apostrophes. -/
theorem readMultiLiteral_append {rest : List Char} (hrest : Avoids '\'' rest)
    {cs : List Char} (hplain : ∀ c ∈ cs, isPlain c = true ∨ c = '\n')
    (hrun : longestRun '\'' 0 cs ≤ 2) :
    readMultiLiteral (cs ++ '\'' :: '\'' :: '\'' :: rest) = some (cs, rest) := by
  induction cs with
  | nil => exact closes_multiLiteral.three hrest
  | cons c cs ih =>
      have hlater : ∀ d ∈ cs, isPlain d = true ∨ d = '\n' := fun d hd => hplain d (by simp [hd])
      by_cases hc : c = '\''
      · subst hc
        have hone : longestRun '\'' 1 cs ≤ 2 := hrun
        have hzero := longestRun_mono '\'' (Nat.zero_le 1) cs
        rw [List.cons_append, closes_multiLiteral.quote (followsQuote_of_longestRun hone) hrest,
          ih hlater (by omega), prepend_some]
      · have hzero : longestRun '\'' 0 cs ≤ 2 := by
          rw [longestRun, if_neg hc] at hrun
          omega
        have hreturn : c ≠ '\r' := by
          rintro rfl
          exact absurd (hplain '\r' (by simp)) (by decide)
        have hread : ∀ more, readMultiLiteral (c :: more) = prepend c (readMultiLiteral more) :=
          fun more => by
            rw [readMultiLiteral]
            · exact if_pos (by simpa using hplain c (by simp))
            all_goals grind
        rw [List.cons_append, hread, ih hlater hzero, prepend_some]

/-! ## All styles -/

/-- The line end in front of a text with lines is passed over, and nothing else is. -/
theorem skipLineEnd_opening {cs body : List Char}
    (h : '\n' ∉ cs → ∀ c ∈ body.head?, c ≠ '\n' ∧ c ≠ '\r') :
    skipLineEnd (opening cs ++ body) = body := by
  unfold opening
  split
  · rfl
  · next hlines =>
      have hhead := h (by simpa using hlines)
      rw [List.nil_append]
      unfold skipLineEnd
      split
      · exact absurd rfl (hhead '\n' rfl).1
      · exact absurd rfl (hhead '\r' rfl).2
      · rfl

/-- A basic text with lines begins with the end of a line only if the text has one. -/
theorem head_multiBasicBody {cs : List Char} (h : '\n' ∉ cs) (rest : List Char) :
    ∀ c ∈ (multiBasicBody 0 cs ++ '"' :: rest).head?, c ≠ '\n' ∧ c ≠ '\r' := by
  suffices hhead : ∃ d more, multiBasicBody 0 cs ++ '"' :: rest = d :: more ∧
      d ≠ '\n' ∧ d ≠ '\r' by
    obtain ⟨d, more, hbody, hd⟩ := hhead
    rw [hbody]
    rintro c ⟨⟩
    exact hd
  cases cs with
  | nil => exact ⟨'"', rest, rfl, by decide, by decide⟩
  | cons c cs =>
      by_cases hc : c = '"'
      · rw [hc, multiBasicBody_quote (by decide)]
        exact ⟨'"', _, rfl, by decide, by decide⟩
      · obtain ⟨d, more, he, -, hreturn, hline⟩ := head_escapeInLines hc
        refine ⟨d, _, by rw [multiBasicBody_of_ne 0 hc, he]; rfl, fun heq => ?_, hreturn⟩
        exact h (by simp [hline heq])

/-- A literal text with lines begins with the end of a line only if the text has one. -/
theorem head_literal {cs : List Char} (h : '\n' ∉ cs)
    (hplain : ∀ c ∈ cs, isPlain c = true ∨ c = '\n') (rest : List Char) :
    ∀ c ∈ (cs ++ '\'' :: rest).head?, c ≠ '\n' ∧ c ≠ '\r' := by
  cases cs with
  | nil =>
      rintro c ⟨⟩
      decide
  | cons c cs =>
      rintro d ⟨⟩
      have hline : c ≠ '\n' := fun heq => h (by simp [heq])
      refine ⟨hline, ?_⟩
      rintro rfl
      exact absurd ((hplain '\r' (by simp)).resolve_right hline) (by decide)

/-- A style can hold a text.  The styles with escapes can hold any. -/
def Style.Fits (cs : List Char) : Style → Prop
  | basic | multiBasic => True
  | literal => ∀ c ∈ cs, isPlain c = true ∧ c ≠ '\''
  | multiLiteral => (∀ c ∈ cs, isPlain c = true ∨ c = '\n') ∧ longestRun '\'' 0 cs ≤ 2

/-- A character without a need for an escape stands for itself, or ends a line. -/
theorem isPlain_of_not_isControl {c : Char} (h : isControl c = false) :
    isPlain c = true ∨ c = '\n' := by
  simp only [isControl, isPlain] at *
  grind

/-- There is no quote in a text without a run of it. -/
theorem not_mem_of_longestRun {quote : Char} {cs : List Char} (h : longestRun quote 0 cs = 0) :
    quote ∉ cs := by
  induction cs with
  | nil => simp
  | cons c cs ih =>
      have hone := le_longestRun quote 1 cs
      have hc : c ≠ quote := by
        rintro rfl
        simp only [longestRun, if_true, Nat.zero_add] at h
        omega
      rw [longestRun, if_neg hc] at h
      simp [hc.symm, ih (by omega)]

/-- The style that is chosen for a text fits it. -/
theorem Style.fits_choose (cs : List Char) : (choose cs).Fits cs := by
  have hplain : cs.any isControl = false → ∀ c ∈ cs, isPlain c = true ∨ c = '\n' := fun h c hc =>
    isPlain_of_not_isControl (by simpa using List.any_eq_false.mp h c hc)
  simp only [choose]
  split
  · trivial
  split
  · next h =>
      simp only [Bool.and_eq_true, Bool.not_eq_true', decide_eq_true_eq] at h
      obtain ⟨⟨hcontrol, hlines⟩, hrun⟩ := h
      intro c hc
      have hline : c ≠ '\n' := by
        rintro rfl
        simp [hc] at hlines
      have hquote : c ≠ '\'' := by
        rintro rfl
        exact not_mem_of_longestRun hrun hc
      exact ⟨(hplain hcontrol c hc).resolve_right hline, hquote⟩
  split
  · trivial
  split
  · next h =>
      simp only [Bool.and_eq_true, Bool.not_eq_true', decide_eq_true_eq] at h
      exact ⟨hplain h.1, h.2⟩
  split <;> trivial

/-- A text that is quoted in a style that fits it is read back. -/
theorem Style.read_write {style : Style} {cs : List Char} (h : style.Fits cs) {rest : List Char}
    (hdouble : Avoids '"' rest) (hsingle : Avoids '\'' rest) :
    read (style.write cs ++ rest) = some (cs, rest) := by
  cases style with
  | basic =>
      have happend : basic.write cs ++ rest = '"' :: (basicBody cs ++ '"' :: rest) := by
        simp [write]
      rw [happend, read_of_basic (not_two_quotes (avoids_basicBody cs) hdouble),
        readBasic_basicBody]
  | literal =>
      have happend : literal.write cs ++ rest = '\'' :: (cs ++ '\'' :: rest) := by simp [write]
      have hbody : Avoids '\'' cs := fun c hc => (h c (List.mem_of_mem_head? hc)).2
      rw [happend, read_of_literal (not_two_quotes hbody hsingle), readLiteral_append h]
  | multiBasic =>
      have happend : multiBasic.write cs ++ rest = '"' :: '"' :: '"' ::
          (opening cs ++ (multiBasicBody 0 cs ++ '"' :: '"' :: '"' :: rest)) := by simp [write]
      have hopening : skipLineEnd
          (opening cs ++ (multiBasicBody 0 cs ++ '"' :: '"' :: '"' :: rest)) =
            multiBasicBody 0 cs ++ '"' :: '"' :: '"' :: rest :=
        skipLineEnd_opening fun hlines => head_multiBasicBody hlines _
      rw [happend]
      change readMultiBasic false (skipLineEnd _) = _
      rw [hopening, readMultiBasic_multiBasicBody hdouble cs (by omega)]
  | multiLiteral =>
      have happend : multiLiteral.write cs ++ rest = '\'' :: '\'' :: '\'' ::
          (opening cs ++ (cs ++ '\'' :: '\'' :: '\'' :: rest)) := by simp [write]
      have hopening : skipLineEnd (opening cs ++ (cs ++ '\'' :: '\'' :: '\'' :: rest)) =
          cs ++ '\'' :: '\'' :: '\'' :: rest :=
        skipLineEnd_opening fun hlines => head_literal hlines h.1 _
      rw [happend]
      change readMultiLiteral (skipLineEnd _) = _
      rw [hopening, readMultiLiteral_append hsingle h.1 h.2]

/-- A quoted text begins with a quote. -/
theorem head_quote (s : String) : ∃ c cs, quote s = c :: cs ∧ (c = '"' ∨ c = '\'') := by
  unfold quote Style.write
  split
  · exact ⟨_, _, rfl, .inl rfl⟩
  · exact ⟨_, _, rfl, .inr rfl⟩
  · exact ⟨_, _, rfl, .inl rfl⟩
  · exact ⟨_, _, rfl, .inr rfl⟩

/-- A quoted text is read back. -/
theorem read_quote (s : String) {rest : List Char} (hdouble : Avoids '"' rest)
    (hsingle : Avoids '\'' rest) : read (quote s ++ rest) = some (s.toList, rest) :=
  Style.read_write (Style.fits_choose s.toList) hdouble hsingle

end Trampoline.Toml.Quoted
