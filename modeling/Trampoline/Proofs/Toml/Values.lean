import Trampoline.Proofs.Toml.Quoted
import Trampoline.Toml.Reader
import Trampoline.Toml.Writer

/-!
# Plain values are read back

A plain value that fits a document is read as this value from the end of a line.  The digits of a
count are read as an integer, because they are neither a date or a time nor a float, and they begin
with a zero only if they are a single one.

Main definitions and results:

- Definition `Scalar.toToml`: a plain value as a value of a document.
- Theorem `word?_digitsOf`: the digits of a count are read as the count.
- Theorem `readValue_write`: a plain value is read back.
-/

namespace Trampoline.Toml

open Text

/-! ## Digits -/

/-- The digits of a number stand for the number. -/
theorem natOfDigits_digitsOf (n : Nat) : natOfDigits (digitsOf n) = n := by
  have hfold : Nat.ofDigitChars 10 (Nat.toDigits 10 n) 0 = _ := Nat.ofDigitChars_eq_foldl
  rw [Nat.ofDigitChars_ten_toDigits] at hfold
  simp only [natOfDigits, digitsOf, digitValue, Nat.mul_comm _ 10]
  exact hfold.symm

/-- The digits of a number are digits. -/
theorem isDigit_of_mem_digitsOf {n : Nat} {c : Char} (h : c ∈ digitsOf n) : c.isDigit = true :=
  Nat.isDigit_of_mem_toDigits (by decide) (by decide) h

/-- The digits of a number that is not zero begin with a digit that is not zero. -/
theorem head_digitsOf {n : Nat} (h : n ≠ 0) : ∃ c ds, digitsOf n = c :: ds ∧ c ≠ '0' := by
  induction n using Nat.strongRecOn with
  | ind n ih =>
      by_cases hsmall : n < 10
      · exact ⟨_, [], Nat.toDigits_of_lt_base hsmall, fun hc => h (Nat.digitChar_eq_zero.mp hc)⟩
      · obtain ⟨c, ds, hdigits, hc⟩ := ih (n / 10) (by omega) (by omega)
        refine ⟨c, ds ++ [(n % 10).digitChar], ?_, hc⟩
        have hsplit : digitsOf n = digitsOf (n / 10) ++ [(n % 10).digitChar] :=
          Nat.toDigits_of_base_le (by decide) (by omega)
        rw [hsplit, hdigits]
        rfl

section Digits

variable {cs : List Char}

/-- Digits are joined as they are. -/
theorem joined?_of_digits (hne : cs ≠ []) (h : ∀ c ∈ cs, c.isDigit = true) :
    joined? Char.isDigit cs = some cs := by
  induction cs with
  | nil => exact absurd rfl hne
  | cons c cs ih =>
      have hc : c.isDigit = true := h c (by simp)
      cases cs with
      | nil => simp [joined?, hc]
      | cons d cs =>
          have hd : d ≠ '_' := by
            rintro rfl
            exact absurd (h '_' (by simp)) (by decide)
          have hrest := ih (by simp) fun e he => h e (by simp [List.mem_cons.mp he])
          rw [joined?]
          · simp [hc, hrest]
          · simp
          · intro more hmore
            exact hd (List.cons.inj hmore).1

/-- There is no date in digits only. -/
theorem date?_of_digits (h : ∀ c ∈ cs, c.isDigit = true) : date? cs = none := by
  unfold date?
  split
  · exact absurd (h '-' (by simp)) (by decide)
  · rfl

/-- There is no time in digits only. -/
theorem time?_of_digits (h : ∀ c ∈ cs, c.isDigit = true) (lastHour : Nat) :
    time? lastHour cs = none := by
  unfold time? pair?
  match cs with
  | [] | [_] => rfl
  | a :: b :: rest =>
      simp only
      split
      · simp only [Option.bind_eq_bind, Option.bind_some]
        split
        · exact absurd (h ':' (by simp)) (by decide)
        · rfl
      · rfl

/-- Digits alone are no time. -/
theorem moment?_of_digits (h : ∀ c ∈ cs, c.isDigit = true) : moment? cs = none := by
  simp only [moment?, date?_of_digits h, time?_of_digits h]

/-- Digits have no sign in front. -/
theorem spanSign_of_digits (h : ∀ c ∈ cs, c.isDigit = true) :
    Decimal.spanSign cs = (false, cs) := by
  unfold Decimal.spanSign
  split
  · exact absurd (h '-' (by simp)) (by decide)
  · exact absurd (h '+' (by simp)) (by decide)
  · rfl

/-- There is no float without a point or an exponent. -/
theorem float?_of_digits (h : ∀ c ∈ cs, c.isDigit = true) : float? cs = none := by
  have hjoint : ∀ c ∈ cs, isDigitOrJoint c = true := fun c hc => by simp [isDigitOrJoint, h c hc]
  have hmagnitude : magnitude? cs = none := by
    have hdrop : (cs ++ []).dropWhile isDigitOrJoint = [] := List.dropWhile_append_of_pos hjoint
    rw [List.append_nil] at hdrop
    simp [magnitude?, hdrop]
  simp only [float?, spanSign_of_digits h]
  split
  · exact absurd (h 'i' (by simp)) (by decide)
  · exact absurd (h 'n' (by simp)) (by decide)
  · rw [hmagnitude]

end Digits

/-! ## Words -/

/-- The digits of a number are a whole number as it is written. -/
theorem wholeDigits?_digitsOf (n : Nat) : wholeDigits? (digitsOf n) = some (digitsOf n) := by
  by_cases hzero : n = 0
  · rw [hzero]
    rfl
  · obtain ⟨c, ds, hdigits, hc⟩ := head_digitsOf hzero
    have hjoined : joined? Char.isDigit (digitsOf n) = some (digitsOf n) :=
      joined?_of_digits Nat.toDigits_ne_nil fun _ => isDigit_of_mem_digitsOf
    unfold wholeDigits?
    split
    · next heq => rw [heq] 
    · next heq => exact absurd (List.cons.inj (hdigits.symm.trans heq)).1 hc
    · exact hjoined

/-- The digits of a count are read as the count, if it is none too large. -/
theorem integer?_digitsOf {n : Nat} (h : (n : Int) ≤ maxInteger) :
    integer? (digitsOf n) = some (n : Int) := by
  have hsign : Decimal.spanSign (digitsOf n) = (false, digitsOf n) :=
    spanSign_of_digits fun _ => isDigit_of_mem_digitsOf
  have hmin : minInteger ≤ (n : Int) := by
    have : minInteger ≤ 0 := by decide
    omega
  have hnot : ∀ {c : Char} {ds : List Char}, c.isDigit = false → digitsOf n ≠ '0' :: c :: ds := by
    intro c ds hc heq
    have hmem : c ∈ digitsOf n := by simp [heq]
    simp [isDigit_of_mem_digitsOf hmem] at hc
  unfold integer?
  split
  · next heq => exact absurd heq (hnot rfl)
  · next heq => exact absurd heq (hnot rfl)
  · next heq => exact absurd heq (hnot rfl)
  · simp [hsign, wholeDigits?_digitsOf, natOfDigits_digitsOf, inRange?, hmin, h]

/-- The digits of a count are read as the count, if it is none too large. -/
theorem word?_digitsOf {n : Nat} (h : (n : Int) ≤ maxInteger) :
    word? (digitsOf n) = some (.integer n) := by
  have hdigits : ∀ c ∈ digitsOf n, c.isDigit = true := fun _ => isDigit_of_mem_digitsOf
  unfold word?
  split
  · next heq => exact absurd (hdigits 't' (by simp [heq])) (by decide)
  · next heq => exact absurd (hdigits 'f' (by simp [heq])) (by decide)
  · simp [moment?_of_digits hdigits, float?_of_digits hdigits, integer?_digitsOf h]

section Runs

variable {p : Char → Bool} {cs rest : List Char} (h : ∀ c ∈ cs, p c = true)
  (hrest : ∀ c ∈ rest.head?, p c = false)
include h hrest

/-- Characters of a kind go as far as the first of another kind. -/
theorem takeWhile_run : (cs ++ rest).takeWhile p = cs := by
  rw [List.takeWhile_append_of_pos h]
  cases rest with
  | nil => simp
  | cons c rest => simp [hrest c rfl]

/-- What is left of a text begins with the first character of another kind. -/
theorem dropWhile_run : (cs ++ rest).dropWhile p = rest := by
  rw [List.dropWhile_append_of_pos h]
  cases rest with
  | nil => simp
  | cons c rest => simp [hrest c rfl]

end Runs

/-- A word without a date in front goes up to the end of the line. -/
theorem spanWord_append {word : List Char} (h : ∀ c ∈ word, isWordChar c = true)
    (hdate : date? word = none) (rest : List Char) :
    spanWord (word ++ '\n' :: rest) = (word, '\n' :: rest) := by
  have hline : ∀ c ∈ ('\n' :: rest).head?, isWordChar c = false := by
    rintro c ⟨⟩
    rfl
  simp only [spanWord, takeWhile_run h hline, dropWhile_run h hline, hdate]

/-! ## Values -/

/-- A plain value as a value of a document. -/
def Scalar.toToml : Scalar → Toml
  | text s => .text s
  | bool b => .bool b
  | count n => .integer n

namespace Reader

section Sequence

variable {α β : Type} {cs : List Char}

/-- A reader that goes on after another one goes on where it has stopped. -/
theorem bind_of_some {x : Reader α} {f : α → Reader β} {rest : List Char} {a : α}
    (h : x cs = some (a, rest)) : (x >>= f) cs = f a rest := by
  simp only [bind, StateT.bind, h, Option.bind]

/-- Readers that come to the same are gone on from alike. -/
theorem bind_congr {x : Reader α} {rest : List Char} (h : x cs = x rest) (f : α → Reader β) :
    (x >>= f) cs = (x >>= f) rest := by
  simp only [bind, StateT.bind, h]

/-- A reader that asks for the text goes on with it. -/
theorem get_bind (f : List Char → Reader β) : ((get : Reader (List Char)) >>= f) cs = f cs cs :=
  rfl

/-- A reader that is given a value goes on with it. -/
theorem lift_bind {x : Option α} {a : α} (h : x = some a) (f : α → Reader β) :
    ((liftM x : Reader α) >>= f) cs = f a cs := by
  subst h
  rfl

/-- A look at the next character leaves it there. -/
theorem peek_cons (c : Char) (cs : List Char) : peek (c :: cs) = some (some c, c :: cs) :=
  rfl

end Sequence

/-- A text is read if its characters are. -/
theorem quoted_of_read {cs s rest : List Char} (h : Quoted.read cs = some (s, rest)) :
    quoted cs = some (.text (String.ofList s), rest) := by
  rw [quoted, get_bind, lift_bind h]
  rfl

/-- A word is read up to the end of the line. -/
theorem scalar_of_word {word : List Char} {v : Toml} (hchars : ∀ c ∈ word, isWordChar c = true)
    (hdate : date? word = none) (h : word? word = some v) (rest : List Char) :
    scalar (word ++ '\n' :: rest) = some (v, '\n' :: rest) := by
  rw [scalar, get_bind, spanWord_append hchars hdate]
  change (liftM (word? word) : Reader Toml) ('\n' :: rest) = _
  rw [h]
  rfl

/-- A value that begins with a quote is a quoted text. -/
theorem valueWithin_quoted (fuel room : Nat) {c : Char} (h : c = '"' ∨ c = '\'')
    (cs : List Char) : valueWithin (fuel + 1) room (c :: cs) = quoted (c :: cs) := by
  rw [valueWithin, bind_of_some (peek_cons c cs)]
  rcases h with rfl | rfl <;> rfl

/-- A value that begins with a character of a word is a word. -/
theorem valueWithin_word (fuel room : Nat) {c : Char} (h : isWordChar c = true)
    (cs : List Char) : valueWithin (fuel + 1) room (c :: cs) = scalar (c :: cs) := by
  rw [valueWithin, bind_of_some (peek_cons c cs)]
  refine congrFun (?_ : _ = scalar) (c :: cs)
  split
  · next heq => cases heq; exact absurd h (by decide)
  · next heq => cases heq; exact absurd h (by decide)
  · next heq => cases heq; exact absurd h (by decide)
  · next heq => cases heq; exact absurd h (by decide)
  · rfl

/-- A word of at least one character is read as a value. -/
theorem readValue_of_word {word : List Char} {v : Toml} (hne : word ≠ [])
    (hchars : ∀ c ∈ word, isWordChar c = true) (hdate : date? word = none)
    (h : word? word = some v) (rest : List Char) :
    readValue (word ++ '\n' :: rest) = some (v, '\n' :: rest) := by
  obtain ⟨c, cs, rfl⟩ := List.exists_cons_of_ne_nil hne
  rw [readValue, get_bind, List.cons_append, valueWithin_word _ _ (hchars c (by simp)),
    ← List.cons_append]
  exact scalar_of_word hchars hdate h rest

/-- A plain value is read back at the end of a line. -/
theorem readValue_write {v : Scalar} (h : v.fits = true) (rest : List Char) :
    readValue (v.write ++ '\n' :: rest) = some (v.toToml, '\n' :: rest) := by
  cases v with
  | text s =>
      have hdouble : Quoted.Avoids '"' ('\n' :: rest) := Quoted.avoids_cons (by decide) rest
      have hsingle : Quoted.Avoids '\'' ('\n' :: rest) := Quoted.avoids_cons (by decide) rest
      have hread := quoted_of_read (Quoted.read_quote s hdouble hsingle)
      obtain ⟨c, cs, hquote, hc⟩ := Quoted.head_quote s
      rw [hquote, String.ofList_toList] at hread
      rw [Scalar.write, hquote, readValue, get_bind, List.cons_append, valueWithin_quoted _ _ hc]
      exact hread
  | bool b =>
      cases b
      · exact readValue_of_word (by decide) (List.all_eq_true.mp rfl) rfl rfl rest
      · exact readValue_of_word (by decide) (List.all_eq_true.mp rfl) rfl rfl rest
  | count n =>
      have hdigits : ∀ c ∈ digitsOf n, c.isDigit = true := fun _ => isDigit_of_mem_digitsOf
      have hchars : ∀ c ∈ digitsOf n, isWordChar c = true := fun c hc => by
        simp [isWordChar, Char.isAlphanum, hdigits c hc]
      exact readValue_of_word Nat.toDigits_ne_nil hchars (date?_of_digits hdigits)
        (word?_digitsOf (by simpa [Scalar.fits] using h)) rest

/-- A character of a kind that no blank is of is no blank. -/
theorem not_isSpace_of {p : Char → Bool} (hspace : p ' ' = false) (htab : p '\t' = false) {c : Char}
    (h : p c = true) : isSpace c = false := by
  have hne : c ≠ ' ' ∧ c ≠ '\t' := by
    constructor <;> rintro rfl
    · simp [hspace] at h
    · simp [htab] at h
  simp [isSpace, hne]

/-- A plain value is not written with a blank in front. -/
theorem dropWhile_write (v : Scalar) (rest : List Char) :
    (v.write ++ rest).dropWhile isSpace = v.write ++ rest := by
  suffices hhead : ∃ c cs, v.write = c :: cs ∧ isSpace c = false by
    obtain ⟨c, cs, hwrite, hc⟩ := hhead
    rw [hwrite, List.cons_append, List.dropWhile_cons_of_neg (by simp [hc])]
  cases v with
  | text s =>
      obtain ⟨c, cs, hquote, hc⟩ := Quoted.head_quote s
      exact ⟨c, cs, hquote, by rcases hc with rfl | rfl <;> rfl⟩
  | bool b => cases b <;> exact ⟨_, _, rfl, rfl⟩
  | count n =>
      obtain ⟨c, cs, hdigits⟩ : ∃ c cs, digitsOf n = c :: cs :=
        List.exists_cons_of_ne_nil Nat.toDigits_ne_nil
      have hc : c.isDigit = true := isDigit_of_mem_digitsOf (hdigits ▸ List.mem_cons_self)
      exact ⟨c, cs, hdigits, not_isSpace_of rfl rfl hc⟩

end Reader

end Trampoline.Toml
