import Trampoline.Json.Reader

/-!
# The tokens of a written document

The text of a document is cut into the tokens that the document has.  A quoted text is cut off at
its closing quote, because every quote inside it is escaped; a number is cut off in front of what
may follow it in a document.

Whether the text of a float is read as this float is not shown here: the reader of numbers is not
exact.  A document is legible if it is so for every number in it.

Main definitions and results:

- Definition `Inverts`: reading the text of a float gives it back.
- Definition `toTokens`: the tokens of a document.
- Theorem `tokens_render`: the text of a legible document is cut into the tokens of the document.
-/

namespace Trampoline.Json

/-! ## Quoted texts -/

/-- The digit of a number is read as the number. -/
theorem hexValue?_hexDigit : ∀ n < 16, Text.hexValue? (hexDigit n) = some n := by
  decide

/-- The escape of a control character is read as its number. -/
theorem hexEscape_control {n : Nat} (h : n < 0x20) (rest : List Char) :
    hexEscape ('0' :: '0' :: hexDigit (n / 16) :: hexDigit (n % 16) :: rest) = .ok (n, rest) := by
  have hzero : Text.hexValue? '0' = some 0 := by decide
  have hhigh := hexValue?_hexDigit (n / 16) (by omega)
  have hlow := hexValue?_hexDigit (n % 16) (by omega)
  simp only [hexEscape, hzero, hhigh, hlow]
  congr 2
  omega

/-- A character is escaped by one letter, or by its number, or it stands for itself. -/
theorem escapeChar_cases (c : Char) :
    (∃ e, escapeChar c = ['\\', e] ∧ e ≠ 'u' ∧ simpleEscape? e = some c) ∨
      (c.toNat < 0x20 ∧ escapeChar c =
        ['\\', 'u', '0', '0', hexDigit (c.toNat / 16), hexDigit (c.toNat % 16)]) ∨
      (escapeChar c = [c] ∧ c ≠ '"' ∧ c ≠ '\\' ∧ ¬c.toNat < 0x20) := by
  unfold escapeChar
  split
  · next h => exact .inl ⟨'"', rfl, by decide, by rw [h]; rfl⟩
  split
  · next h => exact .inl ⟨'\\', rfl, by decide, by rw [h]; rfl⟩
  split
  · next h => exact .inl ⟨'n', rfl, by decide, h ▸ rfl⟩
  split
  · next h => exact .inl ⟨'r', rfl, by decide, h ▸ rfl⟩
  split
  · next h => exact .inl ⟨'t', rfl, by decide, h ▸ rfl⟩
  split
  · next h => exact .inl ⟨'b', rfl, by decide, h ▸ rfl⟩
  split
  · next h => exact .inl ⟨'f', rfl, by decide, h ▸ rfl⟩
  split
  · next h => exact .inr (.inl ⟨h, rfl⟩)
  · next hquote hslash _ _ _ _ _ hcontrol => exact .inr (.inr ⟨rfl, hquote, hslash, hcontrol⟩)

/-- The escape of a character is read as the character. -/
theorem readText_escapeChar (fuel : Nat) (acc : List Char) (c : Char) (rest : List Char) :
    readText (fuel + 1) acc (escapeChar c ++ rest) = readText fuel (c :: acc) rest := by
  rcases escapeChar_cases c with ⟨e, he, hne, hs⟩ | ⟨hc, he⟩ | ⟨he, hquote, hslash, hc⟩
  · rw [he]
    simp only [List.cons_append, List.nil_append, readText, hne, if_false, hs]
  · have hescape : unicodeEscape
        ('0' :: '0' :: hexDigit (c.toNat / 16) :: hexDigit (c.toNat % 16) :: rest) =
          .ok (c, rest) := by
      have hlow : ¬(0xdc00 ≤ c.toNat ∧ c.toNat ≤ 0xdfff) := by omega
      have hhigh : ¬(0xd800 ≤ c.toNat ∧ c.toNat ≤ 0xdbff) := by omega
      simp only [unicodeEscape, hexEscape_control hc]
      simp [bind, Except.bind, hlow, hhigh]
    rw [he]
    simp only [List.cons_append, List.nil_append, readText, if_true, hescape]
  · rw [he]
    simp [readText, hslash, hc]

/-- The escape of a character is passed over as a whole. -/
theorem skipText_escapeChar (fuel : Nat) (c : Char) (rest : List Char) :
    skipText (fuel + 1) (escapeChar c ++ rest) = skipText fuel rest := by
  rcases escapeChar_cases c with ⟨e, he, hne, hs⟩ | ⟨hc, he⟩ | ⟨he, hquote, hslash, hc⟩
  · rw [he]
    simp [skipText, hne, hs]
  · rw [he]
    simp only [List.cons_append, List.nil_append, skipText, if_true, hexEscape_control hc]
  · rw [he]
    simp [skipText, hslash, hc]

/-- Reading escaped characters up to the closing quote gives them back. -/
theorem readText_escaped (s : List Char) {fuel : Nat} (hfuel : s.length < fuel)
    (acc rest : List Char) :
    readText fuel acc (s.flatMap escapeChar ++ '"' :: rest) = .ok (s.reverse ++ acc) := by
  induction s generalizing fuel acc with
  | nil =>
      obtain ⟨fuel, rfl⟩ := Nat.exists_eq_add_of_lt hfuel
      simp [readText]
  | cons c s ih =>
      obtain ⟨fuel, rfl⟩ : ∃ k, fuel = k + 1 := ⟨fuel - 1, by simp at hfuel; omega⟩
      rw [List.flatMap_cons, List.append_assoc, readText_escapeChar,
        ih (by simpa using hfuel) (c :: acc)]
      simp

/-- Passing over escaped characters ends behind the closing quote. -/
theorem skipText_escaped (s : List Char) {fuel : Nat} (hfuel : s.length < fuel)
    (rest : List Char) :
    skipText fuel (s.flatMap escapeChar ++ '"' :: rest) = .ok rest := by
  induction s generalizing fuel with
  | nil =>
      obtain ⟨fuel, rfl⟩ := Nat.exists_eq_add_of_lt hfuel
      simp [skipText]
  | cons c s ih =>
      obtain ⟨fuel, rfl⟩ : ∃ k, fuel = k + 1 := ⟨fuel - 1, by simp at hfuel; omega⟩
      rw [List.flatMap_cons, List.append_assoc, skipText_escapeChar, ih (by simpa using hfuel)]

/-- Escapes do not make a text shorter. -/
theorem length_le_escaped (s : List Char) : s.length ≤ (s.flatMap escapeChar).length := by
  induction s with
  | nil => simp
  | cons c s ih =>
      have hone : 1 ≤ (escapeChar c).length := by
        rcases escapeChar_cases c with ⟨e, he, -⟩ | ⟨-, he⟩ | ⟨he, -⟩ <;> simp [he]
      simp only [List.flatMap_cons, List.length_append, List.length_cons]
      omega

/-! ## Numbers -/

/-- What may follow a value in a document. -/
def Ends : List Char → Prop
  | [] => True
  | c :: _ => c = ',' ∨ c = ']' ∨ c = '\x7d'

/-- The number reader, with the sign in front of the number. -/
def readSigned : List Char → Except Fault Number × Except Fault Unit × List Char
  | '-' :: cs => readNumber true cs
  | cs => readNumber false cs

/-- The number reader gives back a float from the text that is written for it. -/
def Inverts (x : Float) : Prop :=
  readSigned (Number.real x).render = (.ok (.real x), .ok (), [])

/-- The digits at the start of a text are the same with more text behind it. -/
theorem spanDigits_append (cs : List Char) {rest : List Char} (ends : Ends rest) :
    Text.spanDigits (cs ++ rest) =
      ((Text.spanDigits cs).1, (Text.spanDigits cs).2 ++ rest) := by
  induction cs with
  | nil =>
      cases rest with
      | nil => rfl
      | cons c rest =>
          have hc : c.isDigit = false := by rcases ends with rfl | rfl | rfl <;> rfl
          simp [Text.spanDigits, hc]
  | cons c cs ih =>
      simp only [Text.spanDigits, Prod.mk.injEq] at ih
      cases hc : c.isDigit <;> simp [Text.spanDigits, hc, ih]

/-- The end of a number with an exponent, of which the sign has been read. -/
def exponentDigits (s : Significand) (negative negativeExponent : Bool) (cs : List Char) :
    Except Fault Number × Except Fault Unit × List Char :=
  match cs with
  | [] => (.error .ended, .error .malformed, [])
  | _ =>
    let (digits, rest) := Text.spanDigits cs
    if digits.isEmpty then (.error .malformed, .error .malformed, rest)
    else
      let magnitude : Nat := Text.natOfDigits digits
      let exponent : Int := if negativeExponent then -(magnitude : Int) else magnitude
      let content : Except Fault Number :=
        if magnitude < Nat.pow 2 31 then realNumber s negative exponent
        else if s.value ≠ 0 ∧ !negativeExponent then .error .malformed
        else .ok (.real (if negative then -0.0 else 0.0))
      (content, .ok (), rest)

/-- What follows the digits behind the point. -/
def afterFraction (s : Significand) (negative : Bool) (cs : List Char) :
    Except Fault Number × Except Fault Unit × List Char :=
  match cs with
  | 'e' :: rest => exponentPart s negative rest
  | 'E' :: rest => exponentPart s negative rest
  | _ => (realNumber s negative 0, .ok (), cs)

section Append

variable {s : Significand} {negative : Bool} {cs left rest : List Char} {n : Number}
  {skipped : Except Fault Unit}

/-- The digits of an exponent are read as they are with more text behind them. -/
theorem exponentDigits_append (negativeExponent : Bool) (ends : Ends rest)
    (h : exponentDigits s negative negativeExponent cs = (.ok n, skipped, left)) :
    exponentDigits s negative negativeExponent (cs ++ rest) = (.ok n, skipped, left ++ rest) := by
  cases cs with
  | nil => simp [exponentDigits] at h
  | cons c cs =>
      have happ := spanDigits_append (c :: cs) ends
      simp only [exponentDigits, List.cons_append] at h happ ⊢
      rw [happ]
      cases hd : (Text.spanDigits (c :: cs)).1.isEmpty with
      | true => simp [hd] at h
      | false =>
          simp only [hd, Bool.false_eq_true, if_false, Prod.mk.injEq] at h ⊢
          obtain ⟨hn, hs, rfl⟩ := h
          exact ⟨hn, hs, rfl⟩

/-- An exponent is read as it is with more text behind it. -/
theorem exponentPart_append (ends : Ends rest)
    (h : exponentPart s negative cs = (.ok n, skipped, left)) :
    exponentPart s negative (cs ++ rest) = (.ok n, skipped, left ++ rest) := by
  cases cs with
  | nil => simp [exponentPart] at h
  | cons c cs =>
      by_cases hplus : c = '+'
      · subst hplus
        exact exponentDigits_append false ends h
      by_cases hminus : c = '-'
      · subst hminus
        exact exponentDigits_append true ends h
      have hother : ∀ cs, exponentPart s negative (c :: cs) =
          exponentDigits s negative false (c :: cs) := fun cs => by
        unfold exponentPart
        split
        next heq =>
          obtain ⟨rfl, rfl⟩ : _ = false ∧ _ = c :: cs := by
            simpa [hplus, hminus, eq_comm] using heq
          rfl
      rw [hother] at h
      rw [List.cons_append, hother]
      exact exponentDigits_append false ends h

/-- What follows a fraction is read as it is with more text behind it. -/
theorem afterFraction_append (ends : Ends rest)
    (h : afterFraction s negative cs = (.ok n, skipped, left)) :
    afterFraction s negative (cs ++ rest) = (.ok n, skipped, left ++ rest) := by
  cases cs with
  | nil =>
      obtain ⟨hn, rfl, rfl⟩ : realNumber s negative 0 = .ok n ∧ .ok () = skipped ∧ [] = left := by
        simpa [afterFraction] using h
      cases rest with
      | nil => simpa using h
      | cons c rest => rcases ends with rfl | rfl | rfl <;> simp [afterFraction, hn]
  | cons c cs =>
      by_cases hsmall : c = 'e'
      · subst hsmall
        exact exponentPart_append ends h
      by_cases hlarge : c = 'E'
      · subst hlarge
        exact exponentPart_append ends h
      obtain ⟨hn, rfl, rfl⟩ :
          realNumber s negative 0 = .ok n ∧ .ok () = skipped ∧ c :: cs = left := by
        simpa [afterFraction, hsmall, hlarge] using h
      simp [afterFraction, hsmall, hlarge, hn]

/-- What follows the whole part of a number is read as it is with more text behind it. -/
theorem afterWhole_append (ends : Ends rest)
    (h : afterWhole s negative cs = (.ok n, skipped, left)) :
    afterWhole s negative (cs ++ rest) = (.ok n, skipped, left ++ rest) := by
  cases cs with
  | nil =>
      cases rest with
      | nil => simpa using h
      | cons c rest =>
          obtain ⟨hn, rfl, rfl⟩ :
              wholeNumber s negative = .ok n ∧ .ok () = skipped ∧ [] = left := by
            simpa [afterWhole] using h
          rcases ends with rfl | rfl | rfl <;> simp [afterWhole, hn]
  | cons c cs =>
      by_cases hpoint : c = '.'
      · subst hpoint
        have happ := spanDigits_append cs ends
        simp only [afterWhole, List.cons_append] at h ⊢
        rw [happ]
        cases hd : (Text.spanDigits cs).1.isEmpty with
        | true => simp [hd] at h
        | false =>
            simp only [hd, Bool.false_eq_true, if_false] at h ⊢
            exact afterFraction_append ends h
      by_cases hsmall : c = 'e'
      · subst hsmall
        exact exponentPart_append ends h
      by_cases hlarge : c = 'E'
      · subst hlarge
        exact exponentPart_append ends h
      obtain ⟨hn, rfl, rfl⟩ :
          wholeNumber s negative = .ok n ∧ .ok () = skipped ∧ c :: cs = left := by
        simpa [afterWhole, hpoint, hsmall, hlarge] using h
      simp [afterWhole, hpoint, hsmall, hlarge, hn]

/-- A number that does not begin with a zero may have any number of digits in front. -/
theorem readNumber_of_ne {c : Char} (hzero : c ≠ '0') (cs : List Char) :
    readNumber negative (c :: cs) =
      if (Text.spanDigits (c :: cs)).1.isEmpty then
        (.error .malformed, .error .malformed, (Text.spanDigits (c :: cs)).2)
      else
        afterWhole ((Text.spanDigits (c :: cs)).1.foldl
          (fun s c => s.pushWhole (Text.digitValue c)) ⟨0, 0, false⟩) negative
          (Text.spanDigits (c :: cs)).2 := by
  unfold readNumber
  split
  · next heq => cases heq
  · next heq => exact absurd (List.cons.inj heq).1 hzero
  · rfl

/-- A number is read as it is with more text behind it. -/
theorem readNumber_append (ends : Ends rest)
    (h : readNumber negative cs = (.ok n, skipped, left)) :
    readNumber negative (cs ++ rest) = (.ok n, skipped, left ++ rest) := by
  cases cs with
  | nil => simp [readNumber] at h
  | cons c cs =>
      by_cases hzero : c = '0'
      · subst hzero
        cases cs with
        | nil =>
            have hwhole : afterWhole ⟨0, 0, false⟩ negative [] = (.ok n, skipped, left) := h
            have happ := afterWhole_append ends hwhole
            cases rest with
            | nil => simpa using h
            | cons d rest =>
                have hd : d.isDigit = false := by rcases ends with rfl | rfl | rfl <;> rfl
                simpa [readNumber, hd] using happ
        | cons d cs =>
            simp only [readNumber, List.cons_append] at h ⊢
            cases hd : d.isDigit with
            | true => simp [hd] at h
            | false =>
                simp only [hd, Bool.false_eq_true, if_false] at h ⊢
                rw [← List.cons_append]
                exact afterWhole_append ends h
      · have happ := spanDigits_append (c :: cs) ends
        rw [readNumber_of_ne hzero] at h
        rw [List.cons_append, readNumber_of_ne hzero, ← List.cons_append, happ]
        cases hd : (Text.spanDigits (c :: cs)).1.isEmpty with
        | true => simp [hd] at h
        | false =>
            simp only [hd, Bool.false_eq_true, if_false] at h ⊢
            exact afterWhole_append ends h

end Append

/-- A number without sign begins with a digit. -/
theorem isDigit_of_readNumber {negative : Bool} {cs left : List Char} {n : Number}
    {skipped : Except Fault Unit} (h : readNumber negative cs = (.ok n, skipped, left)) :
    ∃ c rest, cs = c :: rest ∧ c.isDigit = true := by
  cases cs with
  | nil => simp [readNumber] at h
  | cons c cs =>
      refine ⟨c, cs, rfl, ?_⟩
      by_cases hzero : c = '0'
      · rw [hzero]
        rfl
      · cases hc : c.isDigit with
        | true => rfl
        | false =>
            rw [readNumber_of_ne hzero] at h
            simp [Text.spanDigits, hc] at h

/-! ## The tokens of a document -/

mutual

/-- The tokens of a document. -/
def toTokens : Json → List Token
  | null => [.null]
  | bool b => [.bool b]
  | number n => [.number (.ok n) (.ok ())]
  | text s => [.text (.ok s) (.ok ())]
  | array items => .openBracket :: itemTokens true items
  | object members => .openBrace :: memberTokens true members

/-- The tokens of items and of the end of the array. -/
def itemTokens : Bool → List Json → List Token
  | _, [] => [.closeBracket]
  | isFirst, j :: rest =>
    (if isFirst then [] else [.comma]) ++ (toTokens j ++ itemTokens false rest)

/-- The tokens of members and of the end of the object. -/
def memberTokens : Bool → List (String × Json) → List Token
  | _, [] => [.closeBrace]
  | isFirst, (key, j) :: rest =>
    (if isFirst then [] else [.comma]) ++
      .text (.ok key) (.ok ()) :: .colon :: (toTokens j ++ memberTokens false rest)

end

mutual

/-- Each number of a document is read back from its text. -/
def Legible : Json → Prop
  | number (.real x) => Inverts x
  | number _ => False
  | array items => ItemsLegible items
  | object members => MembersLegible members
  | _ => True

/-- The numbers of all items are read back. -/
def ItemsLegible : List Json → Prop
  | [] => True
  | j :: rest => Legible j ∧ ItemsLegible rest

/-- The numbers of all members are read back. -/
def MembersLegible : List (String × Json) → Prop
  | [] => True
  | (_, j) :: rest => Legible j ∧ MembersLegible rest

end

/-- A text is cut into tokens, whatever follows it of the given kind. -/
def Cuts (follows : List Char → Prop) (cs : List Char) (ts : List Token) : Prop :=
  ∀ (fuel : Nat) (rest : List Char), follows rest → (cs ++ rest).length < fuel →
    ∃ left, rest.length < left ∧ tokensWithin fuel (cs ++ rest) = ts ++ tokensWithin left rest

/-- Any text may follow. -/
def Anything (_ : List Char) : Prop :=
  True

namespace Cuts

variable {follows next : List Char → Prop} {cs ds : List Char} {ts us : List Token}

/-- Texts in a row are cut into their tokens in a row. -/
theorem append (first : Cuts follows cs ts) (second : Cuts next ds us)
    (h : ∀ rest, next rest → follows (ds ++ rest)) : Cuts next (cs ++ ds) (ts ++ us) := by
  intro fuel rest hrest hfuel
  rw [List.append_assoc] at hfuel ⊢
  obtain ⟨left, hleft, heq⟩ := first fuel (ds ++ rest) (h rest hrest) hfuel
  obtain ⟨left', hleft', heq'⟩ := second left rest hrest hleft
  exact ⟨left', hleft', by rw [heq, heq', List.append_assoc]⟩

/-- Less may follow a text. -/
theorem mono (h : Cuts follows cs ts) (hnext : ∀ rest, next rest → follows rest) :
    Cuts next cs ts :=
  fun fuel rest hrest hfuel => h fuel rest (hnext rest hrest) hfuel

/-- A token whose first character tells what it is. -/
theorem token {c : Char} {t : Token} (cs : List Char) (blank : isBlank c = false)
    (h : ∀ fuel rest, follows rest → cs.length + rest.length < fuel →
      tokenAt fuel c (cs ++ rest) = (t, rest)) : Cuts follows (c :: cs) [t] := by
  intro fuel rest hrest hfuel
  obtain ⟨fuel, rfl⟩ : ∃ k, fuel = k + 1 := ⟨fuel - 1, by simp at hfuel; omega⟩
  have hlt : cs.length + rest.length < fuel := by simpa using hfuel
  refine ⟨fuel, by omega, ?_⟩
  simp [tokensWithin, blank, h fuel rest hrest hlt]

/-- A token of one character. -/
theorem single {c : Char} {t : Token} (blank : isBlank c = false)
    (h : ∀ fuel rest, tokenAt fuel c rest = (t, rest)) : Cuts Anything [c] [t] :=
  token [] blank fun fuel rest _ _ => h fuel rest

/-- A quoted text. -/
theorem quoted (s : String) : Cuts Anything (renderText s) [.text (.ok s) (.ok ())] := by
  refine token (s.toList.flatMap escapeChar ++ ['"']) rfl fun fuel rest _ hfuel => ?_
  have hlength := length_le_escaped s.toList
  have hlt : s.toList.length < fuel := by
    simp only [List.length_append, List.length_singleton] at hfuel
    omega
  have happend : s.toList.flatMap escapeChar ++ ['"'] ++ rest =
      s.toList.flatMap escapeChar ++ '"' :: rest := by simp
  simp only [tokenAt, textToken, happend, readText_escaped s.toList hlt,
    skipText_escaped s.toList hlt]
  simp [Except.map, String.ofList_toList]

/-- A digit begins a number. -/
theorem tokenAt_digit {c : Char} (h : c.isDigit = true) (fuel : Nat) (rest : List Char) :
    tokenAt fuel c rest = numberToken false (c :: rest) := by
  unfold tokenAt
  split <;> first | exact absurd h (by decide) | simp [h]

/-- A float that can be read back. -/
theorem real {x : Float} (h : Inverts x) :
    Cuts Ends (Number.real x).render [.number (.ok (.real x)) (.ok ())] := by
  unfold Inverts at h
  generalize (Number.real x).render = cs at h
  cases cs with
  | nil => simp [readSigned, readNumber] at h
  | cons c cs =>
      by_cases hsign : c = '-'
      · subst hsign
        have hread : readNumber true cs = (.ok (.real x), .ok (), []) := h
        refine token cs rfl fun fuel rest ends _ => ?_
        simp [tokenAt, numberToken, readNumber_append ends hread]
      · have hread : readNumber false (c :: cs) = (.ok (.real x), .ok (), []) := by
          unfold readSigned at h
          split at h
          · next heq => exact absurd (List.cons.inj heq).1 hsign
          · exact h
        obtain ⟨d, ds, hcons, hdigit⟩ := isDigit_of_readNumber hread
        obtain ⟨rfl, rfl⟩ := List.cons.inj hcons
        have hblank : isBlank c = false := by
          cases hb : isBlank c with
          | false => rfl
          | true =>
              simp only [isBlank, Bool.or_eq_true, decide_eq_true_eq] at hb
              rcases hb with ((rfl | rfl) | rfl) | rfl <;> exact absurd hdigit (by decide)
        refine token cs hblank fun fuel rest ends _ => ?_
        have happ := readNumber_append ends hread
        simp only [List.cons_append] at happ
        simp [tokenAt_digit hdigit, numberToken, happ]

end Cuts

/-- What begins with a comma or with the end of an array may follow a value. -/
theorem ends_renderItems (items : List Json) (rest : List Char) :
    Ends (renderItems items ++ rest) := by
  cases items with
  | nil => exact .inr (.inl rfl)
  | cons j items => exact .inl rfl

/-- What begins with a comma or with the end of an object may follow a value. -/
theorem ends_renderMembers (members : List (String × Json)) (rest : List Char) :
    Ends (renderMembers members ++ rest) := by
  cases members with
  | nil => exact .inr (.inr rfl)
  | cons member members => exact .inl rfl

/-- A comma is a token. -/
theorem cuts_comma : Cuts Anything [','] [.comma] :=
  .single rfl fun _ _ => rfl

/-- A key and the colon behind it. -/
theorem cuts_key (key : String) :
    Cuts Anything (renderText key ++ [':']) [.text (.ok key) (.ok ()), .colon] :=
  have colon : Cuts Anything [':'] [.colon] := .single rfl fun _ _ => rfl
  (Cuts.quoted key).append colon fun _ _ => trivial

mutual

/-- The text of a legible document is cut into its tokens. -/
theorem cuts_render : ∀ j : Json, j.Legible → Cuts Ends j.renderChars j.toTokens
  | null, _ => .token ['u', 'l', 'l'] rfl fun _ _ _ _ => rfl
  | bool true, _ => .token ['r', 'u', 'e'] rfl fun _ _ _ _ => rfl
  | bool false, _ => .token ['a', 'l', 's', 'e'] rfl fun _ _ _ _ => rfl
  | number (.real _), h => .real h
  | text s, _ => (Cuts.quoted s).mono fun _ _ => trivial
  | array items, h => (cuts_array items h).mono fun _ _ => trivial
  | object members, h => (cuts_object members h).mono fun _ _ => trivial

/-- The text of a legible array is cut into its tokens. -/
theorem cuts_array : ∀ items : List Json, ItemsLegible items →
    Cuts Anything (array items).renderChars (array items).toTokens
  | [], _ =>
    have opening : Cuts Anything ['['] [.openBracket] := .single rfl fun _ _ => rfl
    have closing : Cuts Anything [']'] [.closeBracket] := .single rfl fun _ _ => rfl
    opening.append closing fun _ _ => trivial
  | j :: items, h => by
    have opening : Cuts Anything ['['] [.openBracket] := .single rfl fun _ _ => rfl
    have parts := opening.append ((cuts_render j h.1).append (cuts_renderItems items h.2)
      fun rest _ => ends_renderItems items rest) fun _ _ => trivial
    simpa [renderChars, toTokens, itemTokens] using parts

/-- The text of a legible object is cut into its tokens. -/
theorem cuts_object : ∀ members : List (String × Json), MembersLegible members →
    Cuts Anything (object members).renderChars (object members).toTokens
  | [], _ =>
    have opening : Cuts Anything ['\x7b'] [.openBrace] := .single rfl fun _ _ => rfl
    have closing : Cuts Anything ['\x7d'] [.closeBrace] := .single rfl fun _ _ => rfl
    opening.append closing fun _ _ => trivial
  | (key, j) :: members, h => by
    have opening : Cuts Anything ['\x7b'] [.openBrace] := .single rfl fun _ _ => rfl
    have member := (cuts_key key).append ((cuts_render j h.1).append
      (cuts_renderMembers members h.2) fun rest _ => ends_renderMembers members rest)
      fun _ _ => trivial
    simpa [renderChars, toTokens, memberTokens] using opening.append member fun _ _ => trivial

/-- The rest of a legible array is cut into its tokens. -/
theorem cuts_renderItems : ∀ items : List Json, ItemsLegible items →
    Cuts Anything (renderItems items) (itemTokens false items)
  | [], _ => .single rfl fun _ _ => rfl
  | j :: items, h => by
    have parts := cuts_comma.append ((cuts_render j h.1).append (cuts_renderItems items h.2)
      fun rest _ => ends_renderItems items rest) fun _ _ => trivial
    simpa [renderItems, itemTokens] using parts

/-- The rest of a legible object is cut into its tokens. -/
theorem cuts_renderMembers : ∀ members : List (String × Json), MembersLegible members →
    Cuts Anything (renderMembers members) (memberTokens false members)
  | [], _ => .single rfl fun _ _ => rfl
  | (key, j) :: members, h => by
    have member := (cuts_key key).append ((cuts_render j h.1).append
      (cuts_renderMembers members h.2) fun rest _ => ends_renderMembers members rest)
      fun _ _ => trivial
    simpa [renderMembers, memberTokens] using cuts_comma.append member fun _ _ => trivial

end

/-- The text of a legible document is cut into the tokens of the document. -/
theorem tokens_render {j : Json} (h : j.Legible) : tokens j.render = j.toTokens := by
  obtain ⟨left, hleft, heq⟩ :=
    cuts_render j h (j.renderChars.length + 1) [] trivial (by simp)
  obtain ⟨left, rfl⟩ : ∃ k, left = k + 1 := ⟨left - 1, by simp at hleft; omega⟩
  simpa [tokens, render, tokensWithin] using heq

end Trampoline.Json
