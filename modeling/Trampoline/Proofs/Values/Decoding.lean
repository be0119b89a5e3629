import Trampoline.Proofs.Values.Written

/-!
# Values come back from their texts

A text is read from left to right, and what is read depends on the order of a tag and its content.
If the tag is first, the content is read as the tag demands; if the content is first, it is read
as a document, and looked at when the tag is known.  Both give the value for which the text has
been written, or refuse it because a number in it is not finite.

Main results:

- Theorem `readWithin_written`: what the tokens of the documents of a value are read as.
- Theorem `decode_written`: what the texts of a value are read as.
-/

namespace Trampoline.Value

open Json Json.Reader

variable {α β : Type}

/-! ## Readers -/

/-- Readers after one another give back what they have read, if all numbers are finite. -/
theorem bind_of_shown {x : Reader α} {f : α → Reader β} {ts us vs : List Token} {a : α} {b : β}
    {ns ms : List Float} (h : x ts = shown ns (a, us)) (hf : f a us = shown ms (b, vs)) :
    (x >>= f) ts = shown (ns ++ ms) (b, vs) := by
  have hbind := shown_bind ns ms (a, us) (f := fun (a, us) => f a us) hf
  rw [← h] at hbind
  exact hbind

/-- What is read is given back after it has been worked on. -/
theorem bind_of_shown_pure {x : Reader α} {f : α → Reader β} {ts us vs : List Token} {a : α}
    {b : β} {ns : List Float} (h : x ts = shown ns (a, us)) (hf : f a us = .ok (b, vs)) :
    (x >>= f) ts = shown ns (b, vs) := by
  have hpure : f a us = shown [] (b, vs) := hf
  simpa using bind_of_shown h hpure

/-- What is looked at is not taken from the tokens. -/
theorem lift_shown (ns : List Float) (a : α) (ts : List Token) :
    (liftM (shown ns a) : Reader α) ts = shown ns (a, ts) := by
  unfold shown
  split <;> rfl

/-- The key that means something. -/
def Mark.key : Mark → String
  | tag => "t"
  | content => "v"

/-- The first mark of an object has no comma in front. -/
theorem mark?_first (m : Mark) (ts : List Token) :
    mark? true (.text (.ok m.key) (.ok ()) :: ts) = .ok (some m, ts) := by
  cases m <;> rfl

/-- The second mark of an object has a comma in front. -/
theorem mark?_next (m : Mark) (ts : List Token) :
    mark? false (.comma :: .text (.ok m.key) (.ok ()) :: ts) = .ok (some m, ts) := by
  cases m <;> rfl

/-- The name of a tag is read as the tag. -/
theorem readTag_name (room : Nat) (v : Value) (ts : List Token) :
    readTag room (.text (.ok v.tagName) (.ok ()) :: ts) = .ok (v.tag, ts) := by
  cases v <;> rfl

/-- The tokens of an error are read as the error. -/
theorem readError_errorToJson (info : ErrorInfo) {room : Nat} (hroom : 1 ≤ room)
    (ts : List Token) :
    readError room ((errorToJson info).toTokens ++ ts) = .ok (info, ts) := by
  obtain ⟨room, rfl⟩ := Nat.exists_eq_add_of_le' hroom
  rfl

/-! ## Levels -/

/-- The order of the members does not matter to their nesting. -/
theorem memberLevels_perm {members order : List (String × Value)} (h : order.Perm members) :
    memberLevels (membersToJson order) = memberLevels (membersToJson members) := by
  induction h with
  | nil => rfl
  | cons m _ ih => simp only [membersToJson, memberLevels, ih]
  | swap m n rest =>
      simp only [membersToJson, memberLevels]
      omega
  | trans _ _ ih₁ ih₂ => exact ih₁.trans ih₂

mutual

/-- All documents of a value have as many levels. -/
theorem levels_written {v : Value} {j : Json} (h : v.Written j) : j.levels = v.toJson.levels := by
  cases h with
  | null => rfl
  | tagFirst content =>
      rw [← levels_content content]
      simp [levels, memberLevels]
  | contentFirst content =>
      rw [← levels_content content]
      simp [levels, memberLevels]

/-- The content of a value has one level less than the value, which has the object around it. -/
theorem levels_content {v : Value} {j : Json} (h : v.Content j) :
    j.levels + 1 = v.toJson.levels := by
  cases h with
  | bool b => rfl
  | number x => rfl
  | text s => rfl
  | list written => simp [toJson, tagged, levels, memberLevels, itemLevels_written written]
  | object perm written =>
      simp [toJson, tagged, levels, memberLevels, memberLevels_written written,
        memberLevels_perm perm]
  | error info => rfl

/-- All documents of some items have as many levels. -/
theorem itemLevels_written {items : List Value} {docs : List Json} (h : WrittenItems items docs) :
    itemLevels docs = itemLevels (itemsToJson items) := by
  cases h with
  | nil => rfl
  | cons first rest =>
      simp only [itemsToJson, itemLevels, levels_written first, itemLevels_written rest]

/-- All documents of some members have as many levels. -/
theorem memberLevels_written {members : List (String × Value)} {docs : List (String × Json)}
    (h : WrittenMembers members docs) :
    memberLevels docs = memberLevels (membersToJson members) := by
  cases h with
  | nil => rfl
  | cons key first rest =>
      simp only [membersToJson, memberLevels, levels_written first, memberLevels_written rest]

end

/-! ## Texts -/

/-- A document has a token. -/
theorem length_collapse_pos (j : Json) : 0 < j.collapse.toTokens.length :=
  length_toTokens_pos j.collapse

/-- The tokens of an object with a tag in front of its content. -/
theorem toTokens_tagFirst (name : String) (j : Json) :
    (Json.object [("t", .text name), ("v", j)]).collapse.toTokens =
      .openBrace :: .text (.ok Mark.tag.key) (.ok ()) :: .colon :: .text (.ok name) (.ok ()) ::
        .comma :: .text (.ok Mark.content.key) (.ok ()) :: .colon ::
          (j.collapse.toTokens ++ [.closeBrace]) :=
  rfl

/-- The tokens of an object with a tag behind its content. -/
theorem toTokens_contentFirst (name : String) (j : Json) :
    (Json.object [("v", j), ("t", .text name)]).collapse.toTokens =
      .openBrace :: .text (.ok Mark.content.key) (.ok ()) :: .colon :: (j.collapse.toTokens ++
        [.comma, .text (.ok Mark.tag.key) (.ok ()), .colon, .text (.ok name) (.ok ()),
          .closeBrace]) :=
  rfl

/-- A value that is written as an object is read between its braces. -/
theorem readWithin_object (fuel room : Nat) (ts : List Token) :
    readWithin (fuel + 1) (room + 1) (.openBrace :: ts) = (do
      let v ← readTagged fuel room
      endObject
      return v : Reader Value) ts := by
  rw [readWithin]
  rfl

/-- A tag without content. -/
theorem readTagged_null (fuel room : Nat) (ts : List Token) :
    readTagged (fuel + 1) room (.text (.ok Mark.tag.key) (.ok ()) :: .colon ::
      .text (.ok null.tagName) (.ok ()) :: .closeBrace :: ts) = .ok (null, .closeBrace :: ts) := by
  rw [readTagged, bind_of_ok (mark?_first .tag _)]
  rfl

/-- A tag in front of its content: the content is read under the tag. -/
theorem readTagged_tagFirst {v : Value} {fuel room : Nat} {us ts : List Token}
    (h : readContent fuel room v.tag us = shown v.numbers (v, .closeBrace :: ts)) :
    readTagged (fuel + 1) room (.text (.ok Mark.tag.key) (.ok ()) :: .colon ::
      .text (.ok v.tagName) (.ok ()) :: .comma :: .text (.ok Mark.content.key) (.ok ()) ::
        .colon :: us) = shown v.numbers (v, .closeBrace :: ts) := by
  rw [readTagged, bind_of_ok (mark?_first .tag _)]
  simp only
  rw [bind_of_ok (colon_colon _), bind_of_ok (readTag_name room v _),
    bind_of_ok (mark?_next .content _)]
  simp only
  rw [bind_of_ok (colon_colon _)]
  exact bind_of_shown_pure h rfl

/-- A tag behind its content: the content is kept as a document until the tag is known. -/
theorem readTagged_contentFirst {v : Value} {j : Json} {fuel room : Nat} {ts : List Token}
    (hroom : j.levels ≤ room)
    (h : (liftM (ofContent j v.tag) : Reader Value) (.closeBrace :: ts) =
      shown v.numbers (v, .closeBrace :: ts)) :
    readTagged (fuel + 1) room (.text (.ok Mark.content.key) (.ok ()) :: .colon ::
      (j.toTokens ++ .comma :: .text (.ok Mark.tag.key) (.ok ()) :: .colon ::
        .text (.ok v.tagName) (.ok ()) :: .closeBrace :: ts)) =
      shown v.numbers (v, .closeBrace :: ts) := by
  rw [readTagged, bind_of_ok (mark?_first .content _)]
  simp only
  rw [bind_of_ok (colon_colon _), bind_of_ok (document_toTokens _ hroom _),
    bind_of_ok (mark?_next .tag _)]
  simp only
  rw [bind_of_ok (colon_colon _), bind_of_ok (readTag_name room v _)]
  exact bind_of_shown_pure h rfl

mutual

/-- The tokens of the documents of a value are read as the value, or refused if a number in it is
not finite. -/
theorem readWithin_written {v : Value} {j : Json} (h : v.Written j) (ordered : v.isOrdered = true)
    {fuel room : Nat} (hfuel : 4 * j.collapse.toTokens.length ≤ fuel) (hroom : j.levels ≤ room)
    (ts : List Token) :
    readWithin fuel room (j.collapse.toTokens ++ ts) = shown v.numbers (v, ts) := by
  cases h with
  | null =>
      have henough : 20 ≤ fuel := hfuel
      have hlevel : 1 ≤ room := hroom
      obtain ⟨fuel, rfl⟩ : ∃ k, fuel = k + 2 := ⟨fuel - 2, by omega⟩
      obtain ⟨room, rfl⟩ : ∃ k, room = k + 1 := ⟨room - 1, by omega⟩
      exact (readWithin_object _ _ _).trans (bind_of_ok (readTagged_null _ _ _))
  | @tagFirst _ j content =>
      simp only [toTokens_tagFirst, List.length_cons, List.length_append, List.length_nil]
        at hfuel
      obtain ⟨fuel, rfl⟩ : ∃ k, fuel = k + 2 := ⟨fuel - 2, by omega⟩
      have hlevels : max 0 (max j.levels 0) + 1 ≤ room := hroom
      obtain ⟨room, rfl⟩ : ∃ k, room = k + 1 := ⟨room - 1, by omega⟩
      have hcontent : readContent fuel room v.tag (j.collapse.toTokens ++ .closeBrace :: ts) =
          shown v.numbers (v, .closeBrace :: ts) :=
        readContent_content content ordered (by omega) (by omega) (.closeBrace :: ts)
      rw [toTokens_tagFirst]
      simp only [List.cons_append, List.append_assoc, List.nil_append]
      rw [readWithin_object]
      exact bind_of_shown_pure (readTagged_tagFirst hcontent) rfl
  | @contentFirst _ j content =>
      simp only [toTokens_contentFirst, List.length_cons, List.length_append, List.length_nil]
        at hfuel
      obtain ⟨fuel, rfl⟩ : ∃ k, fuel = k + 2 := ⟨fuel - 2, by omega⟩
      have hlevels : max j.levels (max 0 0) + 1 ≤ room := hroom
      obtain ⟨room, rfl⟩ : ∃ k, room = k + 1 := ⟨room - 1, by omega⟩
      have hroom' : j.collapse.levels ≤ room := by
        rw [levels_collapse]
        omega
      have hcontent : (liftM (ofContent j.collapse v.tag) : Reader Value) (.closeBrace :: ts) =
          shown v.numbers (v, .closeBrace :: ts) := by
        rw [ofContent_content content ordered]
        exact lift_shown _ _ _
      rw [toTokens_contentFirst]
      simp only [List.cons_append, List.append_assoc, List.nil_append]
      rw [readWithin_object]
      exact bind_of_shown_pure (readTagged_contentFirst hroom' hcontent) rfl

/-- The content of a value is read with its tag as the value, if its numbers are finite. -/
theorem readContent_content {v : Value} {j : Json} (h : v.Content j) (ordered : v.isOrdered = true)
    {fuel room : Nat} (hfuel : 4 * j.collapse.toTokens.length ≤ fuel) (hroom : j.levels ≤ room)
    (ts : List Token) :
    readContent fuel room v.tag (j.collapse.toTokens ++ ts) = shown v.numbers (v, ts) := by
  have hpos := length_collapse_pos j
  obtain ⟨fuel, rfl⟩ : ∃ k, fuel = k + 1 := ⟨fuel - 1, by omega⟩
  cases h with
  | bool b =>
      rw [readContent]
      rfl
  | number x =>
      simp only [tag, readContent, collapse, numbers, shown, List.all_cons, List.all_nil,
        Bool.and_true]
      split <;> rfl
  | text s =>
      rw [tag, readContent]
      rfl
  | @list items docs written =>
      simp only [collapse, toTokens, List.length_cons] at hfuel
      have hlevels : itemLevels docs + 1 ≤ room := hroom
      obtain ⟨room, rfl⟩ : ∃ k, room = k + 1 := ⟨room - 1, by omega⟩
      have hitems : readItems fuel room true (itemTokens true (collapseItems docs) ++ ts) =
          shown (itemNumbers items) (items, .closeBracket :: ts) :=
        readItems_written written ordered true (by omega) (by omega) ts
      have heq : readContent (fuel + 1) (room + 1) .list
          (.openBracket :: (itemTokens true (collapseItems docs) ++ ts)) = (do
            let items ← readItems fuel room true
            endArray
            return list items : Reader Value) (itemTokens true (collapseItems docs) ++ ts) := by
        rw [readContent]
        rfl
      exact heq.trans (bind_of_shown_pure hitems rfl)
  | @object members order docs perm written =>
      obtain ⟨hsorted, hmembers⟩ := (Bool.and_eq_true _ _).mp ordered
      have horder := (membersOrdered_perm perm).trans hmembers
      simp only [collapse, toTokens, List.length_cons] at hfuel
      have hlevels : memberLevels docs + 1 ≤ room := hroom
      obtain ⟨room, rfl⟩ : ∃ k, room = k + 1 := ⟨room - 1, by omega⟩
      have hentries : readEntries fuel room true (memberTokens true (collapseMembers docs) ++ ts) =
          shown (memberNumbers members) (order, .closeBrace :: ts) := by
        rw [readEntries_written written horder true (by omega) (by omega) ts]
        exact shown_perm (memberNumbers_perm perm) _
      have heq : readContent (fuel + 1) (room + 1) .object
          (.openBrace :: (memberTokens true (collapseMembers docs) ++ ts)) = (do
            let members ← readEntries fuel room true
            endObject
            return ofMembers members : Reader Value)
              (memberTokens true (collapseMembers docs) ++ ts) := by
        rw [readContent]
        rfl
      have hread := heq.trans (bind_of_shown_pure hentries rfl)
      rw [ofMembers_perm perm (of_decide_eq_true hsorted)] at hread
      exact hread
  | error info =>
      have hlevels : 1 ≤ room := hroom
      rw [tag, readContent, bind_of_ok rfl]
      exact bind_of_ok (readError_errorToJson info hlevels ts)

/-- The documents of some items are read as the items, if their numbers are finite. -/
theorem readItems_written {items : List Value} {docs : List Json} (h : WrittenItems items docs)
    (ordered : itemsOrdered items = true) (isFirst : Bool) {fuel room : Nat}
    (hfuel : 4 * (itemTokens isFirst (collapseItems docs)).length ≤ fuel)
    (hroom : itemLevels docs ≤ room) (ts : List Token) :
    readItems fuel room isFirst (itemTokens isFirst (collapseItems docs) ++ ts) =
      shown (itemNumbers items) (items, .closeBracket :: ts) := by
  have hpos := length_itemTokens_pos isFirst (collapseItems docs)
  obtain ⟨fuel, rfl⟩ : ∃ k, fuel = k + 1 := ⟨fuel - 1, by omega⟩
  cases h with
  | nil =>
      rw [readItems]
      rfl
  | @cons v j items docs first rest =>
      obtain ⟨hv, hitems⟩ := (Bool.and_eq_true _ _).mp ordered
      have hj := length_collapse_pos j
      have hrest := length_itemTokens_pos false (collapseItems docs)
      have hlevels : max j.levels (itemLevels docs) ≤ room := hroom
      simp only [collapseItems, itemTokens, List.length_append] at hfuel
      have hfirst : readWithin fuel room (j.collapse.toTokens ++
          (itemTokens false (collapseItems docs) ++ ts)) = shown v.numbers (v, _) :=
        readWithin_written first hv (by omega) (by omega) _
      have hlater : readItems fuel room false (itemTokens false (collapseItems docs) ++ ts) =
          shown (itemNumbers items) (items, .closeBracket :: ts) :=
        readItems_written rest hitems false (by omega) (by omega) ts
      simp only [collapseItems, itemTokens, List.append_assoc]
      rw [readItems, bind_of_ok (hasItem_item isFirst j.collapse _), if_pos rfl]
      exact bind_of_shown hfirst (bind_of_shown_pure hlater rfl)

/-- The documents of some members are read as the members, if their numbers are finite. -/
theorem readEntries_written {members : List (String × Value)} {docs : List (String × Json)}
    (h : WrittenMembers members docs) (ordered : membersOrdered members = true) (isFirst : Bool)
    {fuel room : Nat} (hfuel : 4 * (memberTokens isFirst (collapseMembers docs)).length ≤ fuel)
    (hroom : memberLevels docs ≤ room) (ts : List Token) :
    readEntries fuel room isFirst (memberTokens isFirst (collapseMembers docs) ++ ts) =
      shown (memberNumbers members) (members, .closeBrace :: ts) := by
  have hpos := length_memberTokens_pos isFirst (collapseMembers docs)
  obtain ⟨fuel, rfl⟩ : ∃ k, fuel = k + 1 := ⟨fuel - 1, by omega⟩
  cases h with
  | nil =>
      rw [readEntries]
      rfl
  | @cons v j members docs key first rest =>
      obtain ⟨hv, hmembers⟩ := (Bool.and_eq_true _ _).mp ordered
      have hj := length_collapse_pos j
      have hrest := length_memberTokens_pos false (collapseMembers docs)
      have hlevels : max j.levels (memberLevels docs) ≤ room := hroom
      simp only [collapseMembers, memberTokens, List.length_append, List.length_cons] at hfuel
      have hfirst : readWithin fuel room (j.collapse.toTokens ++
          (memberTokens false (collapseMembers docs) ++ ts)) = shown v.numbers (v, _) :=
        readWithin_written first hv (by omega) (by omega) _
      have hlater : readEntries fuel room false (memberTokens false (collapseMembers docs) ++ ts) =
          shown (memberNumbers members) (members, .closeBrace :: ts) :=
        readEntries_written rest hmembers false (by omega) (by omega) ts
      simp only [collapseMembers, memberTokens, List.append_assoc, List.cons_append]
      rw [readEntries, bind_of_ok (key?_key isFirst key _ _)]
      simp only
      rw [bind_of_ok (colon_colon _)]
      exact bind_of_shown hfirst (bind_of_shown_pure hlater rfl)

end

/-! ## Numbers that are read back -/

mutual

/-- A document is legible if the finite numbers of its value are read back from their texts. -/
theorem legible_written {v : Value} {j : Json} (h : v.Written j)
    (hread : ∀ x ∈ v.numbers, x.isFinite = true → Inverts x) : j.collapse.Legible := by
  cases h with
  | null => exact ⟨trivial, trivial⟩
  | tagFirst content => exact ⟨trivial, legible_content content hread, trivial⟩
  | contentFirst content => exact ⟨legible_content content hread, trivial, trivial⟩

/-- The content of a value can be read if its finite numbers can. -/
theorem legible_content {v : Value} {j : Json} (h : v.Content j)
    (hread : ∀ x ∈ v.numbers, x.isFinite = true → Inverts x) : j.collapse.Legible := by
  cases h with
  | bool b => trivial
  | number x =>
      simp only [collapse]
      split
      · next hx => exact hread x (by simp [numbers]) hx
      · trivial
  | text s => trivial
  | list written => exact legible_items written hread
  | object perm written =>
      exact legible_members written fun x hx =>
        hread x ((memberNumbers_perm perm).mem_iff.mp hx)
  | error info => exact ⟨trivial, trivial, trivial⟩

/-- The documents of some items can be read if their finite numbers can. -/
theorem legible_items {items : List Value} {docs : List Json} (h : WrittenItems items docs)
    (hread : ∀ x ∈ itemNumbers items, x.isFinite = true → Inverts x) :
    ItemsLegible (collapseItems docs) := by
  cases h with
  | nil => trivial
  | cons first rest =>
      exact ⟨legible_written first fun x hx => hread x (List.mem_append_left _ hx),
        legible_items rest fun x hx => hread x (List.mem_append_right _ hx)⟩

/-- The documents of some members can be read if their finite numbers can. -/
theorem legible_members {members : List (String × Value)} {docs : List (String × Json)}
    (h : WrittenMembers members docs)
    (hread : ∀ x ∈ memberNumbers members, x.isFinite = true → Inverts x) :
    MembersLegible (collapseMembers docs) := by
  cases h with
  | nil => trivial
  | cons key first rest =>
      exact ⟨legible_written first fun x hx => hread x (List.mem_append_left _ hx),
        legible_members rest fun x hx => hread x (List.mem_append_right _ hx)⟩

end

/-! ## Decoding -/

/-- The text of a document of a value is read as the value, or refused if a number in it is not
finite. -/
theorem decode_written {v : Value} {j : Json} (h : v.Written j) (ordered : v.isOrdered = true)
    (hlevels : v.toJson.levels ≤ levelLimit)
    (hread : ∀ x ∈ v.numbers, x.isFinite = true → Inverts x) :
    decode j.render = shown v.numbers v := by
  have htokens : tokens j.render = j.collapse.toTokens := by
    rw [← render_collapse]
    exact tokens_render (legible_written h hread)
  have hwithin : readWithin (4 * j.collapse.toTokens.length + 4) levelLimit
      (j.collapse.toTokens ++ []) = shown v.numbers (v, []) :=
    readWithin_written h ordered (by omega) (levels_written h ▸ hlevels) []
  rw [List.append_nil] at hwithin
  have hrun : (do readWithin (4 * (← get).length + 4) levelLimit : Reader Value).run
      (tokens j.render) = shown v.numbers (v, []) := by
    rw [htokens]
    exact hwithin
  simp only [decode, runOn, hrun]
  unfold shown
  split <;> rfl

/-- Nothing is lost in the text of a value within the limit of levels, if the reader of numbers
gives back the finite ones: if all its numbers are finite, its text is read as the value, and so
is that of each other document that is written for it; and if one of them is not finite, each of
these texts is refused because of its shape. -/
theorem decode_texts {v : Value} (ordered : v.isOrdered = true)
    (hlevels : v.toJson.levels ≤ levelLimit)
    (hread : ∀ x ∈ v.numbers, x.isFinite = true → Inverts x) :
    ((∀ x ∈ v.numbers, x.isFinite = true) →
      decode v.encode = .ok v ∧ ∀ j, v.Written j → decode j.render = .ok v) ∧
    ((∃ x ∈ v.numbers, x.isFinite = false) →
      decode v.encode = .error .shape ∧
        ∀ j, v.Written j → decode j.render = .error .shape) := by
  have hall : ∀ j, v.Written j → decode j.render = shown v.numbers v := fun j h =>
    decode_written h ordered hlevels hread
  constructor
  · intro finite
    have hshown : shown v.numbers v = .ok v := if_pos (List.all_eq_true.mpr finite)
    rw [hshown] at hall
    exact ⟨hall _ v.written_toJson, hall⟩
  · rintro ⟨x, hx, infinite⟩
    have hshown : shown v.numbers v = .error .shape := by
      refine if_neg fun hfinite => ?_
      rw [List.all_eq_true.mp hfinite x hx] at infinite
      cases infinite
    rw [hshown] at hall
    exact ⟨hall _ v.written_toJson, hall⟩

/-- A value with members, items, an error and a number. -/
def report (x : Float) : Value :=
  .object [("at\n", .number x), ("log", .list [.null, .error ⟨"E", "\"late\""⟩])]

/-- The document of a report with each content in front of its tag and the members exchanged. -/
def reportBackwards (x : Float) : Json :=
  .object [
    ("v", .object [
      ("log", .object [
        ("v", .array [.object [("t", .text "Null")],
          .object [("v", errorToJson ⟨"E", "\"late\""⟩), ("t", .text "Error")]]),
        ("t", .text "List")]),
      ("at\n", .object [("v", .number (.real x)), ("t", .text "Num")])]),
    ("t", .text "Obj")]

/-- The report with its members in the other order is a document of the report. -/
theorem written_reportBackwards (x : Float) : (report x).Written (reportBackwards x) :=
  .contentFirst (.object (.swap _ _ _) (.cons _
    (.contentFirst (.list (.cons .null (.cons (.contentFirst (.error _)) .nil))))
    (.cons _ (.contentFirst (.number x)) .nil)))

/-- A report comes back from its text and from the text that is written backwards, and does not
come back with a number that is not finite. -/
theorem decode_report :
    decode (report 1.5).encode = .ok (report 1.5) ∧
      decode (reportBackwards 1.5).render = .ok (report 1.5) ∧
      decode (report (0.0 / 0.0)).encode = .error .shape := by
  have hnumbers : ∀ x : Float, (report x).numbers = [x] := fun _ => rfl
  have finite : (1.5 : Float).isFinite = true := by decide
  have infinite : (0.0 / 0.0 : Float).isFinite = false := by decide
  obtain ⟨hforth, hback⟩ := (decode_texts (v := report 1.5) (by decide) (by decide) fun x hx _ => by
    rw [hnumbers, List.mem_singleton] at hx
    rw [hx]
    rfl).1 fun x hx => by
      rw [hnumbers, List.mem_singleton] at hx
      rw [hx, finite]
  obtain ⟨hrefused, -⟩ := (decode_texts (v := report (0.0 / 0.0)) (by decide) (by decide)
    fun x hx hfinite => by
      rw [hnumbers, List.mem_singleton] at hx
      rw [hx, infinite] at hfinite
      cases hfinite).2 ⟨_, by simp [hnumbers], infinite⟩
  exact ⟨hforth, hback _ (written_reportBackwards 1.5), hrefused⟩

end Trampoline.Value
