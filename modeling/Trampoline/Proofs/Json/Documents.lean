import Trampoline.Proofs.Json.Tokens

/-!
# Reading a written document

The tokens of a document are read as the document, whatever tokens follow, if there is room for
its levels.  So a text of a legible document is read as the document.

Main definitions and results:

- Definition `levels`: how many arrays and objects of a document stand within each other.
- Theorem `documentWithin_toTokens`: the tokens of a document are read as the document.
- Theorem `parse?_render`: the text of a legible document is read as the document.
-/

namespace Trampoline.Json

/-! ## Readers -/

namespace Reader

variable {α β : Type}

/-- A reader that goes on after another one goes on where it has stopped. -/
theorem bind_of_ok {x : Reader α} {f : α → Reader β} {ts us : List Token} {a : α}
    (h : x ts = .ok (a, us)) : (x >>= f) ts = f a us := by
  simp only [bind, StateT.bind, h, Except.bind]

/-- An array goes on in front of an item. -/
theorem hasItem_item (isFirst : Bool) (j : Json) (ts : List Token) :
    hasItem isFirst ((if isFirst then [] else [.comma]) ++ (toTokens j ++ ts)) =
      .ok (true, toTokens j ++ ts) := by
  cases isFirst <;> cases j <;> rfl

/-- An object goes on in front of a key, which is passed over. -/
theorem key?_key (isFirst : Bool) (key : String) (skipped : Except Fault Unit) (ts : List Token) :
    key? isFirst ((if isFirst then [] else [.comma]) ++ .text (.ok key) skipped :: ts) =
      .ok (some key, ts) := by
  cases isFirst <;> rfl

/-- A colon is read where there is one. -/
theorem colon_colon (ts : List Token) : colon (.colon :: ts) = .ok ((), ts) :=
  rfl

end Reader

/-! ## Levels -/

mutual

/-- How many arrays and objects of a document stand within each other. -/
def levels : Json → Nat
  | array items => itemLevels items + 1
  | object members => memberLevels members + 1
  | _ => 0

/-- The levels of the items of an array. -/
def itemLevels : List Json → Nat
  | [] => 0
  | j :: rest => max (levels j) (itemLevels rest)

/-- The levels of the members of an object. -/
def memberLevels : List (String × Json) → Nat
  | [] => 0
  | (_, j) :: rest => max (levels j) (memberLevels rest)

end

/-! ## Documents -/

/-- Items have at least the token that ends them. -/
theorem length_itemTokens_pos (isFirst : Bool) (items : List Json) :
    0 < (itemTokens isFirst items).length := by
  induction items generalizing isFirst with
  | nil => exact Nat.one_pos
  | cons j items ih =>
      have := ih false
      simp only [itemTokens, List.length_append]
      omega

/-- Members have at least the token that ends them. -/
theorem length_memberTokens_pos (isFirst : Bool) (members : List (String × Json)) :
    0 < (memberTokens isFirst members).length := by
  cases members with
  | nil => exact Nat.one_pos
  | cons member members =>
      simp only [memberTokens, List.length_append, List.length_cons]
      omega

/-- A document has at least one token. -/
theorem length_toTokens_pos (j : Json) : 0 < j.toTokens.length := by
  cases j <;> simp [toTokens]

open Reader

mutual

/-- The tokens of a document are read as the document, whatever follows. -/
theorem documentWithin_toTokens : ∀ (j : Json) {fuel room : Nat} (ts : List Token),
    2 * j.toTokens.length ≤ fuel → j.levels ≤ room →
      documentWithin fuel room (j.toTokens ++ ts) = .ok (j, ts)
  | j, 0, _, _, hfuel, _ => by
      have := j.length_toTokens_pos
      omega
  | null, _ + 1, _, _, _, _ => rfl
  | bool _, _ + 1, _, _, _, _ => rfl
  | number _, _ + 1, _, _, _, _ => rfl
  | text _, _ + 1, _, _, _, _ => rfl
  | array items, fuel + 1, 0, _, _, hroom => by simp [levels] at hroom
  | array items, fuel + 1, room + 1, ts, hfuel, hroom => by
      simp only [toTokens, List.length_cons, levels] at hfuel hroom
      have hitems : itemsWithin fuel room true (itemTokens true items ++ ts) = _ :=
        itemsWithin_itemTokens items true ts (by omega) (by omega)
      show (do
        let items ← itemsWithin fuel room true
        endArray
        return Json.array items : Reader Json) (itemTokens true items ++ ts) = _
      rw [bind_of_ok hitems]
      rfl
  | object members, fuel + 1, 0, _, _, hroom => by simp [levels] at hroom
  | object members, fuel + 1, room + 1, ts, hfuel, hroom => by
      simp only [toTokens, List.length_cons, levels] at hfuel hroom
      have hmembers : membersWithin fuel room true (memberTokens true members ++ ts) = _ :=
        membersWithin_memberTokens members true ts (by omega) (by omega)
      show (do
        let members ← membersWithin fuel room true
        endObject
        return Json.object members : Reader Json) (memberTokens true members ++ ts) = _
      rw [bind_of_ok hmembers]
      rfl

/-- The tokens of items are read as the items, with enough calls and room for their levels. -/
theorem itemsWithin_itemTokens : ∀ (items : List Json) (isFirst : Bool) {fuel room : Nat}
    (ts : List Token), 2 * (itemTokens isFirst items).length ≤ fuel → itemLevels items ≤ room →
      itemsWithin fuel room isFirst (itemTokens isFirst items ++ ts) =
        .ok (items, .closeBracket :: ts)
  | items, isFirst, 0, _, _, hfuel, _ => by
      have := length_itemTokens_pos isFirst items
      omega
  | [], _, _ + 1, _, _, _, _ => rfl
  | j :: items, isFirst, fuel + 1, room, ts, hfuel, hroom => by
      have hj := j.length_toTokens_pos
      have hrest := length_itemTokens_pos false items
      simp only [itemTokens, List.length_append, itemLevels] at hfuel hroom
      simp only [itemTokens, List.append_assoc]
      show (do
        if ← hasItem isFirst then
          let item ← documentWithin fuel room
          let rest ← itemsWithin fuel room false
          return item :: rest
        else return [] : Reader (List Json)) _ = _
      rw [bind_of_ok (hasItem_item isFirst j _), if_pos rfl,
        bind_of_ok (documentWithin_toTokens j _ (by omega) (by omega)),
        bind_of_ok (itemsWithin_itemTokens items false ts (by omega) (by omega))]
      rfl

/-- The tokens of members are read as the members, with enough calls and room for their levels. -/
theorem membersWithin_memberTokens : ∀ (members : List (String × Json)) (isFirst : Bool)
    {fuel room : Nat} (ts : List Token), 2 * (memberTokens isFirst members).length ≤ fuel →
      memberLevels members ≤ room →
      membersWithin fuel room isFirst (memberTokens isFirst members ++ ts) =
        .ok (members, .closeBrace :: ts)
  | members, isFirst, 0, _, _, hfuel, _ => by
      have := length_memberTokens_pos isFirst members
      omega
  | [], _, _ + 1, _, _, _, _ => rfl
  | (key, j) :: members, isFirst, fuel + 1, room, ts, hfuel, hroom => by
      have hj := j.length_toTokens_pos
      have hrest := length_memberTokens_pos false members
      simp only [memberTokens, List.length_append, List.length_cons, memberLevels] at hfuel hroom
      simp only [memberTokens, List.append_assoc, List.cons_append]
      show (do
        match ← key? isFirst with
        | none => return []
        | some key =>
          colon
          let value ← documentWithin fuel room
          let rest ← membersWithin fuel room false
          return (key, value) :: rest : Reader (List (String × Json))) _ = _
      rw [bind_of_ok (key?_key isFirst key _ _)]
      simp only
      rw [bind_of_ok (colon_colon _),
        bind_of_ok (documentWithin_toTokens j _ (by omega) (by omega)),
        bind_of_ok (membersWithin_memberTokens members false ts (by omega) (by omega))]
      rfl

end

/-- The tokens of a document are read as the document, whatever follows. -/
theorem document_toTokens (j : Json) {room : Nat} (hroom : j.levels ≤ room) (ts : List Token) :
    document room (j.toTokens ++ ts) = .ok (j, ts) :=
  documentWithin_toTokens j ts (by simp only [List.length_append]; omega) hroom

/-- The text of a legible document is read as the document. -/
theorem parse?_render {j : Json} (h : j.Legible) {room : Nat} (hroom : j.levels ≤ room) :
    parse? room j.render = .ok j := by
  have hread : (document room).run (tokens j.render) = .ok (j, []) := by
    rw [tokens_render h, ← List.append_nil j.toTokens]
    exact document_toTokens j hroom []
  simp only [parse?, runOn, hread]
  rfl

/-! ## Numbers that are not finite -/

open Float.Model in
/-- The exponent of a float that is not finite has all its bits set. -/
theorem exponent_of_not_finite {x : Float} (h : x.isFinite = false) :
    x.toBits.toNat / Nat.pow 2 52 % Nat.pow 2 11 = Nat.pow 2 11 - 1 := by
  have hbits : @UnpackedFloat.unpackExponent Format.binary64 x.toBits.toBitVec = -1#11 := by
    by_cases hset : @UnpackedFloat.unpackExponent Format.binary64 x.toBits.toBitVec = -1#11
    · exact hset
    have hunpack : UnpackedFloat.unpack Format.binary64 x.toBits.toBitVec = _ := if_neg hset
    have hfinite : (UnpackedFloat.unpack Format.binary64 x.toBits.toBitVec).isFinite = true := by
      by_cases hzero : @UnpackedFloat.unpackExponent Format.binary64 x.toBits.toBitVec = 0#11
      · by_cases hmantissa :
            @UnpackedFloat.unpackMantissa Format.binary64 x.toBits.toBitVec = 0#52
        · exact congrArg UnpackedFloat.isFinite
            (hunpack.trans ((if_pos hzero).trans (dif_pos hmantissa)))
        · exact congrArg UnpackedFloat.isFinite
            (hunpack.trans ((if_pos hzero).trans (dif_neg hmantissa)))
      · exact congrArg UnpackedFloat.isFinite (hunpack.trans (if_neg hzero))
    exact absurd (h.symm.trans hfinite) (by decide)
  have hnat := congrArg BitVec.toNat hbits
  simp only [UnpackedFloat.unpackExponent, BitVec.toNat_cast, BitVec.extractLsb_toNat] at hnat
  rw [Nat.shiftRight_eq_div_pow] at hnat
  exact hnat

/-- A float that is not finite is undefined or infinite. -/
theorem shape_of_not_finite {x : Float} (h : x.isFinite = false) :
    Decimal.FloatShape.ofFloat x = .undefined ∨
      ∃ negative, Decimal.FloatShape.ofFloat x = .infinite negative := by
  simp only [Decimal.FloatShape.ofFloat, exponent_of_not_finite h, if_true]
  split
  · exact .inr ⟨_, rfl⟩
  · exact .inl rfl

/-- A float that is not finite is written as null. -/
theorem render_of_not_finite {x : Float} (h : x.isFinite = false) :
    Decimal.Layout.document.render x = "null" := by
  unfold Decimal.Layout.render
  rcases shape_of_not_finite h with hshape | ⟨negative, hshape⟩
  · rw [hshape]
    rfl
  · rw [hshape]
    cases negative <;> rfl

mutual

/-- A document with null for each number that is not finite. -/
def collapse : Json → Json
  | number (.real x) => if x.isFinite then number (.real x) else null
  | array items => array (collapseItems items)
  | object members => object (collapseMembers members)
  | j => j

/-- The items of an array with null for each number that is not finite. -/
def collapseItems : List Json → List Json
  | [] => []
  | j :: rest => collapse j :: collapseItems rest

/-- The members of an object with null for each number that is not finite. -/
def collapseMembers : List (String × Json) → List (String × Json)
  | [] => []
  | (key, j) :: rest => (key, collapse j) :: collapseMembers rest

end

mutual

/-- A number that is not finite is written as null, and everything else as itself. -/
theorem renderChars_collapse : ∀ j : Json, j.collapse.renderChars = j.renderChars
  | null | bool _ | number (.natural _) | number (.negative _) | text _ => rfl
  | number (.real x) => by
      simp only [collapse]
      split
      · rfl
      · next h => simp [renderChars, Number.render, render_of_not_finite (by simpa using h)]
  | array [] => rfl
  | array (j :: items) => by
      simp only [collapse, collapseItems, renderChars, renderChars_collapse j,
        renderItems_collapse items]
  | object [] => rfl
  | object ((key, j) :: members) => by
      simp only [collapse, collapseMembers, renderChars, renderChars_collapse j,
        renderMembers_collapse members]

/-- The items of an array are written alike, with null for such a number or without. -/
theorem renderItems_collapse : ∀ items : List Json,
    renderItems (collapseItems items) = renderItems items
  | [] => rfl
  | j :: items => by
      simp only [collapseItems, renderItems, renderChars_collapse j, renderItems_collapse items]

/-- The members of an object are written alike, with null for such a number or without. -/
theorem renderMembers_collapse : ∀ members : List (String × Json),
    renderMembers (collapseMembers members) = renderMembers members
  | [] => rfl
  | (key, j) :: members => by
      simp only [collapseMembers, renderMembers, renderChars_collapse j,
        renderMembers_collapse members]

end

/-- A document has the text of the document with null for each number that is not finite. -/
theorem render_collapse (j : Json) : j.collapse.render = j.render :=
  congrArg String.ofList j.renderChars_collapse

mutual

/-- The nesting of a document stays, since null has no more levels than a number. -/
theorem levels_collapse : ∀ j : Json, j.collapse.levels = j.levels
  | null | bool _ | number (.natural _) | number (.negative _) | text _ => rfl
  | number (.real x) => by
      simp only [collapse]
      split <;> rfl
  | array items => congrArg (· + 1) (itemLevels_collapse items)
  | object members => congrArg (· + 1) (memberLevels_collapse members)

/-- The nesting of the items stays. -/
theorem itemLevels_collapse : ∀ items : List Json,
    itemLevels (collapseItems items) = itemLevels items
  | [] => rfl
  | j :: items => by
      simp only [collapseItems, itemLevels, levels_collapse j, itemLevels_collapse items]

/-- The nesting of the members stays. -/
theorem memberLevels_collapse : ∀ members : List (String × Json),
    memberLevels (collapseMembers members) = memberLevels members
  | [] => rfl
  | (_, j) :: members => by
      simp only [collapseMembers, memberLevels, levels_collapse j, memberLevels_collapse members]

end

end Trampoline.Json
