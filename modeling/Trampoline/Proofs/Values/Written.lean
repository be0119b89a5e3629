import Trampoline.Value.Codec
import Trampoline.Proofs.Json.Documents

/-!
# The documents of a value

A value is written as an object with a tag and a content.  The two may come in either order, and so
may the members of an object that is a value.  All documents that are written for a value like this
are read as the value, if all its numbers are finite.  A number that is not finite is written as
null, which is no number when it is read.

Main definitions and results:

- Definition `Written`: a document is one of those of a value.
- Definitions `numbers`, `isOrdered`: the numbers of a value, and whether the members of its objects
  are in their order.
- Theorem `ofJson_written`: what the documents of a value are read as.
-/

namespace Trampoline.Value

/-! ## Documents -/

/-- The name of the tag of a value. -/
def tagName : Value → String
  | null => "Null"
  | bool _ => "Bool"
  | number _ => "Num"
  | text _ => "Str"
  | list _ => "List"
  | object _ => "Obj"
  | error _ => "Error"

/-- The tag of a value. -/
def tag : Value → Tag
  | null => .null
  | bool _ => .bool
  | number _ => .number
  | text _ => .text
  | list _ => .list
  | object _ => .object
  | error _ => .error

/-- The name of a tag is read as the tag. -/
theorem ofName_tagName (v : Value) : Tag.ofName v.tagName = .ok v.tag := by
  cases v <;> rfl

mutual

/-- A document is written for a value: an object with its tag and its content, either of which may
be first, at each value within it.  Null has no content. -/
inductive Written : Value → Json → Prop
  | null : Written .null (.object [("t", .text "Null")])
  | tagFirst {v : Value} {j : Json} (content : Content v j) :
      Written v (.object [("t", .text v.tagName), ("v", j)])
  | contentFirst {v : Value} {j : Json} (content : Content v j) :
      Written v (.object [("v", j), ("t", .text v.tagName)])

/-- A document is the content of a value.  The members of an object may be in any order. -/
inductive Content : Value → Json → Prop
  | bool (b : Bool) : Content (.bool b) (.bool b)
  | number (x : Float) : Content (.number x) (.number (.real x))
  | text (s : String) : Content (.text s) (.text s)
  | list {items : List Value} {docs : List Json} (written : WrittenItems items docs) :
      Content (.list items) (.array docs)
  | object {members order : List (String × Value)} {docs : List (String × Json)}
      (perm : order.Perm members) (written : WrittenMembers order docs) :
      Content (.object members) (.object docs)
  | error (info : ErrorInfo) : Content (.error info) (errorToJson info)

/-- Documents are written for the items of a list, in their order. -/
inductive WrittenItems : List Value → List Json → Prop
  | nil : WrittenItems [] []
  | cons {v : Value} {j : Json} {items : List Value} {docs : List Json} (first : Written v j)
      (rest : WrittenItems items docs) : WrittenItems (v :: items) (j :: docs)

/-- Documents are written for the members of an object, under the same keys. -/
inductive WrittenMembers : List (String × Value) → List (String × Json) → Prop
  | nil : WrittenMembers [] []
  | cons {v : Value} {j : Json} {members : List (String × Value)} {docs : List (String × Json)}
      (key : String) (first : Written v j) (rest : WrittenMembers members docs) :
      WrittenMembers ((key, v) :: members) ((key, j) :: docs)

end

mutual

/-- The document of a value is written for it. -/
theorem written_toJson : ∀ v : Value, v.Written v.toJson
  | null => .null
  | bool b => .tagFirst (.bool b)
  | number x => .tagFirst (.number x)
  | text s => .tagFirst (.text s)
  | list items => .tagFirst (.list (written_itemsToJson items))
  | object members => .tagFirst (.object (.refl members) (written_membersToJson members))
  | error info => .tagFirst (.error info)

/-- The documents that the writer makes for items are written for them. -/
theorem written_itemsToJson : ∀ items : List Value, WrittenItems items (itemsToJson items)
  | [] => .nil
  | v :: items => .cons (written_toJson v) (written_itemsToJson items)

/-- The documents that the writer makes for members are written for them. -/
theorem written_membersToJson :
    ∀ members : List (String × Value), WrittenMembers members (membersToJson members)
  | [] => .nil
  | (key, v) :: members => .cons key (written_toJson v) (written_membersToJson members)

end

/-! ## Numbers -/

mutual

/-- The numbers of a value. -/
def numbers : Value → List Float
  | number x => [x]
  | list items => itemNumbers items
  | object members => memberNumbers members
  | _ => []

/-- The numbers in the items of a list. -/
def itemNumbers : List Value → List Float
  | [] => []
  | v :: rest => numbers v ++ itemNumbers rest

/-- The numbers in the members of an object. -/
def memberNumbers : List (String × Value) → List Float
  | [] => []
  | (_, v) :: rest => numbers v ++ memberNumbers rest

end

/-- The numbers in members are those of one member after the other. -/
theorem memberNumbers_eq (members : List (String × Value)) :
    memberNumbers members = members.flatMap fun m => m.2.numbers := by
  induction members with
  | nil => rfl
  | cons m members ih => simp [memberNumbers, ih]

/-- The order of members changes the order of their numbers only. -/
theorem memberNumbers_perm {members order : List (String × Value)} (h : order.Perm members) :
    (memberNumbers order).Perm (memberNumbers members) := by
  rw [memberNumbers_eq, memberNumbers_eq]
  exact h.flatMap_right _

/-! ## The order of members -/

mutual

/-- Whether the members of each object in a value are in ascending order of their keys. -/
def isOrdered : Value → Bool
  | list items => itemsOrdered items
  | object members =>
    decide (members.Pairwise fun a b => a.1 < b.1) && membersOrdered members
  | _ => true

/-- All objects within items have their members in order. -/
def itemsOrdered : List Value → Bool
  | [] => true
  | v :: rest => isOrdered v && itemsOrdered rest

/-- All objects within members have their members in order. -/
def membersOrdered : List (String × Value) → Bool
  | [] => true
  | (_, v) :: rest => isOrdered v && membersOrdered rest

end

/-- The order is one of each member by itself. -/
theorem membersOrdered_eq (members : List (String × Value)) :
    membersOrdered members = members.all fun m => m.2.isOrdered := by
  induction members with
  | nil => rfl
  | cons m members ih => simp [membersOrdered, ih]

/-- In whatever order members are, the objects within them have their members in order or not. -/
theorem membersOrdered_perm {members order : List (String × Value)} (h : order.Perm members) :
    membersOrdered order = membersOrdered members := by
  rw [membersOrdered_eq, membersOrdered_eq]
  exact h.all_eq

/-- Putting a member with a new key among members adds it to them. -/
theorem insertMember_perm {key : String} {members : List (String × Value)} (v : Value)
    (hkey : ∀ m ∈ members, m.1 ≠ key) :
    (insertMember key v members).Perm ((key, v) :: members) := by
  induction members with
  | nil => exact .refl _
  | cons m members ih =>
      obtain ⟨k, w⟩ := m
      have hne : key ≠ k := fun h => hkey (k, w) (by simp) h.symm
      simp only [insertMember, hne, if_false]
      split
      · exact .refl _
      · exact ((ih fun m hm => hkey m (by simp [hm])).cons (k, w)).trans (.swap _ _ _)

/-- What stands among members after one has been put in was there before, or has been put in. -/
theorem mem_insertMember {key : String} {v : Value} {members : List (String × Value)}
    {m : String × Value} (h : m ∈ insertMember key v members) : m = (key, v) ∨ m ∈ members := by
  induction members with
  | nil => exact .inl (by simpa [insertMember] using h)
  | cons n members ih =>
      obtain ⟨k, w⟩ := n
      simp only [insertMember] at h
      split at h
      · simpa using h
      split at h
      · rcases List.mem_cons.mp h with rfl | h
        · exact .inl rfl
        · exact .inr (by simp [h])
      · rcases List.mem_cons.mp h with rfl | h
        · exact .inr (by simp)
        · exact (ih h).imp_right (List.mem_cons_of_mem _)

/-- Putting a member among members in ascending order leaves them in ascending order. -/
theorem insertMember_pairwise (key : String) (v : Value) {members : List (String × Value)}
    (h : members.Pairwise fun a b => a.1 < b.1) :
    (insertMember key v members).Pairwise fun a b => a.1 < b.1 := by
  induction members with
  | nil => simp [insertMember]
  | cons m members ih =>
      obtain ⟨k, w⟩ := m
      obtain ⟨hfirst, hmembers⟩ := List.pairwise_cons.mp h
      simp only [insertMember]
      split
      · next hlt =>
          refine List.pairwise_cons.mpr ⟨fun m hm => ?_, h⟩
          rcases List.mem_cons.mp hm with rfl | hm
          · exact hlt
          · exact String.lt_trans hlt (hfirst m hm)
      split
      · next heq => exact List.pairwise_cons.mpr ⟨heq ▸ hfirst, hmembers⟩
      · next hlt hne =>
          refine List.pairwise_cons.mpr ⟨fun m hm => ?_, ih hmembers⟩
          rcases mem_insertMember hm with rfl | hm
          · exact Std.lt_of_le_of_ne (String.not_lt.mp hlt) (Ne.symm hne)
          · exact hfirst m hm

/-- Members stay in order, with different keys, while others are put in. -/
theorem foldl_insertMember_pairwise {order members : List (String × Value)}
    (h : members.Pairwise fun a b => a.1 < b.1) :
    (order.foldl (fun acc (k, v) => insertMember k v acc) members).Pairwise
      fun a b => a.1 < b.1 := by
  induction order generalizing members with
  | nil => exact h
  | cons m order ih => exact ih (insertMember_pairwise m.1 m.2 h)

/-- Each member was there before or has been put in. -/
theorem mem_foldl_insertMember {order members : List (String × Value)} {m : String × Value}
    (h : m ∈ order.foldl (fun acc (k, v) => insertMember k v acc) members) :
    m ∈ order ∨ m ∈ members := by
  induction order generalizing members with
  | nil => exact .inr h
  | cons n order ih =>
      rcases ih h with h | h
      · exact .inl (List.mem_cons_of_mem _ h)
      · rcases mem_insertMember h with rfl | h
        · exact .inl (by simp)
        · exact .inr h

/-- The members of an object are in order, however it has been built. -/
theorem isOrdered_ofMembers {members : List (String × Value)}
    (h : ∀ m ∈ members, m.2.isOrdered = true) : (ofMembers members).isOrdered = true := by
  refine (Bool.and_eq_true _ _).mpr ⟨decide_eq_true (foldl_insertMember_pairwise .nil), ?_⟩
  rw [membersOrdered_eq, List.all_eq_true]
  intro m hm
  rcases mem_foldl_insertMember hm with hm | hm
  · exact h m hm
  · cases hm

/-- Putting members with different new keys among members adds them to these. -/
theorem foldl_insertMember_perm {order members : List (String × Value)}
    (hnew : order.Pairwise fun a b => a.1 ≠ b.1)
    (hkeys : ∀ m ∈ members, ∀ n ∈ order, m.1 ≠ n.1) :
    (order.foldl (fun acc (k, v) => insertMember k v acc) members).Perm (order ++ members) := by
  induction order generalizing members with
  | nil => exact .refl _
  | cons n order ih =>
      obtain ⟨key, v⟩ := n
      obtain ⟨hfirst, hrest⟩ := List.pairwise_cons.mp hnew
      have hperm := insertMember_perm v fun m hm => hkeys m hm (key, v) (by simp)
      have hothers : ∀ m ∈ insertMember key v members, ∀ n ∈ order, m.1 ≠ n.1 := by
        intro m hm n hn
        rcases mem_insertMember hm with rfl | hm
        · exact hfirst n hn
        · exact hkeys m hm n (by simp [hn])
      exact (ih hrest hothers).trans ((hperm.append_left order).trans List.perm_middle)

/-- An object with its members in any order is the object with its members in their order. -/
theorem ofMembers_perm {order members : List (String × Value)} (hperm : order.Perm members)
    (h : members.Pairwise fun a b => a.1 < b.1) : ofMembers order = object members := by
  have hmembers : members.Pairwise fun a b => a.1 ≠ b.1 :=
    h.imp fun {a b} (hlt : a.1 < b.1) (heq : a.1 = b.1) => String.lt_irrefl b.1 (heq ▸ hlt)
  have hnew : order.Pairwise fun a b => a.1 ≠ b.1 :=
    hperm.symm.pairwise hmembers fun hne => hne.symm
  have hall : (order.foldl (fun acc (k, v) => insertMember k v acc) []).Perm (order ++ []) :=
    foldl_insertMember_perm hnew (by simp)
  have heq := (hall.trans (by simpa using hperm)).eq_of_pairwise
    (fun a b _ _ hab hba => absurd (String.lt_trans hab hba) (String.lt_irrefl _))
    (foldl_insertMember_pairwise .nil) h
  exact congrArg object heq

/-! ## Reading documents -/

/-- What comes of reading something that has numbers: the thing itself if they are finite, and a
wrong shape if they are not. -/
def shown {α : Type} (numbers : List Float) (a : α) : Except Json.Fault α :=
  if numbers.all Float.isFinite then .ok a else .error .shape

variable {α β : Type}

/-- One value after the other is shown, and so are their numbers. -/
theorem shown_bind (ns ms : List Float) (a : α) {f : α → Except Json.Fault β} {b : β}
    (h : f a = shown ms b) : (shown ns a >>= f) = shown (ns ++ ms) b := by
  simp only [shown, List.all_append] at h ⊢
  cases ns.all Float.isFinite with
  | true => simpa [bind, Except.bind] using h
  | false => rfl

/-- What is made of a value shows the numbers of the value. -/
theorem shown_map (ns : List Float) (a : α) (f : α → β) :
    (shown ns a >>= fun a => return f a) = shown ns (f a) := by
  simpa using shown_bind ns [] a (f := fun a => return f a) rfl

/-- The order of numbers makes no difference to whether they can be shown. -/
theorem shown_perm {ns ms : List Float} (h : ns.Perm ms) (a : α) : shown ns a = shown ms a := by
  have hall : ns.all Float.isFinite = ms.all Float.isFinite := h.all_eq
  simp only [shown, hall]

mutual

/-- The documents of a value are read as the value, or refused if a number in it is not finite. -/
theorem ofJson_written {v : Value} {j : Json} (h : v.Written j) (ordered : v.isOrdered = true) :
    ofJson j.collapse = shown v.numbers v := by
  cases h with
  | null => rfl
  | @tagFirst _ j content =>
      show (do
        let tag ← Tag.ofName v.tagName
        ofContent j.collapse tag) = _
      rw [ofName_tagName]
      exact ofContent_content content ordered
  | @contentFirst _ j content =>
      show (do
        let tag ← Tag.ofName v.tagName
        ofContent j.collapse tag) = _
      rw [ofName_tagName]
      exact ofContent_content content ordered

/-- The content of a value is read as the value. -/
theorem ofContent_content {v : Value} {j : Json} (h : v.Content j) (ordered : v.isOrdered = true) :
    ofContent j.collapse v.tag = shown v.numbers v := by
  cases h with
  | bool b => rfl
  | number x =>
      simp only [Json.collapse, numbers, shown, List.all_cons, List.all_nil, Bool.and_true]
      split <;> rfl
  | text s => rfl
  | list written =>
      show (do return list (← ofItems (Json.collapseItems _))) = _
      rw [ofItems_written written ordered, shown_map]
      rfl
  | object perm written =>
      obtain ⟨hsorted, hmembers⟩ := (Bool.and_eq_true _ _).mp ordered
      have horder := (membersOrdered_perm perm).trans hmembers
      show (do return ofMembers (← ofEntries (Json.collapseMembers _))) = _
      rw [ofEntries_written written horder, shown_map,
        ofMembers_perm perm (of_decide_eq_true hsorted), shown_perm (memberNumbers_perm perm)]
      rfl
  | error info => rfl

/-- The documents of items are read as the items. -/
theorem ofItems_written {items : List Value} {docs : List Json} (h : WrittenItems items docs)
    (ordered : itemsOrdered items = true) :
    ofItems (Json.collapseItems docs) = shown (itemNumbers items) items := by
  cases h with
  | nil => rfl
  | @cons v j items docs first rest =>
      obtain ⟨hv, hitems⟩ := (Bool.and_eq_true _ _).mp ordered
      show (do
        let v ← ofJson j.collapse
        return v :: (← ofItems (Json.collapseItems docs))) = _
      rw [ofJson_written first hv]
      refine shown_bind _ _ _ ?_
      rw [ofItems_written rest hitems, shown_map]

/-- The documents of members are read as an object with these members. -/
theorem ofEntries_written {members : List (String × Value)} {docs : List (String × Json)}
    (h : WrittenMembers members docs) (ordered : membersOrdered members = true) :
    ofEntries (Json.collapseMembers docs) = shown (memberNumbers members) members := by
  cases h with
  | nil => rfl
  | @cons v j members docs key first rest =>
      obtain ⟨hv, hmembers⟩ := (Bool.and_eq_true _ _).mp ordered
      show (do
        let v ← ofJson j.collapse
        return (key, v) :: (← ofEntries (Json.collapseMembers docs))) = _
      rw [ofJson_written first hv]
      refine shown_bind _ _ _ ?_
      rw [ofEntries_written rest hmembers, shown_map]

end

end Trampoline.Value
