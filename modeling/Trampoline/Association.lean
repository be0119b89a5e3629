/-!
# Lists of pairs as maps

A list of pairs of a key and a value stands for a map in which the first pair with a
key counts.  `List.lookup` finds a value; the operations here change the map and keep
the order in which the keys came.
-/

namespace Trampoline.Association

variable {α : Type}

/-- The value under a key replaced, or added at the end. -/
def put (key : String) (a : α) : List (String × α) → List (String × α)
  | [] => [(key, a)]
  | (k, b) :: rest => if k = key then (key, a) :: rest else (k, b) :: put key a rest

/-- A key and its value removed. -/
def drop (key : String) (entries : List (String × α)) : List (String × α) :=
  entries.filter fun entry => entry.1 ≠ key

/-- What has been put under a key is found there. -/
@[simp]
theorem lookup_put_self (key : String) (a : α) (entries : List (String × α)) :
    (put key a entries).lookup key = some a := by
  induction entries with
  | nil => simp [put]
  | cons entry rest ih =>
    obtain ⟨k, b⟩ := entry
    by_cases h : k = key
    · simp [put, h]
    · have different : (key == k) = false := by simp [Ne.symm h]
      simp [put, h, List.lookup_cons, different, ih]

/-- Other keys keep their values. -/
theorem lookup_put_of_ne {key other : String} (a : α) (entries : List (String × α))
    (h : other ≠ key) : (put key a entries).lookup other = entries.lookup other := by
  have different : (other == key) = false := by simp [h]
  induction entries with
  | nil => simp [put, List.lookup_cons, different]
  | cons entry rest ih =>
    obtain ⟨k, b⟩ := entry
    by_cases hk : k = key
    · simp [put, hk, List.lookup_cons, different]
    · simp [put, hk, List.lookup_cons, ih]

end Trampoline.Association
