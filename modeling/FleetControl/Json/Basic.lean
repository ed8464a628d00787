import FleetControl.KeyMap

/-!
# JSON values

A JSON document as a tree. Objects keep their members in the order in which they were written, with
repetitions, because whether a repeated member is an error depends on who reads the object.

A value can be well formed as text and still denote nothing: a string with a lone surrogate or with
bytes that are not UTF-8, a number beyond the range of a 64-bit float, an object with such a string
as a key. The tree has `unreadable` in its place: a reader that skips the value never notices, and
one that wants it fails.

* `sorted` — the form in which two objects with the same members are the same tree: keys ascending,
  the last of repeated members kept.
-/

namespace FleetControl

/-- A JSON number: an integer of 64 bits, or a 64-bit float given by its bits. -/
inductive JsonNumber where
  | natural (n : Nat)
  | negative (n : Nat)
  | float (bits : UInt64)
  deriving DecidableEq, Repr, Inhabited

/-- A JSON value. -/
inductive Json where
  | null
  | bool (b : Bool)
  | number (n : JsonNumber)
  | text (s : String)
  | array (items : List Json)
  | object (members : List (String × Json))
  | unreadable
  deriving Repr, Inhabited

namespace Json

/-! ## Equality -/

mutual

/-- Whether two trees are the same. -/
def same : Json → Json → Bool
  | .null, .null => true
  | .bool a, .bool b => a == b
  | .number a, .number b => a == b
  | .text a, .text b => a == b
  | .array a, .array b => sameItems a b
  | .object a, .object b => sameMembers a b
  | .unreadable, .unreadable => true
  | _, _ => false

/-- Whether two lists of trees are the same. -/
def sameItems : List Json → List Json → Bool
  | [], [] => true
  | a :: as, b :: bs => same a b && sameItems as bs
  | _, _ => false

/-- Whether two lists of members are the same. -/
def sameMembers : List (String × Json) → List (String × Json) → Bool
  | [], [] => true
  | (j, a) :: as, (k, b) :: bs => j == k && same a b && sameMembers as bs
  | _, _ => false

end

mutual

theorem eq_of_same : ∀ a b : Json, a.same b = true → a = b
  | .null, b, h => by cases b <;> simp_all [same]
  | .bool a, b, h => by cases b <;> simp_all [same]
  | .number a, b, h => by cases b <;> simp_all [same]
  | .text a, b, h => by cases b <;> simp_all [same]
  | .array a, b, h => by
    cases b <;> simp only [same, Bool.false_eq_true] at h
    rw [eq_of_sameItems _ _ h]
  | .object a, b, h => by
    cases b <;> simp only [same, Bool.false_eq_true] at h
    rw [eq_of_sameMembers _ _ h]
  | .unreadable, b, h => by cases b <;> simp_all [same]

theorem eq_of_sameItems : ∀ a b : List Json, sameItems a b = true → a = b
  | [], b, h => by cases b <;> simp_all [sameItems]
  | x :: xs, b, h => by
    cases b with
    | nil => simp [sameItems] at h
    | cons y ys =>
      simp only [sameItems, Bool.and_eq_true] at h
      rw [eq_of_same _ _ h.1, eq_of_sameItems _ _ h.2]

theorem eq_of_sameMembers : ∀ a b : List (String × Json), sameMembers a b = true → a = b
  | [], b, h => by cases b <;> simp_all [sameMembers]
  | (j, x) :: xs, b, h => by
    cases b with
    | nil => simp [sameMembers] at h
    | cons y ys =>
      obtain ⟨k, y⟩ := y
      simp only [sameMembers, Bool.and_eq_true, beq_iff_eq] at h
      rw [h.1.1, eq_of_same _ _ h.1.2, eq_of_sameMembers _ _ h.2]

end

mutual

theorem same_self : ∀ a : Json, a.same a = true
  | .null => rfl
  | .bool _ => by simp [same]
  | .number _ => by simp [same]
  | .text _ => by simp [same]
  | .array a => by simp [same, sameItems_self a]
  | .object a => by simp [same, sameMembers_self a]
  | .unreadable => rfl

theorem sameItems_self : ∀ a : List Json, sameItems a a = true
  | [] => rfl
  | x :: xs => by simp [sameItems, same_self x, sameItems_self xs]

theorem sameMembers_self : ∀ a : List (String × Json), sameMembers a a = true
  | [] => rfl
  | (_, x) :: xs => by simp [sameMembers, same_self x, sameMembers_self xs]

end

/-- `same` decides equality. -/
theorem same_iff (a b : Json) : a.same b = true ↔ a = b :=
  ⟨eq_of_same a b, fun h => h ▸ same_self a⟩

instance : DecidableEq Json := fun a b => decidable_of_iff _ (same_iff a b)

/-! ## Sorted form -/

mutual

/-- The same value with the members of every object in ascending key order, the last of repeated
members kept. -/
def sorted : Json → Json
  | .array items => .array (sortedItems items)
  | .object members => .object (KeyMap.ofList (sortedMembers members)).toList
  | j => j

/-- Every item in sorted form. -/
def sortedItems : List Json → List Json
  | [] => []
  | j :: rest => sorted j :: sortedItems rest

/-- Every member's value in sorted form. -/
def sortedMembers : List (String × Json) → List (String × Json)
  | [] => []
  | (k, j) :: rest => (k, sorted j) :: sortedMembers rest

end

end Json

end FleetControl
