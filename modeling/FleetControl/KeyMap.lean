/-!
# Maps keyed by text

Finite maps whose keys are texts, kept as an association list in strictly ascending key order. The
order is that of code points, which is also the order of the keys' UTF-8 bytes. Because the order
is strict, a map has exactly one list, so two maps are equal as soon as they answer every look-up
alike.

* `get?_insert` — a look-up after an insertion sees the new value at its key and nothing else;
* `get?_erase` — a look-up after an erasure misses that key and nothing else;
* `ext_get?` — maps with equal look-ups are equal.
-/

namespace FleetControl

/-- The key order of texts is total: two texts neither of which comes first are one. -/
theorem eq_of_not_lt_of_not_lt {a b : String} (h : ¬ a < b) (h' : ¬ b < a) : a = b :=
  String.le_antisymm (String.not_lt.1 h') (String.not_lt.1 h)

/-- Keys in strictly ascending order. -/
def Ascending {α : Type} (entries : List (String × α)) : Prop :=
  entries.Pairwise fun x y => x.1 < y.1

/-- A finite map from texts, as its entries in ascending key order. -/
structure KeyMap (α : Type) where
  entries : List (String × α)
  ascending : Ascending entries

namespace KeyMap

variable {α β : Type}

/-! ## Operations on entry lists -/

/-- The value at a key. -/
def lookup (k : String) : List (String × α) → Option α
  | [] => none
  | (j, v) :: rest => if k = j then some v else lookup k rest

/-- Put a value at a key, replacing the one that was there. -/
def insertEntry (k : String) (v : α) : List (String × α) → List (String × α)
  | [] => [(k, v)]
  | (j, w) :: rest =>
    if k < j then (k, v) :: (j, w) :: rest
    else if j < k then (j, w) :: insertEntry k v rest
    else (k, v) :: rest

theorem mem_insertEntry {k : String} {v : α} {l : List (String × α)} {x : String × α}
    (h : x ∈ insertEntry k v l) : x = (k, v) ∨ x ∈ l := by
  induction l with
  | nil => simpa [insertEntry] using h
  | cons y rest ih =>
    obtain ⟨j, w⟩ := y
    simp only [insertEntry] at h
    split at h
    · simpa using h
    · split at h
      · rcases List.mem_cons.1 h with h | h
        · exact .inr (by simp [h])
        · rcases ih h with h | h
          · exact .inl h
          · exact .inr (List.mem_cons_of_mem _ h)
      · rcases List.mem_cons.1 h with h | h
        · exact .inl h
        · exact .inr (List.mem_cons_of_mem _ h)

theorem ascending_insertEntry {k : String} {v : α} {l : List (String × α)} (h : Ascending l) :
    Ascending (insertEntry k v l) := by
  induction l with
  | nil => simp [insertEntry, Ascending]
  | cons y rest ih =>
    obtain ⟨j, w⟩ := y
    have hp := List.pairwise_cons.1 h
    simp only [insertEntry]
    split
    · next hk =>
      refine List.pairwise_cons.2 ⟨fun x hx => ?_, h⟩
      rcases List.mem_cons.1 hx with rfl | hx
      · exact hk
      · exact String.lt_trans hk (hp.1 x hx)
    · split
      · next hj =>
        refine List.pairwise_cons.2 ⟨fun x hx => ?_, ih hp.2⟩
        rcases mem_insertEntry hx with rfl | hx
        · exact hj
        · exact hp.1 x hx
      · next h1 h2 =>
        have hkj := eq_of_not_lt_of_not_lt h1 h2
        refine List.pairwise_cons.2 ⟨fun x hx => ?_, hp.2⟩
        simpa [hkj] using hp.1 x hx

/-! ## Operations on maps -/

/-- The map without entries. -/
def empty : KeyMap α := ⟨[], .nil⟩

instance : Inhabited (KeyMap α) := ⟨empty⟩
instance : EmptyCollection (KeyMap α) := ⟨empty⟩

/-- The value at a key. -/
def get? (m : KeyMap α) (k : String) : Option α := lookup k m.entries

/-- Whether the map has the key. -/
def contains (m : KeyMap α) (k : String) : Bool := (m.get? k).isSome

/-- Put a value at a key, replacing the one that was there. -/
def insert (m : KeyMap α) (k : String) (v : α) : KeyMap α :=
  ⟨insertEntry k v m.entries, ascending_insertEntry m.ascending⟩

/-- Keep the entries that satisfy a test. -/
def filter (m : KeyMap α) (keep : String → α → Bool) : KeyMap α :=
  ⟨m.entries.filter fun x => keep x.1 x.2, m.ascending.filter _⟩

/-- Drop a key. -/
def erase (m : KeyMap α) (k : String) : KeyMap α := m.filter fun j _ => j ≠ k

/-- Apply a function to every value; it sees the key. -/
def mapValues (m : KeyMap α) (f : String → α → β) : KeyMap β :=
  ⟨m.entries.map fun x => (x.1, f x.1 x.2),
    List.pairwise_map.2 (m.ascending.imp fun h => h)⟩

/-- The entries in ascending key order. -/
def toList (m : KeyMap α) : List (String × α) := m.entries

/-- The keys in ascending order. -/
def keys (m : KeyMap α) : List String := m.entries.map (·.1)

/-- The values in the order of their keys. -/
def values (m : KeyMap α) : List α := m.entries.map (·.2)

/-- The number of keys. -/
def size (m : KeyMap α) : Nat := m.entries.length

/-- Whether there are no entries. -/
def isEmpty (m : KeyMap α) : Bool := m.entries.isEmpty

/-- Insert entries one after the other, so that of two with one key the later wins. -/
def ofList (l : List (String × α)) : KeyMap α :=
  l.foldl (fun m x => m.insert x.1 x.2) empty

instance [DecidableEq α] : DecidableEq (KeyMap α) := fun a b =>
  if h : a.entries = b.entries then
    .isTrue (by cases a; cases b; cases h; rfl)
  else .isFalse fun e => h (e ▸ rfl)

/-! ## Look-ups -/

theorem lookup_eq_none {k : String} {l : List (String × α)} (h : ∀ x ∈ l, k < x.1) :
    lookup k l = none := by
  induction l with
  | nil => rfl
  | cons y rest ih =>
    have hy := h y (by simp)
    simp only [lookup]
    rw [if_neg fun e => String.lt_irrefl _ (e ▸ hy), ih fun x hx => h x (by simp [hx])]

theorem lookup_insertEntry (k j : String) (v : α) {l : List (String × α)} :
    lookup j (insertEntry k v l) = if j = k then some v else lookup j l := by
  induction l with
  | nil => simp [insertEntry, lookup]
  | cons y rest ih =>
    obtain ⟨i, w⟩ := y
    simp only [insertEntry]
    split
    · simp [lookup]
    · split
      · next h =>
        simp only [lookup, ih]
        by_cases hji : j = i
        · subst hji
          have : j ≠ k := fun e => String.lt_irrefl _ (e ▸ h)
          simp [this]
        · simp [hji]
      · next h1 h2 =>
        have hki := eq_of_not_lt_of_not_lt h1 h2
        subst hki
        simp only [lookup]
        by_cases hjk : j = k <;> simp [hjk]

/-- A look-up after an insertion. -/
theorem get?_insert (m : KeyMap α) (k j : String) (v : α) :
    (m.insert k v).get? j = if j = k then some v else m.get? j :=
  lookup_insertEntry k j v

@[simp] theorem get?_empty (k : String) : (empty : KeyMap α).get? k = none := rfl

theorem lookup_filter (keep : String → α → Bool) (k : String) {l : List (String × α)}
    (hl : Ascending l) :
    lookup k (l.filter fun x => keep x.1 x.2) = (lookup k l).filter (keep k) := by
  induction l with
  | nil => rfl
  | cons y rest ih =>
    obtain ⟨j, w⟩ := y
    have hp := List.pairwise_cons.1 hl
    by_cases hk : k = j
    · subst hk
      by_cases hw : keep k w
      · simp [lookup, hw, Option.filter]
      · have : lookup k (rest.filter fun x => keep x.1 x.2) = none := by
          apply lookup_eq_none
          intro x hx
          exact hp.1 x (List.mem_filter.1 hx).1
        simp [lookup, hw, this, Option.filter]
    · by_cases hw : keep j w <;> simp [lookup, hk, hw, ih hp.2]

/-- A look-up after keeping the entries that satisfy a test. -/
theorem get?_filter (m : KeyMap α) (keep : String → α → Bool) (k : String) :
    (m.filter keep).get? k = (m.get? k).filter (keep k) :=
  lookup_filter keep k m.ascending

/-- A look-up after an erasure. -/
theorem get?_erase (m : KeyMap α) (k j : String) :
    (m.erase k).get? j = if j = k then none else m.get? j := by
  rw [erase, get?_filter]
  by_cases h : j = k
  · subst h; cases m.get? j <;> simp
  · cases m.get? j <;> simp [h]

theorem lookup_of_mem {k : String} {v : α} {l : List (String × α)} (hl : Ascending l)
    (h : (k, v) ∈ l) : lookup k l = some v := by
  induction l with
  | nil => simp at h
  | cons y rest ih =>
    have hp := List.pairwise_cons.1 hl
    obtain ⟨j, w⟩ := y
    rcases List.mem_cons.1 h with heq | hmem
    · cases heq
      simp [lookup]
    · have hlt : j < k := hp.1 _ hmem
      have hne : k ≠ j := fun e => String.lt_irrefl j (e ▸ hlt)
      simp [lookup, hne, ih hp.2 hmem]

theorem mem_of_lookup {k : String} {v : α} {l : List (String × α)} (h : lookup k l = some v) :
    (k, v) ∈ l := by
  induction l with
  | nil => simp [lookup] at h
  | cons y rest ih =>
    obtain ⟨j, w⟩ := y
    simp only [lookup] at h
    split at h
    · next e => subst e; simp_all
    · exact List.mem_cons_of_mem _ (ih h)

/-- An entry is listed exactly when a look-up finds it. -/
theorem mem_entries_iff (m : KeyMap α) (k : String) (v : α) :
    (k, v) ∈ m.entries ↔ m.get? k = some v :=
  ⟨lookup_of_mem m.ascending, mem_of_lookup⟩

theorem entries_eq_of_lookup {l l' : List (String × α)} (hl : Ascending l) (hl' : Ascending l')
    (h : ∀ k, lookup k l = lookup k l') : l = l' := by
  induction l generalizing l' with
  | nil =>
    cases l' with
    | nil => rfl
    | cons y rest => have := h y.1; simp [lookup] at this
  | cons x rest ih =>
    cases l' with
    | nil => have := h x.1; simp [lookup] at this
    | cons y rest' =>
      have hx := List.pairwise_cons.1 hl
      have hy := List.pairwise_cons.1 hl'
      have hkey : x.1 = y.1 := by
        apply eq_of_not_lt_of_not_lt
        · intro hlt
          have := h x.1
          rw [lookup_of_mem (v := x.2) hl (by simp),
            lookup_eq_none (l := y :: rest') (by
              intro z hz
              rcases List.mem_cons.1 hz with rfl | hz
              · exact hlt
              · exact String.lt_trans hlt (hy.1 z hz))] at this
          cases this
        · intro hlt
          have := h y.1
          rw [lookup_of_mem (v := y.2) hl' (by simp),
            lookup_eq_none (l := x :: rest) (by
              intro z hz
              rcases List.mem_cons.1 hz with rfl | hz
              · exact hlt
              · exact String.lt_trans hlt (hx.1 z hz))] at this
          cases this
      have hval : x.2 = y.2 := by
        have := h x.1
        rw [lookup_of_mem (v := x.2) hl (by simp), hkey,
          lookup_of_mem (v := y.2) hl' (by simp)] at this
        exact Option.some.inj this
      have hxy : x = y := Prod.ext hkey hval
      subst hxy
      congr 1
      apply ih hx.2 hy.2
      intro k
      have := h k
      simp only [lookup] at this
      by_cases hk : k = x.1
      · subst hk
        rw [lookup_eq_none fun z hz => hx.1 z hz, lookup_eq_none fun z hz => hy.1 z hz]
      · simpa [hk] using this

/-- Maps that answer every look-up alike are equal. -/
theorem ext_get? {m m' : KeyMap α} (h : ∀ k, m.get? k = m'.get? k) : m = m' := by
  cases m with
  | mk l hl => cases m' with
    | mk l' hl' =>
      have := entries_eq_of_lookup hl hl' h
      subst this
      rfl

theorem lookup_map (f : String → α → β) (k : String) (l : List (String × α)) :
    lookup k (l.map fun x => (x.1, f x.1 x.2)) = (lookup k l).map (f k) := by
  induction l with
  | nil => rfl
  | cons y rest ih =>
    obtain ⟨j, w⟩ := y
    simp only [List.map_cons, lookup]
    by_cases hk : k = j
    · subst hk; simp
    · simp [hk, ih]

/-- A look-up after applying a function to every value. -/
theorem get?_mapValues (m : KeyMap α) (f : String → α → β) (k : String) :
    (m.mapValues f).get? k = (m.get? k).map (f k) :=
  lookup_map f k m.entries

end KeyMap

end FleetControl
