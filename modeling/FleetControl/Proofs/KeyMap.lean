import FleetControl.KeyMap

/-!
# Maps and their entries

What follows from the look-ups: which keys a map lists, what changes of a map do to them, and that a
map is rebuilt from its entries.

* `KeyMap.ofList_toList` — inserting a map's entries one after the other gives the map;
* `KeyMap.mem_keys_iff`, `KeyMap.nodup_keys` — the keys are those with a value, each listed once.
-/

namespace FleetControl.KeyMap

variable {α β : Type}

@[simp] theorem get?_insert_self (m : KeyMap α) (k : String) (v : α) :
    (m.insert k v).get? k = some v := by
  simp [get?_insert]

theorem get?_insert_of_ne (m : KeyMap α) {k j : String} (h : j ≠ k) (v : α) :
    (m.insert k v).get? j = m.get? j := by
  simp [get?_insert, h]

@[simp] theorem get?_erase_self (m : KeyMap α) (k : String) : (m.erase k).get? k = none := by
  simp [get?_erase]

theorem get?_erase_of_ne (m : KeyMap α) {k j : String} (h : j ≠ k) :
    (m.erase k).get? j = m.get? j := by
  simp [get?_erase, h]

/-- What is found after an insertion was inserted, or it was found before. -/
theorem get?_of_insert {m : KeyMap α} {k j : String} {v w : α}
    (h : (m.insert k v).get? j = some w) : j = k ∧ v = w ∨ m.get? j = some w := by
  rw [get?_insert] at h
  split at h
  · next hj => exact .inl ⟨hj, Option.some.inj h⟩
  · exact .inr h

/-- What is found after a key was erased was found before. -/
theorem get?_of_erase {m : KeyMap α} {k j : String} {v : α} (h : (m.erase k).get? j = some v) :
    m.get? j = some v := by
  rw [get?_erase] at h
  split at h
  · cases h
  · exact h

/-- A map has a key exactly when a look-up finds something. -/
theorem contains_iff (m : KeyMap α) (k : String) :
    m.contains k = true ↔ ∃ v, m.get? k = some v := by
  simp [contains, Option.isSome_iff_exists]

theorem contains_eq_false_iff (m : KeyMap α) (k : String) :
    m.contains k = false ↔ m.get? k = none := by
  simp [contains]

theorem contains_mapValues (m : KeyMap α) (f : String → α → β) (k : String) :
    (m.mapValues f).contains k = m.contains k := by
  simp [contains, get?_mapValues]

/-! ## Keys and entries -/

/-- The keys of a map are those with a value. -/
theorem mem_keys_iff (m : KeyMap α) (k : String) : k ∈ m.keys ↔ m.contains k = true := by
  rw [contains_iff]
  constructor
  · intro h
    obtain ⟨x, hx, rfl⟩ := List.mem_map.1 h
    exact ⟨x.2, (mem_entries_iff m x.1 x.2).1 hx⟩
  · rintro ⟨v, hv⟩
    exact List.mem_map.2 ⟨(k, v), (mem_entries_iff m k v).2 hv, rfl⟩

/-- The keys of a map come in strictly ascending order. -/
theorem pairwise_keys (m : KeyMap α) : m.keys.Pairwise (· < ·) :=
  List.pairwise_map.2 m.ascending

/-- No key is listed twice. -/
theorem nodup_keys (m : KeyMap α) : m.keys.Nodup := by
  refine m.pairwise_keys.imp ?_
  rintro a b hlt rfl
  exact String.lt_irrefl a hlt

/-- An entry is listed exactly when a look-up finds it. -/
theorem mem_toList_iff (m : KeyMap α) (k : String) (v : α) :
    (k, v) ∈ m.toList ↔ m.get? k = some v := mem_entries_iff m k v

/-- To drop a key adds no value. -/
theorem mem_values_of_erase {m : KeyMap α} {k : String} {v : α} (h : v ∈ (m.erase k).values) :
    v ∈ m.values := (List.filter_sublist.map Prod.snd).mem h

/-- Lists in ascending key order with the same entries are equal. -/
theorem entries_eq_of_mem {l l' : List (String × α)} (hl : Ascending l) (hl' : Ascending l')
    (h : ∀ k v, (k, v) ∈ l ↔ (k, v) ∈ l') : l = l' := by
  apply entries_eq_of_lookup hl hl'
  intro k
  apply Option.ext
  intro v
  constructor
  · exact fun hv => lookup_of_mem hl' ((h k v).1 (mem_of_lookup hv))
  · exact fun hv => lookup_of_mem hl ((h k v).2 (mem_of_lookup hv))

/-- A map without entries has no values. -/
theorem get?_eq_none_of_isEmpty {m : KeyMap α} (h : m.isEmpty = true) (k : String) :
    m.get? k = none := by
  obtain ⟨entries, ascending⟩ := m
  obtain rfl := List.isEmpty_iff.1 h
  rfl

/-- A map without entries is the empty one. -/
theorem eq_empty_of_isEmpty {m : KeyMap α} (h : m.isEmpty = true) : m = empty :=
  ext_get? fun k => get?_eq_none_of_isEmpty h k

/-! ## Maps from lists -/

/-- A look-up after entries with ascending keys were inserted one after the other. -/
private theorem get?_foldl_insert {l : List (String × α)} (hl : Ascending l) (m : KeyMap α)
    (k : String) :
    (l.foldl (fun m x => m.insert x.1 x.2) m).get? k = (lookup k l).or (m.get? k) := by
  induction l generalizing m with
  | nil => simp [lookup]
  | cons x rest ih =>
      obtain ⟨j, w⟩ := x
      have hp := List.pairwise_cons.1 hl
      rw [List.foldl_cons, ih hp.2, get?_insert]
      simp only [lookup]
      by_cases h : k = j
      · subst h
        rw [lookup_eq_none fun x hx => hp.1 x hx]
        simp
      · simp [h]

/-- **A map is rebuilt from its entries.** -/
theorem ofList_toList (m : KeyMap α) : ofList m.toList = m := by
  apply ext_get?
  intro k
  rw [ofList, toList, get?_foldl_insert m.ascending, get?_empty, Option.or_none]
  rfl

/-- What a map from a list holds comes from the list. -/
theorem mem_of_get?_ofList {l : List (String × α)} {k : String} {v : α}
    (h : (ofList l).get? k = some v) : (k, v) ∈ l := by
  have general : ∀ m : KeyMap α, (l.foldl (fun m x => m.insert x.1 x.2) m).get? k = some v →
      (k, v) ∈ l ∨ m.get? k = some v := by
    clear h
    induction l with
    | nil => exact fun m h => .inr h
    | cons x rest ih =>
        intro m hfold
        rw [List.foldl_cons] at hfold
        rcases ih _ hfold with hrest | hget
        · exact .inl (List.mem_cons_of_mem _ hrest)
        · rw [get?_insert] at hget
          split at hget
          · next hk =>
            subst hk
            obtain rfl := Option.some.inj hget
            exact .inl (by simp)
          · exact .inr hget
  rcases general empty h with h | h
  · exact h
  · simp at h

end FleetControl.KeyMap
