import FleetControl.Proofs.KeyMap
import FleetControl.Store.Memory

/-!
# Operations on the store in memory

Each operation looks up one key and changes at most that key. What it does is told by the live entry
at the key, if there is one, as long as the end of a dead entry's grace has a date.

* `Memory.live?` — the live entry at a key;
* `Memory.get_eq`, `Memory.set_eq`, `Memory.delete_eq` — the operations in these terms;
* `Memory.find_entries` — a look-up drops at most the entry that it looked up, and only a dead one.
-/

namespace FleetControl

namespace Entry

/-- The entry was neither deleted nor will it expire. -/
structure Lasting (e : Entry) : Prop where
  deletedAt : e.deletedAt = none
  expiresAt : e.expiresAt = none

theorem Lasting.deadSince {e : Entry} (h : e.Lasting) (now : Instant) : e.deadSince now = none := by
  simp [Entry.deadSince, h.deletedAt, h.expiresAt]

/-- A lasting entry is live at every instant. -/
theorem Lasting.stage {e : Entry} (h : e.Lasting) (grace : Span) (now : Instant) :
    e.stage grace now = .live := by
  simp [Entry.stage, h.deadSince]

theorem Lasting.datable {e : Entry} (h : e.Lasting) (grace : Span) (now : Instant) :
    e.datable grace now = true := by
  simp [Entry.datable, h.deadSince]

/-- What was deleted is not live. -/
theorem stage_ne_live {e : Entry} (h : e.deletedAt ≠ none) (grace : Span) (now : Instant) :
    e.stage grace now ≠ .live := by
  obtain ⟨t, ht⟩ := Option.ne_none_iff_exists'.1 h
  have hdead : e.deadSince now = some t := by simp [Entry.deadSince, ht]
  simp only [Entry.stage, hdead]
  split <;> simp

/-- An entry that does not expire is live exactly until it is deleted. -/
theorem stage_eq_live_iff {e : Entry} (h : e.expiresAt = none) (grace : Span) (now : Instant) :
    e.stage grace now = .live ↔ e.deletedAt = none :=
  ⟨fun hlive => Classical.byContradiction fun hdeleted => stage_ne_live hdeleted grace now hlive,
    fun hdeleted => Lasting.stage ⟨hdeleted, h⟩ grace now⟩

end Entry

namespace Memory

/-- The live entry at a key. -/
def live? (m : Memory) (now : Instant) (key : String) : Option Entry :=
  (m.entries.get? key).filter fun e => e.stage m.grace now == .live

/-- The end of the grace at a key has a date, if there is an end. -/
def DatableAt (m : Memory) (now : Instant) (key : String) : Prop :=
  ∀ e, m.entries.get? key = some e → e.datable m.grace now = true

/-- What is stored at a key does not expire. -/
def TimelessAt (m : Memory) (key : String) : Prop :=
  ∀ e, m.entries.get? key = some e → e.expiresAt = none

theorem live?_eq_some_iff (m : Memory) (now : Instant) (key : String) (e : Entry) :
    m.live? now key = some e ↔ m.entries.get? key = some e ∧ e.stage m.grace now = .live := by
  simp [live?, Option.filter_eq_some_iff]

/-- Without an expiry what is live does not depend on the time. -/
theorem TimelessAt.live?_eq_some_iff {m : Memory} {key : String} (h : m.TimelessAt key)
    (now : Instant) (e : Entry) :
    m.live? now key = some e ↔ m.entries.get? key = some e ∧ e.Lasting := by
  rw [Memory.live?_eq_some_iff]
  constructor
  · rintro ⟨hget, hstage⟩
    have hexpires := h e hget
    exact ⟨hget, (Entry.stage_eq_live_iff hexpires _ _).1 hstage, hexpires⟩
  · rintro ⟨hget, hlasting⟩
    exact ⟨hget, hlasting.stage _ _⟩

theorem TimelessAt.live?_eq {m : Memory} {key : String} (h : m.TimelessAt key)
    (now now' : Instant) : m.live? now key = m.live? now' key := by
  apply Option.ext
  intro e
  rw [h.live?_eq_some_iff, h.live?_eq_some_iff]

/-- Without an expiry the end of the grace does not depend on the time. -/
theorem TimelessAt.datableAt {m : Memory} {key : String} (h : m.TimelessAt key) {now : Instant}
    (hdatable : m.DatableAt now key) (now' : Instant) : m.DatableAt now' key := by
  intro e he
  have hsame : e.deadSince now' = e.deadSince now := by simp [Entry.deadSince, h e he]
  have hnow := hdatable e he
  unfold Entry.datable at hnow ⊢
  rw [hsame]
  exact hnow

/-- What is live at a key is told by its entry. -/
theorem live?_congr {m m' : Memory} {key : String}
    (hget : m'.entries.get? key = m.entries.get? key) (hgrace : m'.grace = m.grace) (t : Instant) :
    m'.live? t key = m.live? t key := by
  unfold live?
  rw [hget, hgrace]

theorem TimelessAt.congr {m m' : Memory} {key : String} (h : m.TimelessAt key)
    (hget : m'.entries.get? key = m.entries.get? key) : m'.TimelessAt key := by
  intro e he
  rw [hget] at he
  exact h e he

/-! ## Looking up -/

theorem find_frame (m : Memory) (now : Instant) (key : String) :
    (m.find now key).2.revision = m.revision ∧ (m.find now key).2.grace = m.grace := by
  unfold find
  split
  · exact ⟨rfl, rfl⟩
  · split
    · exact ⟨rfl, rfl⟩
    · split <;> exact ⟨rfl, rfl⟩

/-- A look-up drops at most the entry that it looked up. -/
theorem find_entries (m : Memory) (now : Instant) (key : String) :
    (m.find now key).2.entries = m.entries ∨
      (m.live? now key = none ∧ (m.find now key).2.entries = m.entries.erase key) := by
  unfold find
  split
  · exact .inl rfl
  · next e he =>
    split
    · exact .inl rfl
    · split
      · next hgone =>
        refine .inr ⟨?_, rfl⟩
        simp [live?, he, hgone]
      · exact .inl rfl

/-- A look-up changes nothing at other keys. -/
theorem get?_find_of_ne (m : Memory) (now : Instant) {key other : String} (h : other ≠ key) :
    (m.find now key).2.entries.get? other = m.entries.get? other := by
  rcases find_entries m now key with heq | ⟨-, heq⟩
  · rw [heq]
  · rw [heq, KeyMap.get?_erase_of_ne _ h]

/-- A look-up adds nothing. -/
theorem timelessAt_find {m : Memory} {key : String} (h : m.TimelessAt key) (now : Instant)
    (other : String) : (m.find now other).2.TimelessAt key := by
  intro e he
  rcases find_entries m now other with heq | ⟨-, heq⟩
  · rw [heq] at he
    exact h e he
  · rw [heq] at he
    exact h e (KeyMap.get?_of_erase he)

/-- A look-up drops nothing that is live. -/
theorem live?_find {m : Memory} {key : String} (h : m.TimelessAt key) (now : Instant)
    (other : String) (t : Instant) : (m.find now other).2.live? t key = m.live? t key := by
  obtain ⟨-, hgrace⟩ := find_frame m now other
  rcases find_entries m now other with heq | ⟨hnone, heq⟩
  · unfold live?
    rw [heq, hgrace]
  · by_cases hkey : key = other
    · subst hkey
      rw [h.live?_eq t now, hnone]
      unfold live?
      rw [heq, KeyMap.get?_erase_self]
      rfl
    · unfold live?
      rw [heq, hgrace, KeyMap.get?_erase_of_ne _ hkey]

/-- What a look-up leaves has a dated grace if what was there had. -/
theorem datableAt_find {m : Memory} {now : Instant} {key : String} (h : m.DatableAt now key) :
    (m.find now key).2.DatableAt now key := by
  intro e he
  obtain ⟨-, hgrace⟩ := find_frame m now key
  rcases find_entries m now key with heq | ⟨-, heq⟩
  · rw [heq] at he
    rw [hgrace]
    exact h e he
  · rw [heq, KeyMap.get?_erase_self] at he
    cases he

theorem find_of_live {m : Memory} {now : Instant} {key : String} {e : Entry}
    (h : m.live? now key = some e) : m.find now key = (.entry e .live, m) := by
  obtain ⟨hget, hstage⟩ := (live?_eq_some_iff m now key e).1 h
  have hdatable : e.datable m.grace now = true := by
    unfold Entry.stage at hstage
    unfold Entry.datable
    split at hstage
    · simp
    · split at hstage <;> cases hstage
  simp [find, hget, hdatable, hstage]

/-- Where nothing is live a look-up finds nothing that is live. -/
theorem find_of_not_live {m : Memory} {now : Instant} {key : String}
    (h : m.live? now key = none) (hdatable : m.DatableAt now key) :
    (m.find now key).1 = .nothing ∨ ∃ e, (m.find now key).1 = .entry e .tombstone := by
  unfold find
  split
  · exact .inl rfl
  · next e he =>
    have hd := hdatable e he
    simp only [live?, he, Option.filter_some] at h
    simp only [hd, Bool.not_true, Bool.false_eq_true, if_false]
    cases hstage : e.stage m.grace now with
    | live => simp [hstage] at h
    | tombstone => exact .inr ⟨e, rfl⟩
    | gone => exact .inl rfl

theorem find_of_not_datable {m : Memory} {now : Instant} {key : String}
    (h : ¬ m.DatableAt now key) : m.find now key = (.undatable, m) := by
  simp only [DatableAt, Classical.not_forall] at h
  obtain ⟨e, he, hd⟩ := h
  simp [find, he, hd]

/-! ## Operations -/

/-- **Reading a key** shows its live entry and drops nothing that is live. -/
theorem get_eq {m : Memory} {now : Instant} {key : String} (h : m.DatableAt now key) :
    m.get now key = match m.live? now key with
      | some e => (.answer (e.snapshot key .live), m)
      | none => (.refused (.keyNotFound key), (m.find now key).2) := by
  cases hlive : m.live? now key with
  | some e => simp [get, find_of_live hlive]
  | none =>
      rcases find_of_not_live hlive h with hfound | ⟨e, hfound⟩
      · rw [get, show m.find now key = (.nothing, (m.find now key).2) from Prod.ext hfound rfl]
      · rw [get, show m.find now key = (.entry e .tombstone, (m.find now key).2) from
          Prod.ext hfound rfl]

theorem get_of_not_datable {m : Memory} {now : Instant} {key : String}
    (h : ¬ m.DatableAt now key) : m.get now key = (.undatable, m) := by
  simp [get, find_of_not_datable h]

/-- The store after a write without conditions. -/
def written (m : Memory) (key : String) (data : Bytes) : Memory :=
  { m with
    entries := m.entries.insert key ⟨data, m.revision + 1, none, none⟩
    revision := m.revision + 1 }

/-- What was written is live. -/
theorem live?_written_self (m : Memory) (now : Instant) (key : String) (data : Bytes) :
    (m.written key data).live? now key = some ⟨data, m.revision + 1, none, none⟩ := by
  have hlasting : (⟨data, m.revision + 1, none, none⟩ : Entry).Lasting := ⟨rfl, rfl⟩
  rw [live?_eq_some_iff]
  exact ⟨KeyMap.get?_insert_self _ _ _, hlasting.stage _ _⟩

/-- A write changes nothing at other keys. -/
theorem live?_written_of_ne (m : Memory) (now : Instant) {key key' : String} (data : Bytes)
    (h : key' ≠ key) : (m.written key data).live? now key' = m.live? now key' := by
  simp only [live?, written, KeyMap.get?_insert_of_ne _ h]

/-- Where something was written there is no grace that could end beyond the calendar. -/
theorem datableAt_written (m : Memory) (now : Instant) (key : String) (data : Bytes) :
    (m.written key data).DatableAt now key := by
  intro e he
  obtain rfl := Option.some.inj ((KeyMap.get?_insert_self _ _ _).symm.trans he)
  exact Entry.Lasting.datable ⟨rfl, rfl⟩ _ _

/-- What is written without a time to live does not expire. -/
theorem timelessAt_written {m : Memory} {key : String} (h : m.TimelessAt key) (other : String)
    (data : Bytes) : (m.written other data).TimelessAt key := by
  intro e he
  rcases KeyMap.get?_of_insert he with ⟨-, rfl⟩ | hbefore
  · rfl
  · exact h e hbefore

/-- **Writing a key** succeeds, whatever was there. -/
theorem set_eq {m : Memory} {now : Instant} {key : String} (data : Bytes) (hkey : key ≠ "")
    (h : m.DatableAt now key) :
    m.write now key data none .any = (.answer (m.revision + 1), m.written key data) := by
  have hempty : key.isEmpty = false := by simpa using hkey
  -- The look-up drops at most the entry that the write replaces.
  have hput : (m.find now key).2.put key data none = (m.revision + 1, m.written key data) := by
    obtain ⟨hrevision, hgrace⟩ := find_frame m now key
    have hentries : (m.find now key).2.entries.insert key ⟨data, m.revision + 1, none, none⟩ =
        m.entries.insert key ⟨data, m.revision + 1, none, none⟩ := by
      rcases find_entries m now key with heq | ⟨-, heq⟩
      · rw [heq]
      · rw [heq]
        apply KeyMap.ext_get?
        intro j
        rw [KeyMap.get?_insert, KeyMap.get?_insert, KeyMap.get?_erase]
        by_cases hj : j = key <;> simp [hj]
    simp only [put, written, hrevision, hentries, hgrace]
  unfold write
  rw [hempty]
  cases hlive : m.live? now key with
  | some e =>
      rw [find_of_live hlive] at hput ⊢
      simp only [Bool.false_eq_true, if_false, Precondition.fault, Expiry.ofTtl, hput]
  | none =>
      rcases find_of_not_live hlive h with hfound | ⟨e, hfound⟩ <;>
        simp only [hfound, Bool.false_eq_true, if_false, Precondition.fault, Expiry.ofTtl, hput]

theorem set_of_not_datable {m : Memory} {now : Instant} {key : String} (data : Bytes)
    (hkey : key ≠ "") (h : ¬ m.DatableAt now key) :
    m.write now key data none .any = (.undatable, m) := by
  have hempty : key.isEmpty = false := by simpa using hkey
  simp [write, hempty, find_of_not_datable h]

/-- A write changes nothing at other keys, whatever its conditions. -/
theorem write_frame (m : Memory) (now : Instant) {key other : String} (data : Bytes)
    (ttl : Option Span) (condition : Precondition) (h : other ≠ key) :
    (m.write now key data ttl condition).2.entries.get? other = m.entries.get? other ∧
      (m.write now key data ttl condition).2.grace = m.grace := by
  have hfind := get?_find_of_ne m now h
  obtain ⟨-, hgrace⟩ := find_frame m now key
  have hput : ∀ expiry, ((m.find now key).2.put key data expiry).2.entries.get? other =
      m.entries.get? other := by
    intro expiry
    rw [← hfind]
    exact KeyMap.get?_insert_of_ne _ h _
  unfold write
  split
  · exact ⟨rfl, rfl⟩
  · simp only
    split
    · exact ⟨hfind, hgrace⟩
    all_goals
      split
      · exact ⟨hfind, hgrace⟩
      · split
        · exact ⟨hfind, hgrace⟩
        · exact ⟨hput none, hgrace⟩
        · exact ⟨hput _, hgrace⟩

/-- The store after the deletion of a live entry. -/
def deleted (m : Memory) (now : Instant) (key : String) (e : Entry) : Memory :=
  { m with
    entries := m.entries.insert key { e with deletedAt := some now, version := m.revision + 1 }
    revision := m.revision + 1 }

/-- What was deleted is not live. -/
theorem live?_deleted_self (m : Memory) (now t : Instant) (key : String) (e : Entry) :
    (m.deleted now key e).live? t key = none := by
  have hstage := Entry.stage_ne_live
    (e := { e with deletedAt := some now, version := m.revision + 1 }) (by simp) m.grace t
  simp only [live?, deleted, KeyMap.get?_insert_self, Option.filter_some]
  simp [hstage]

/-- A deletion changes nothing at other keys. -/
theorem live?_deleted_of_ne (m : Memory) (now t : Instant) {key key' : String} (e : Entry)
    (h : key' ≠ key) : (m.deleted now key e).live? t key' = m.live? t key' := by
  simp only [live?, deleted, KeyMap.get?_insert_of_ne _ h]

theorem timelessAt_deleted {m : Memory} {key : String} (h : m.TimelessAt key) (now : Instant)
    {other : String} {e : Entry} (hother : m.entries.get? other = some e) :
    (m.deleted now other e).TimelessAt key := by
  intro e' he
  rcases KeyMap.get?_of_insert he with ⟨rfl, rfl⟩ | hbefore
  · exact h e hother
  · exact h e' hbefore

/-- **Deleting a key** makes its live entry a tombstone. -/
theorem delete_eq {m : Memory} {now : Instant} {key : String} (h : m.DatableAt now key) :
    m.delete now key = match m.live? now key with
      | some e => (.answer (), m.deleted now key e)
      | none => (.refused (.keyNotFound key), (m.find now key).2) := by
  cases hlive : m.live? now key with
  | some e => simp [delete, find_of_live hlive, deleted]
  | none =>
      rcases find_of_not_live hlive h with hfound | ⟨e, hfound⟩
      · rw [delete, show m.find now key = (.nothing, (m.find now key).2) from Prod.ext hfound rfl]
      · rw [delete, show m.find now key = (.entry e .tombstone, (m.find now key).2) from
          Prod.ext hfound rfl]

theorem delete_of_not_datable {m : Memory} {now : Instant} {key : String}
    (h : ¬ m.DatableAt now key) : m.delete now key = (.undatable, m) := by
  simp [delete, find_of_not_datable h]

/-- A deletion changes nothing at other keys. -/
theorem delete_frame (m : Memory) (now : Instant) {key other : String} (h : other ≠ key) :
    (m.delete now key).2.entries.get? other = m.entries.get? other ∧
      (m.delete now key).2.grace = m.grace := by
  by_cases hdatable : m.DatableAt now key
  · rw [delete_eq hdatable]
    split
    · exact ⟨KeyMap.get?_insert_of_ne _ h _, rfl⟩
    · exact ⟨get?_find_of_ne m now h, (find_frame m now key).2⟩
  · rw [delete_of_not_datable hdatable]
    exact ⟨rfl, rfl⟩

end Memory

end FleetControl
