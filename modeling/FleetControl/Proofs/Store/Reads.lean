import FleetControl.Proofs.Site.Host

/-!
# What reads show and what they leave

A key is shown by a store while its entry is live or a tombstone. The store in memory sheds entries
that are gone when it comes across them, and sheds nothing else, so a read does not change what the
store shows. A scan shows every key under its scope that the store shows at all, with one exception:
the table finds nothing under a scope with a NUL in it.

* `Backend.shown?` — a key as the store shows it;
* `Backend.Sheds` — a store from which at most something gone was dropped;
* `Backend.sheds_getAny`, `Backend.sheds_list`, `Backend.sheds_compact` — what leaves such a store;
* `Backend.getAny_answer`, `Backend.mem_list_iff` — what a look-up and a scan show.
-/

namespace FleetControl

open Simulation (Backend)

/-! ## Look-ups in memory -/

namespace Memory

/-- A look-up drops the entry that it looked up if that is gone, and nothing else. -/
theorem get?_find (m : Memory) (now : Instant) (key other : String) :
    (m.find now key).2.entries.get? other = m.entries.get? other ∨
      ∃ e, m.entries.get? other = some e ∧ e.stage m.grace now = .gone ∧
        (m.find now key).2.entries.get? other = none := by
  by_cases hkey : other = key
  · subst hkey
    unfold find
    split
    · exact .inl rfl
    · next e he =>
      split
      · exact .inl rfl
      · split
        · next hgone => exact .inr ⟨e, he, hgone, KeyMap.get?_erase_self _ _⟩
        · exact .inl rfl
  · exact .inl (get?_find_of_ne m now hkey)

/-- What a look-up that ends has found. -/
theorem getAny_answer {m m' : Memory} {now : Instant} {key : String} {found : Option Snapshot}
    (h : m.getAny now key = (.answer found, m')) :
    found = ((m.entries.get? key).filter fun e => e.stage m.grace now != .gone).map fun e =>
      e.snapshot key (e.stage m.grace now) := by
  simp only [getAny, find] at h
  cases hget : m.entries.get? key with
  | none =>
      rw [hget] at h
      cases h
      rfl
  | some e =>
      rw [hget] at h
      cases hdatable : e.datable m.grace now with
      | false => simp [hdatable] at h
      | true =>
          cases hstage : e.stage m.grace now <;> simp [hdatable, hstage] at h <;>
            simp [Option.filter_some, hstage, h.1.symm]

end Memory

namespace Simulation.Backend

/-- The revision of the last write. -/
def revision : Backend → Nat
  | memory m => m.revision
  | table t => t.revision

/-- Whether scans under a scope find anything. -/
def scans : Backend → String → Bool
  | memory _, _ => true
  | table _, scope => !scope.toList.contains (Char.ofNat 0)

/-- A key as the store shows it: live or a tombstone. -/
def shown? (b : Backend) (now : Instant) (key : String) : Option Snapshot :=
  ((b.entry? key).filter fun e => e.stage b.grace now != .gone).map fun e =>
    e.snapshot key (e.stage b.grace now)

theorem shown?_eq_some_iff (b : Backend) (now : Instant) (key : String) (kv : Snapshot) :
    b.shown? now key = some kv ↔ ∃ e, b.entry? key = some e ∧ e.stage b.grace now ≠ .gone ∧
      kv = e.snapshot key (e.stage b.grace now) := by
  simp only [shown?, Option.map_eq_some_iff, Option.filter_eq_some_iff, bne_iff_ne]
  constructor
  · rintro ⟨e, ⟨hentry, hkept⟩, rfl⟩
    exact ⟨e, hentry, hkept, rfl⟩
  · rintro ⟨e, hentry, hkept, rfl⟩
    exact ⟨e, ⟨hentry, hkept⟩, rfl⟩

theorem key_of_shown? {b : Backend} {now : Instant} {key : String} {kv : Snapshot}
    (h : b.shown? now key = some kv) : kv.key = key := by
  obtain ⟨e, -, -, rfl⟩ := (shown?_eq_some_iff _ _ _ _).1 h
  rfl

/-- **What is live is what is shown and is not a tombstone.** -/
theorem live?_eq_some_iff_shown (b : Backend) (now : Instant) (key : String) (e : Entry) :
    b.live? now key = some e ↔
      b.entry? key = some e ∧ b.shown? now key = some (e.snapshot key .live) := by
  rw [live?_eq_some_iff, shown?_eq_some_iff]
  constructor
  · rintro ⟨hentry, hlive⟩
    exact ⟨hentry, e, hentry, by simp [hlive], by rw [hlive]⟩
  · rintro ⟨hentry, e', hentry', hkept, hsame⟩
    obtain rfl := Option.some.inj (hentry.symm.trans hentry')
    refine ⟨hentry, ?_⟩
    have hdead := congrArg Snapshot.dead hsame
    cases hstage : e.stage b.grace now with
    | live => rfl
    | tombstone => simp [Entry.snapshot, hstage] at hdead
    | gone => exact absurd hstage hkept

/-- A store from which at most something was dropped that is gone. -/
structure Sheds (now : Instant) (b b' : Backend) : Prop where
  revision : b'.revision = b.revision
  grace : b'.grace = b.grace
  entry : ∀ key, b'.entry? key = b.entry? key ∨
    ∃ e, b.entry? key = some e ∧ e.stage b.grace now = .gone ∧ b'.entry? key = none

namespace Sheds

variable {now : Instant} {b b' b'' : Backend}

theorem refl (now : Instant) (b : Backend) : Sheds now b b := ⟨rfl, rfl, fun _ => .inl rfl⟩

theorem trans (h : Sheds now b b') (h' : Sheds now b' b'') : Sheds now b b'' := by
  refine ⟨h'.revision.trans h.revision, h'.grace.trans h.grace, fun key => ?_⟩
  rcases h'.entry key with hsame' | ⟨e, hentry', hgone, hnone⟩
  · rw [hsame']
    exact h.entry key
  · rcases h.entry key with hsame | ⟨_, _, _, hnone'⟩
    · rw [h.grace] at hgone
      exact .inr ⟨e, hsame ▸ hentry', hgone, hnone⟩
    · rw [hnone'] at hentry'
      cases hentry'

/-- What is there afterwards was there before. -/
theorem before (h : Sheds now b b') {key : String} {e : Entry} (he : b'.entry? key = some e) :
    b.entry? key = some e := by
  rcases h.entry key with hsame | ⟨_, _, _, hnone⟩
  · rwa [hsame] at he
  · rw [hnone] at he
    cases he

/-- **The store still shows what it showed.** -/
theorem shown? (h : Sheds now b b') (key : String) : b'.shown? now key = b.shown? now key := by
  unfold Backend.shown?
  rw [h.grace]
  rcases h.entry key with hsame | ⟨e, hentry, hgone, hnone⟩
  · rw [hsame]
  · simp [hentry, hgone, hnone, Option.filter_some]

/-- What was live still is. -/
theorem live? (h : Sheds now b b') (key : String) : b'.live? now key = b.live? now key := by
  unfold Backend.live?
  rw [h.grace]
  rcases h.entry key with hsame | ⟨e, hentry, hgone, hnone⟩
  · rw [hsame]
  · simp [hentry, hgone, hnone, Option.filter_some]

end Sheds

/-! ## Reads -/

variable {now : Instant} {b b' : Backend} {key scope : String}

/-- What a look-up in memory leaves was dropped of at most what is gone. -/
theorem sheds_of_find {m m' : Memory} (h : m' = (m.find now key).2) :
    Sheds now (memory m) (memory m') := by
  subst h
  exact ⟨(m.find_frame now key).1, (m.find_frame now key).2, m.get?_find now key⟩

/-- Reading a live key leaves what is not gone. -/
theorem sheds_get (b : Backend) (now : Instant) (key : String) :
    Sheds now b (b.apply now (.get key)).2 := by
  cases b with
  | memory m =>
      refine sheds_of_find (?_ : _ = (m.find now key).2)
      change (m.get now key).2 = (m.find now key).2
      unfold Memory.get
      rcases m.find now key with ⟨_ | ⟨e, _ | _ | _⟩ | _, m'⟩ <;> rfl
  | table t => exact .refl now _

/-- Looking for a key leaves what is not gone. -/
theorem sheds_getAny (b : Backend) (now : Instant) (key : String) :
    Sheds now b (b.apply now (.getAny key)).2 := by
  cases b with
  | memory m =>
      refine sheds_of_find (?_ : _ = (m.find now key).2)
      change (m.getAny now key).2 = (m.find now key).2
      unfold Memory.getAny
      rcases m.find now key with ⟨_ | ⟨e, stage⟩ | _, m'⟩ <;> rfl
  | table t => exact .refl now _

/-- Asking for a live key leaves what is not gone. -/
theorem sheds_contains (b : Backend) (now : Instant) (key : String) :
    Sheds now b (b.apply now (.contains key)).2 := by
  cases b with
  | memory m =>
      refine sheds_of_find (?_ : _ = (m.find now key).2)
      change (m.contains now key).2 = (m.find now key).2
      unfold Memory.contains
      rcases m.find now key with ⟨_ | ⟨e, _ | _ | _⟩ | _, m'⟩ <;> rfl
  | table t => exact .refl now _

/-- A scan leaves what is not gone. -/
theorem sheds_list (b : Backend) (now : Instant) (scope : String) :
    Sheds now b (b.apply now (.list scope)).2 := by
  cases b with
  | memory m =>
      change Sheds now (memory m) (memory (m.list now scope).2)
      cases hlist : m.list now scope with
      | mk outcome m' =>
          cases outcome with
          | answer found =>
              have hframe : m'.revision = m.revision ∧ m'.grace = m.grace := by
                simp only [Memory.list] at hlist
                split at hlist <;> cases hlist
                exact ⟨rfl, rfl⟩
              refine ⟨hframe.1, hframe.2, fun key => ?_⟩
              change m'.entries.get? key = m.entries.get? key ∨ _
              rw [Memory.get?_list hlist]
              change _ ∨ ∃ e, m.entries.get? key = some e ∧ e.stage m.grace now = .gone ∧
                m'.entries.get? key = none
              rw [Memory.get?_list hlist]
              cases hget : m.entries.get? key with
              | none => exact .inl rfl
              | some e =>
                  rw [Option.filter_some]
                  split
                  · exact .inl rfl
                  · next hdropped =>
                    refine .inr ⟨e, rfl, ?_, rfl⟩
                    simp only [Bool.not_eq_true', Bool.not_eq_false, Bool.and_eq_true,
                      beq_iff_eq] at hdropped
                    exact hdropped.2
          | refused e =>
              simp only [Memory.list] at hlist
              split at hlist <;> cases hlist
          | undatable =>
              simp only [Memory.list] at hlist
              split at hlist <;> cases hlist
              exact .refl now _
  | table t => exact .refl now _

/-- Compacting a store leaves what is not gone. -/
theorem sheds_compact (b : Backend) (now : Instant) : Sheds now b (b.compact now).2 := by
  -- Both backends filter their entries by the same test.
  have hfilter : ∀ (entries : KeyMap Entry) (grace : Span) (key : String),
      let kept := entries.filter fun _ e => e.stage grace now != .gone
      kept.get? key = entries.get? key ∨ ∃ e, entries.get? key = some e ∧
        e.stage grace now = .gone ∧ kept.get? key = none := by
    intro entries grace key kept
    have hkept : kept.get? key =
        (entries.get? key).filter fun e => e.stage grace now != .gone :=
      KeyMap.get?_filter _ _ _
    rw [hkept]
    cases entries.get? key with
    | none => exact .inl rfl
    | some e => cases hstage : e.stage grace now <;> simp [hstage]
  cases b with
  | memory m =>
      simp only [compact, Memory.compact]
      split
      · exact ⟨rfl, rfl, hfilter m.entries m.grace⟩
      · exact .refl now _
  | table t =>
      simp only [compact, Table.compact]
      split
      · exact ⟨rfl, rfl, hfilter t.rows t.grace⟩
      · exact .refl now _

/-- **A look-up that ends finds what the store shows.** -/
theorem getAny_answer {found : Option Snapshot}
    (h : b.apply now (.getAny key) = (.answer found, b')) : found = b.shown? now key := by
  cases b with
  | memory m =>
      obtain ⟨hanswer, -⟩ := Prod.mk.inj h
      have hlooked : m.getAny now key = (.answer found, (m.getAny now key).2) :=
        Prod.ext hanswer rfl
      exact Memory.getAny_answer hlooked
  | table t =>
      obtain ⟨hanswer, -⟩ := Prod.mk.inj h
      have hsame := ((Agree.of_rows now t).getAny key).answer
      have hlooked : (⟨t.rows, t.revision, t.grace⟩ : Memory).getAny now key =
          (.answer found, ((⟨t.rows, t.revision, t.grace⟩ : Memory).getAny now key).2) :=
        Prod.ext (hsame.trans hanswer) rfl
      rw [Memory.getAny_answer hlooked]
      simp only [shown?, entry?, grace]

/-- No look-up is refused. -/
theorem getAny_not_refused (b : Backend) (now : Instant) (key : String) (e : StoreError)
    (b' : Backend) : b.apply now (.getAny key) ≠ (.refused e, b') := by
  intro h
  obtain ⟨hanswer, -⟩ := Prod.mk.inj h
  cases b with
  | memory m =>
      simp only [Memory.apply, Memory.getAny] at hanswer
      rcases hfind : m.find now key with ⟨_ | ⟨e, stage⟩ | _, m'⟩ <;> simp [hfind] at hanswer
  | table t =>
      simp only [Table.apply, Table.getAny] at hanswer
      rcases hfind : t.find now key with _ | ⟨e, _ | _ | _⟩ | _ <;> simp [hfind] at hanswer

/-- **A scan that ends shows what the store shows under the scope**, if it finds anything there. -/
theorem mem_list_iff {found : List Snapshot}
    (h : b.apply now (.list scope) = (.answer found, b')) (kv : Snapshot) :
    kv ∈ found ↔
      b.scans scope = true ∧ under scope kv.key = true ∧ b.shown? now kv.key = some kv := by
  rw [shown?_eq_some_iff]
  cases b with
  | memory m =>
      obtain ⟨hanswer, -⟩ := Prod.mk.inj h
      have hlisted : m.list now scope = (.answer found, (m.list now scope).2) :=
        Prod.ext hanswer rfl
      rw [Memory.mem_list_iff hlisted]
      simp only [scans, under, true_and, List.isPrefixOf_iff_prefix, entry?, grace]
      constructor
      · rintro ⟨e, hentry, hunder, hkept, hkv⟩
        exact ⟨hunder, e, hentry, hkept, hkv⟩
      · rintro ⟨hunder, e, hentry, hkept, hkv⟩
        exact ⟨e, hentry, hunder, hkept, hkv⟩
  | table t =>
      obtain ⟨hanswer, -⟩ := Prod.mk.inj h
      simp only [Table.apply, Table.list] at hanswer
      split at hanswer
      · cases hanswer
        simp only [List.mem_map, List.mem_filter, Table.finds, Bool.and_eq_true, bne_iff_ne,
          KeyMap.mem_toList_iff, Prod.exists, scans, under, entry?, grace]
        constructor
        · rintro ⟨key, e, ⟨⟨hentry, hscans, hunder⟩, hkept⟩, rfl⟩
          exact ⟨hscans, hunder, e, hentry, hkept, rfl⟩
        · rintro ⟨hscans, hunder, e, hentry, hkept, hkv⟩
          exact ⟨kv.key, e, ⟨⟨hentry, hscans, hunder⟩, hkept⟩, hkv.symm⟩
      · cases hanswer

/-- No scan is refused. -/
theorem list_not_refused (b : Backend) (now : Instant) (scope : String) (e : StoreError)
    (b' : Backend) : b.apply now (.list scope) ≠ (.refused e, b') := by
  intro h
  obtain ⟨hanswer, -⟩ := Prod.mk.inj h
  cases b with
  | memory m =>
      simp only [Memory.apply, Memory.list] at hanswer
      split at hanswer <;> cases hanswer
  | table t =>
      simp only [Table.apply, Table.list] at hanswer
      split at hanswer <;> cases hanswer

/-- A scan shows keys in their order. -/
theorem pairwise_list {found : List Snapshot}
    (h : b.apply now (.list scope) = (.answer found, b')) :
    (found.map (·.key)).Pairwise (· < ·) := by
  -- The keys of a scan are among the keys of the store, in their order.
  have hkeys : ∃ entries : KeyMap Entry, List.Sublist (found.map (·.key)) entries.keys := by
    obtain ⟨hanswer, -⟩ := Prod.mk.inj h
    cases b with
    | memory m =>
        refine ⟨m.entries, ?_⟩
        simp only [Memory.apply, Memory.list] at hanswer
        split at hanswer
        · cases hanswer
          rw [List.map_map, Memory.under_eq_filter]
          exact (List.filter_sublist.trans List.filter_sublist).map _
        · cases hanswer
    | table t =>
        refine ⟨t.rows, ?_⟩
        simp only [Table.apply, Table.list] at hanswer
        split at hanswer
        · cases hanswer
          rw [List.map_map]
          exact (List.filter_sublist.trans List.filter_sublist).map _
        · cases hanswer
  obtain ⟨entries, hsublist⟩ := hkeys
  exact entries.pairwise_keys.sublist hsublist

/-- A scan shows no key twice. -/
theorem nodup_list {found : List Snapshot}
    (h : b.apply now (.list scope) = (.answer found, b')) : (found.map (·.key)).Nodup := by
  refine (pairwise_list h).imp ?_
  rintro a b hlt rfl
  exact String.lt_irrefl a hlt

end Simulation.Backend

end FleetControl
