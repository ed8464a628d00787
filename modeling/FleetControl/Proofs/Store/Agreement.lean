import FleetControl.Proofs.Store.Scan
import FleetControl.Store.Table

/-!
# What the two backends have in common

The store in memory drops entries that are gone when somebody comes across them, and a write takes
its revision after its precondition was checked. The table keeps its rows until it is compacted, and
a write takes its revision first and gives it back if it fails. An entry that is gone stays gone, so
a client cannot tell: the backends agree on the revision, the grace and every entry that is not gone
for good, and no operation, no compaction and no lapse of time changes that.

* `Entry.spent` and `unspent` — the entries that are gone for good, and the others;
* `Agree` — what the backends agree on; `Agree.later` — they do so later, too;
* `Agree.find` — what a look-up finds in both;
* `Agree.apply` — both answer an operation alike;
* `Agree.compact_memory`, `Agree.compact_table` — compacting either of them changes nothing.
-/

namespace FleetControl

namespace Entry

/-- The entry is gone, and the end of its grace had a date. -/
def spent (e : Entry) (grace : Span) (now : Instant) : Bool :=
  e.datable grace now && e.stage grace now == .gone

/-- What died stays dead since the same instant. -/
theorem deadSince_of_le {e : Entry} {now later t : Instant} (h : now.nanos ≤ later.nanos)
    (hdead : e.deadSince now = some t) : e.deadSince later = some t := by
  unfold deadSince at hdead ⊢
  cases hdeleted : e.deletedAt with
  | some d =>
      rw [hdeleted] at hdead
      exact hdead
  | none =>
      rw [hdeleted] at hdead
      obtain ⟨hexpires, hpast⟩ := Option.filter_eq_some_iff.1 hdead
      rw [decide_eq_true_eq] at hpast
      refine Option.filter_eq_some_iff.2 ⟨hexpires, ?_⟩
      rw [decide_eq_true_eq]
      exact Int.le_trans hpast h

/-- **What is gone stays gone.** -/
theorem spent_of_le {e : Entry} {grace : Span} {now later : Instant}
    (h : now.nanos ≤ later.nanos) (hspent : e.spent grace now = true) :
    e.spent grace later = true := by
  simp only [spent, Bool.and_eq_true, beq_iff_eq] at hspent ⊢
  obtain ⟨hdatable, hgone⟩ := hspent
  cases hdead : e.deadSince now with
  | none => simp [stage, hdead] at hgone
  | some t =>
      have hlater := deadSince_of_le h hdead
      have hover : ¬ now.nanos < (t.add grace).nanos := by
        intro hbefore
        simp [stage, hdead, hbefore] at hgone
      simp only [datable, hdead] at hdatable
      simp only [datable, stage, hlater]
      exact ⟨hdatable, if_neg fun hbefore => hover (Int.lt_of_le_of_lt h hbefore)⟩

theorem spent_of_gone {e : Entry} {grace : Span} {now : Instant}
    (hdatable : e.datable grace now = true) (hgone : e.stage grace now = .gone) :
    e.spent grace now = true := by
  simp [spent, hdatable, hgone]

end Entry

/-! ## Writes -/

/-- What a write of a key comes to that is live or not: it is refused, or it is done with an
expiry. -/
def Precondition.verdict (condition : Precondition) (now : Instant) (key : String)
    (ttl : Option Span) (live : Bool) : Outcome (Option Instant) :=
  match condition.fault key live with
  | some e => .refused e
  | none =>
    match Expiry.ofTtl now ttl with
    | .never => .answer none
    | .at t => .answer (some t)
    | .undatable => .undatable

/-- Whether a look-up in memory found the key live, if the dates allow to tell. -/
def Memory.Found.live? : Found → Option Bool
  | .undatable => none
  | .entry _ .live => some true
  | _ => some false

/-- Whether a look-up in the table found the key live, if the dates allow to tell. -/
def Table.Life.live? : Life → Option Bool
  | .undatable => none
  | .row _ .live => some true
  | _ => some false

/-- A write in memory takes a revision once it is decided on. -/
def Memory.commit (m : Memory) (key : String) (data : Bytes) :
    Outcome (Option Instant) → Outcome Nat × Memory
  | .answer expiry => (.answer (m.put key data expiry).1, (m.put key data expiry).2)
  | .refused e => (.refused e, m)
  | .undatable => (.undatable, m)

/-- A look-up in the table does not depend on the revision. -/
theorem Table.find_nextRevision (t : Table) (now : Instant) (key : String) :
    t.nextRevision.2.find now key = t.find now key := rfl

/-- A write in the table leaves it alone unless it is done. -/
def Table.commit (t : Table) (key : String) (data : Bytes) :
    Outcome (Option Instant) → Outcome Nat × Table
  | .answer expiry =>
    (.answer t.nextRevision.1,
      t.nextRevision.2.upsert key ⟨data, t.nextRevision.1, expiry, none⟩)
  | .refused e => (.refused e, t)
  | .undatable => (.undatable, t)

theorem Memory.write_eq (m : Memory) (now : Instant) (key : String) (data : Bytes)
    (ttl : Option Span) (condition : Precondition) :
    m.write now key data ttl condition =
      if key.isEmpty then (.refused (.invalidKey key), m)
      else (m.find now key).2.commit key data
        ((m.find now key).1.live?.elim .undatable (condition.verdict now key ttl)) := by
  unfold write
  split
  · rfl
  · generalize m.find now key = looked
    obtain ⟨found, m'⟩ := looked
    rcases found with _ | ⟨e, _ | _ | _⟩ | _
    case undatable => rfl
    -- Whether the key is live is known, so both sides look for the same fault.
    all_goals
      simp only [Found.live?, Option.elim_some, Precondition.verdict]
      generalize condition.fault key _ = fault
      cases fault with
      | some e => rfl
      | none => cases Expiry.ofTtl now ttl <;> rfl

theorem Table.write_eq (t : Table) (now : Instant) (key : String) (data : Bytes)
    (ttl : Option Span) (condition : Precondition) :
    t.write now key data ttl condition =
      if key.isEmpty then (.refused (.invalidKey key), t)
      else t.commit key data
        ((t.find now key).live?.elim .undatable (condition.verdict now key ttl)) := by
  unfold write
  split
  · rfl
  · simp only [transaction, find_nextRevision]
    generalize t.find now key = life
    rcases life with _ | ⟨e, _ | _ | _⟩ | _
    case undatable => rfl
    all_goals
      simp only [Life.live?, Option.elim_some, Precondition.verdict]
      generalize condition.fault key _ = fault
      cases fault with
      | some e => rfl
      | none => cases Expiry.ofTtl now ttl <;> rfl

/-! ## What the backends agree on -/

/-- The entries that are not gone for good. -/
def unspent (grace : Span) (now : Instant) (entries : KeyMap Entry) : KeyMap Entry :=
  entries.filter fun _ e => !e.spent grace now

theorem get?_unspent (grace : Span) (now : Instant) (entries : KeyMap Entry) (key : String) :
    (unspent grace now entries).get? key =
      (entries.get? key).filter fun e => !e.spent grace now :=
  KeyMap.get?_filter _ _ _

/-- What is there and not gone for good was there before. -/
theorem unspent_later {grace : Span} {now later : Instant} (h : now.nanos ≤ later.nanos)
    (entries : KeyMap Entry) :
    unspent grace later (unspent grace now entries) = unspent grace later entries := by
  apply KeyMap.ext_get?
  intro key
  rw [get?_unspent, get?_unspent, get?_unspent, Option.filter_filter]
  congr 1
  funext e
  cases hspent : e.spent grace now with
  | false => simp
  | true => simp [Entry.spent_of_le h hspent]

theorem unspent_insert (grace : Span) (now : Instant) (entries : KeyMap Entry) (key : String)
    (e : Entry) :
    unspent grace now (entries.insert key e) =
      unspent grace now ((unspent grace now entries).insert key e) := by
  apply KeyMap.ext_get?
  intro other
  simp only [get?_unspent, KeyMap.get?_insert]
  split
  · rfl
  · simp [Option.filter_filter]

theorem unspent_erase_comm (grace : Span) (now : Instant) (entries : KeyMap Entry) (key : String) :
    unspent grace now (entries.erase key) = (unspent grace now entries).erase key := by
  apply KeyMap.ext_get?
  intro other
  simp only [get?_unspent, KeyMap.get?_erase]
  split <;> rfl

/-- Nothing but what is gone for good is missing after it was dropped. -/
theorem unspent_erase {grace : Span} {now : Instant} {entries : KeyMap Entry} {key : String}
    (h : ∀ e, entries.get? key = some e → e.spent grace now = true) :
    unspent grace now (entries.erase key) = unspent grace now entries := by
  apply KeyMap.ext_get?
  intro other
  rw [get?_unspent, get?_unspent, KeyMap.get?_erase]
  split
  · next heq =>
    subst heq
    cases hget : entries.get? other with
    | none => rfl
    | some e => simp [Option.filter_some, h e hget]
  · rfl

theorem unspent_foldl_erase {grace : Span} {now : Instant} {names : List String}
    {entries : KeyMap Entry}
    (h : ∀ name ∈ names, ∀ e, entries.get? name = some e → e.spent grace now = true) :
    unspent grace now (names.foldl KeyMap.erase entries) = unspent grace now entries := by
  induction names generalizing entries with
  | nil => rfl
  | cons name rest ih =>
      refine (ih ?_).trans (unspent_erase (h name (by simp)))
      intro other hother e he
      exact h other (by simp [hother]) e (KeyMap.get?_of_erase he)

/-- The backends agree on everything but what is gone for good. -/
structure Agree (now : Instant) (m : Memory) (t : Table) : Prop where
  revision : m.revision = t.revision
  grace : m.grace = t.grace
  entries : unspent m.grace now m.entries = unspent m.grace now t.rows

namespace Agree

variable {now : Instant} {m : Memory} {t : Table}

/-- New backends agree. -/
theorem new (now : Instant) (grace : Span) : Agree now (.new grace) (.new grace) :=
  ⟨rfl, rfl, rfl⟩

/-- A table agrees with the store in memory that has the same rows. -/
theorem of_rows (now : Instant) (t : Table) : Agree now ⟨t.rows, t.revision, t.grace⟩ t :=
  ⟨rfl, rfl, rfl⟩

/-- Backends that agree do so later, too. -/
theorem later (h : Agree now m t) {later : Instant} (hle : now.nanos ≤ later.nanos) :
    Agree later m t := by
  refine ⟨h.revision, h.grace, ?_⟩
  rw [← unspent_later hle, h.entries, unspent_later hle]

/-! ## Looking up -/

/-- What a look-up of a key finds in backends that agree. -/
inductive Found (now : Instant) (m : Memory) (t : Table) :
    Memory.Found × Memory → Table.Life → Prop where
  | undatable : Found now m t (.undatable, m) .undatable
  | live {e : Entry} : Found now m t (.entry e .live, m) (.row e .live)
  | tombstone {e : Entry} : Found now m t (.entry e .tombstone, m) (.row e .tombstone)
  /-- Neither has an entry; the store in memory may have dropped what was gone. -/
  | missing {m' : Memory} (agree : Agree now m' t) : Found now m t (.nothing, m') .missing
  /-- The table still has what is gone. -/
  | gone {m' : Memory} {e : Entry} (agree : Agree now m' t) :
      Found now m t (.nothing, m') (.row e .gone)

/-- What is gone for good is not found in memory, and it is dropped. -/
private theorem find_of_spent (h : Agree now m t) {key : String} {e : Entry}
    (hget : m.entries.get? key = some e) (hspent : e.spent m.grace now = true) :
    ∃ m', m.find now key = (.nothing, m') ∧ Agree now m' t := by
  have hcopy := hspent
  simp only [Entry.spent, Bool.and_eq_true, beq_iff_eq] at hcopy
  obtain ⟨hdatable, hgone⟩ := hcopy
  refine ⟨{ m with entries := m.entries.erase key }, ?_, h.revision, h.grace, ?_⟩
  · simp [Memory.find, hget, hdatable, hgone]
  · refine (unspent_erase fun other hother => ?_).trans h.entries
    rw [hget] at hother
    obtain rfl := Option.some.inj hother
    exact hspent

/-- The row of a key that memory lacks, or has dropped, is missing or gone. -/
private theorem found_nothing {grace : Span} (hgrace : grace = t.grace) {m' : Memory}
    (hagree : Agree now m' t) {key : String}
    (hnone : (t.rows.get? key).filter (fun e => !e.spent grace now) = none) :
    Found now m t (.nothing, m') (t.find now key) := by
  subst hgrace
  unfold Table.find
  cases hget : t.rows.get? key with
  | none => exact .missing hagree
  | some e =>
      rw [hget, Option.filter_eq_none_iff] at hnone
      have hspent : e.spent t.grace now = true := by simpa using hnone e rfl
      simp only [Entry.spent, Bool.and_eq_true, beq_iff_eq] at hspent
      simp only [hspent.1, hspent.2, if_true]
      exact .gone hagree

/-- **What a look-up finds in both backends.** -/
theorem find (h : Agree now m t) (key : String) :
    Found now m t (m.find now key) (t.find now key) := by
  have hkey := congrArg (KeyMap.get? · key) h.entries
  simp only [get?_unspent] at hkey
  cases hget : m.entries.get? key with
  | none =>
      rw [hget] at hkey
      have hfind : m.find now key = (.nothing, m) := by simp [Memory.find, hget]
      rw [hfind]
      exact found_nothing h.grace h hkey.symm
  | some e =>
      rw [hget] at hkey
      by_cases hspent : e.spent m.grace now = true
      · obtain ⟨m', hfind, hagree⟩ := h.find_of_spent hget hspent
        rw [hfind]
        apply found_nothing h.grace hagree
        rw [← hkey]
        simp [Option.filter_some, hspent]
      · have hrow : t.rows.get? key = some e := by
          rw [Option.filter_some, if_pos (by simpa using hspent)] at hkey
          exact (Option.filter_eq_some_iff.1 hkey.symm).1
        simp only [Memory.find, Table.find, hget, hrow, ← h.grace]
        cases hdatable : e.datable m.grace now with
        | false => exact .undatable
        | true =>
            cases hstage : e.stage m.grace now with
            | live => exact .live
            | tombstone => exact .tombstone
            | gone => exact absurd (Entry.spent_of_gone hdatable hstage) hspent

/-- What is live in memory is in the table. -/
theorem row_of_live (h : Agree now m t) {key : String} {e : Entry}
    (hlive : m.live? now key = some e) : t.rows.get? key = some e := by
  obtain ⟨hget, hstage⟩ := (Memory.live?_eq_some_iff m now key e).1 hlive
  have hkey := congrArg (KeyMap.get? · key) h.entries
  simp only [get?_unspent, hget] at hkey
  have hkept : e.spent m.grace now = false := by simp [Entry.spent, hstage]
  rw [Option.filter_some, if_pos (by simp [hkept])] at hkey
  exact (Option.filter_eq_some_iff.1 hkey.symm).1

/-! ## Operations -/

/-- Both backends answer alike and agree afterwards. -/
structure Alike (now : Instant) {α : Type} (x : Outcome α × Memory) (y : Outcome α × Table) :
    Prop where
  answer : x.1 = y.1
  agree : Agree now x.2 y.2

/-- What is written in both is in both. -/
theorem insert (h : Agree now m t) (key : String) (e : Entry) :
    Agree now ⟨m.entries.insert key e, m.revision + 1, m.grace⟩
      ⟨t.rows.insert key e, t.revision + 1, t.grace⟩ := by
  refine ⟨congrArg (· + 1) h.revision, h.grace, ?_⟩
  simp only
  rw [unspent_insert, h.entries, ← unspent_insert]

theorem get (h : Agree now m t) (key : String) :
    Alike now (m.get now key) (t.get now key, t) := by
  have hfound := h.find key
  unfold Memory.get Table.get
  generalize m.find now key = found at hfound
  generalize t.find now key = life at hfound
  cases hfound with
  | undatable | live | tombstone => exact ⟨rfl, h⟩
  | missing agree | gone agree => exact ⟨rfl, agree⟩

theorem getAny (h : Agree now m t) (key : String) :
    Alike now (m.getAny now key) (t.getAny now key, t) := by
  have hfound := h.find key
  unfold Memory.getAny Table.getAny
  generalize m.find now key = found at hfound
  generalize t.find now key = life at hfound
  cases hfound with
  | undatable | live | tombstone => exact ⟨rfl, h⟩
  | missing agree | gone agree => exact ⟨rfl, agree⟩

theorem contains (h : Agree now m t) (key : String) :
    Alike now (m.contains now key) (t.contains now key, t) := by
  have hfound := h.find key
  unfold Memory.contains Table.contains
  generalize m.find now key = found at hfound
  generalize t.find now key = life at hfound
  cases hfound with
  | undatable | live | tombstone => exact ⟨rfl, h⟩
  | missing agree | gone agree => exact ⟨rfl, agree⟩

/-- **Deletions** take the same revision. The table takes it before it looks the key up, and a
deletion that is refused gives it back. -/
theorem delete (h : Agree now m t) (key : String) :
    Alike now (m.delete now key) (t.delete now key) := by
  have hfound := h.find key
  unfold Memory.delete Table.delete Table.transaction
  simp only [Table.find_nextRevision]
  generalize m.find now key = found at hfound
  generalize t.find now key = life at hfound
  cases hfound with
  | undatable | tombstone => exact ⟨rfl, h⟩
  | missing agree | gone agree => exact ⟨rfl, agree⟩
  | @live e =>
      refine ⟨rfl, ?_⟩
      have hinsert := h.insert key { e with deletedAt := some now, version := m.revision + 1 }
      rw [h.revision] at hinsert
      simp only [h.revision]
      exact hinsert

/-- Both carry out a write that they decided on, with the same revision. -/
private theorem commit (h : Agree now m t) (key : String) (data : Bytes)
    (verdict : Outcome (Option Instant)) :
    Alike now (m.commit key data verdict) (t.commit key data verdict) := by
  cases verdict with
  | refused e => exact ⟨rfl, h⟩
  | undatable => exact ⟨rfl, h⟩
  | answer expiry =>
      have hinsert := h.insert key ⟨data, m.revision + 1, expiry, none⟩
      rw [h.revision] at hinsert
      simp only [Memory.commit, Table.commit, Memory.put, Table.nextRevision, Table.upsert,
        h.revision]
      exact ⟨rfl, hinsert⟩

/-- **Writes** take the same revision. The table takes it before it checks the precondition, and a
write that is refused gives it back. -/
theorem write (h : Agree now m t) (key : String) (data : Bytes) (ttl : Option Span)
    (condition : Precondition) :
    Alike now (m.write now key data ttl condition) (t.write now key data ttl condition) := by
  have hfound := h.find key
  rw [Memory.write_eq, Table.write_eq]
  split
  · exact ⟨rfl, h⟩
  · generalize m.find now key = found at hfound
    generalize t.find now key = life at hfound
    cases hfound with
    | undatable => exact ⟨rfl, h⟩
    | live | tombstone => exact h.commit key data _
    | missing agree | gone agree => exact agree.commit key data _

/-! ## Scans -/

/-- What a scan answers that comes across entries. -/
private def scanned (grace : Span) (now : Instant) (found : List (String × Entry)) :
    Outcome (List Snapshot) :=
  if found.all fun x => x.2.datable grace now then
    .answer ((found.filter fun x => x.2.stage grace now != .gone).map fun x =>
      x.2.snapshot x.1 (x.2.stage grace now))
  else .undatable

/-- A scan does not show what is gone for good. -/
private theorem scanned_unspent (grace : Span) (now : Instant) (found : List (String × Entry)) :
    scanned grace now found = scanned grace now (found.filter fun x => !x.2.spent grace now) := by
  have hall : (found.all fun x => x.2.datable grace now) =
      (found.filter fun x => !x.2.spent grace now).all fun x => x.2.datable grace now := by
    rw [List.all_filter]
    congr 1
    funext x
    cases hspent : x.2.spent grace now with
    | false => simp
    | true =>
        simp only [Entry.spent, Bool.and_eq_true] at hspent
        simp [hspent.1]
  have hkept : (found.filter fun x => x.2.stage grace now != .gone) =
      (found.filter fun x => !x.2.spent grace now).filter
        fun x => x.2.stage grace now != .gone := by
    rw [List.filter_filter]
    congr 1
    funext x
    cases hgone : x.2.stage grace now == .gone <;> simp [Entry.spent, hgone, bne]
  simp only [scanned]
  rw [hall, hkept]

/-- A scope without a NUL finds the keys under it. -/
private theorem finds_eq {scope : String} (hscope : Char.ofNat 0 ∉ scope.toList) (key : String) :
    Table.finds scope key = scope.toList.isPrefixOf key.toList := by
  simp [Table.finds, hscope]

/-- What is under a scope and not gone for good is the same in both. -/
private theorem unspent_under (h : Agree now m t) (scope : String) :
    ((m.under scope).filter fun x => !x.2.spent m.grace now) =
      (t.rows.toList.filter fun x => scope.toList.isPrefixOf x.1.toList).filter
        fun x => !x.2.spent m.grace now := by
  have hentries := congrArg KeyMap.entries h.entries
  simp only [unspent, KeyMap.filter] at hentries
  rw [Memory.under_eq_filter, List.filter_filter, List.filter_filter]
  simp only [KeyMap.toList, Bool.and_comm (!_)]
  rw [← List.filter_filter, hentries, List.filter_filter]

/-- What a scan in memory answers. -/
private theorem list_eq_scanned (m : Memory) (now : Instant) (scope : String) :
    (m.list now scope).1 = scanned m.grace now (m.under scope) := by
  simp only [Memory.list, scanned]
  split <;> rfl

/-- A scan in memory drops nothing that the backends agree on. -/
theorem list_memory (h : Agree now m t) (scope : String) : Agree now (m.list now scope).2 t := by
  unfold Memory.list
  simp only
  split
  · next hdatable =>
    refine ⟨h.revision, h.grace, (unspent_foldl_erase ?_).trans h.entries⟩
    intro key hkey e he
    obtain ⟨x, hx, rfl⟩ := List.mem_map.1 hkey
    obtain ⟨hunder, hgone⟩ := List.mem_filter.1 hx
    obtain ⟨hget, -⟩ := (Memory.mem_under_iff m scope x.1 x.2).1 hunder
    rw [he] at hget
    obtain rfl := Option.some.inj hget
    exact Entry.spent_of_gone (List.all_eq_true.1 hdatable x hunder) (by simpa using hgone)
  · exact h

/-- **Scans** show the same, although one backend drops what is gone and the other skips it. -/
theorem list (h : Agree now m t) {scope : String} (hscope : Char.ofNat 0 ∉ scope.toList) :
    Alike now (m.list now scope) (t.list now scope, t) := by
  have htable : t.list now scope = scanned m.grace now
      (t.rows.toList.filter fun x => scope.toList.isPrefixOf x.1.toList) := by
    simp only [Table.list, scanned, h.grace, finds_eq hscope]
  refine ⟨?_, h.list_memory scope⟩
  rw [list_eq_scanned, htable, scanned_unspent, h.unspent_under, ← scanned_unspent]

/-- **Scans in memory** show the same in stores that agree with one table, whatever the scope. -/
theorem list_answer_eq {m' : Memory} (h : Agree now m t) (h' : Agree now m' t) (scope : String) :
    (m.list now scope).1 = (m'.list now scope).1 := by
  rw [list_eq_scanned, list_eq_scanned, scanned_unspent, h.unspent_under, scanned_unspent m'.grace,
    h'.unspent_under, h.grace, h'.grace]

/-- **Both backends answer an operation alike** and agree afterwards. -/
theorem apply (h : Agree now m t) {op : StoreOp}
    (hscope : ∀ scope, op = .list scope → Char.ofNat 0 ∉ scope.toList) :
    Alike now (m.apply now op) (t.apply now op) := by
  cases op with
  | get key => exact h.get key
  | getAny key => exact h.getAny key
  | set key data => exact h.write key data none .any
  | setFor key data ttl => exact h.write key data (some ttl) .any
  | delete key => exact h.delete key
  | contains key => exact h.contains key
  | list scope => exact h.list (hscope scope rfl)
  | create key data => exact h.write key data none .absent
  | replace key data => exact h.write key data none .present

/-! ## Compaction -/

/-- What was dropped earlier because it was gone is gone for good. -/
private theorem unspent_compacted {grace : Span} {earlier : Instant}
    (hle : earlier.nanos ≤ now.nanos) {entries : KeyMap Entry}
    (hdatable : entries.toList.all (fun x => x.2.datable grace earlier) = true) :
    unspent grace now (entries.filter fun _ e => e.stage grace earlier != .gone) =
      unspent grace now entries := by
  apply KeyMap.ext_get?
  intro key
  rw [get?_unspent, get?_unspent, KeyMap.get?_filter]
  cases hget : entries.get? key with
  | none => rfl
  | some e =>
      have hmem := (KeyMap.mem_toList_iff entries key e).2 hget
      have hdated := List.all_eq_true.1 hdatable (key, e) hmem
      by_cases hgone : e.stage grace earlier = .gone
      · have hspent := Entry.spent_of_le hle (Entry.spent_of_gone hdated hgone)
        simp [Option.filter_some, hgone, hspent]
      · simp [Option.filter_some, hgone]

/-- **Compacting the store in memory** changes nothing that the backends agree on. -/
theorem compact_memory (h : Agree now m t) {earlier : Instant}
    (hle : earlier.nanos ≤ now.nanos) : Agree now (m.compact earlier).2 t := by
  unfold Memory.compact
  split
  · next hdatable => exact ⟨h.revision, h.grace, (unspent_compacted hle hdatable).trans h.entries⟩
  · exact h

/-- **Compacting the table** changes nothing that the backends agree on. -/
theorem compact_table (h : Agree now m t) {earlier : Instant}
    (hle : earlier.nanos ≤ now.nanos) : Agree now m (t.compact earlier).2 := by
  unfold Table.compact
  split
  · next hdatable =>
    refine ⟨h.revision, h.grace, h.entries.trans ?_⟩
    rw [h.grace]
    exact (unspent_compacted hle hdatable).symm
  · exact h

end Agree

end FleetControl
