import FleetControl.Proofs.Store.Reads

/-!
# Revisions only go up

A write takes the next revision, whatever the backend, and an entry that is put in place has the
revision of its write as its version. So from one state of a store to a later one an entry is either
the one that was there, or newer than all that was there. A key may be deleted, dropped and written
again in between; its version still does not go down.

* `StoreMove` and `Backend.moved` — what is done with a store;
* `Backend.Advances` — how a store goes on; `Backend.advances_moved` — every move is like that;
* `Backend.Numbered` — no entry is newer than the store;
* `Backend.Reached` — a version that was there is not undercut any more.
-/

namespace FleetControl

open Simulation (Backend)

/-- What is done with a store by anybody. -/
inductive StoreMove where
  | ask (now : Instant) (op : StoreOp)
  /-- What is gone is dropped. -/
  | compact (now : Instant)
  /-- A key is removed without a trace. The table cannot do that. -/
  | purge (key : String)
  deriving DecidableEq

namespace Simulation.Backend

/-- The store after a move. -/
def moved (b : Backend) : StoreMove → Backend
  | .ask now op => (b.apply now op).2
  | .compact now => (b.compact now).2
  | .purge key =>
    match b with
    | memory m => memory (m.purge key).2
    | table t => table t

/-- No entry is newer than the store. -/
def Numbered (b : Backend) : Prop := ∀ key e, b.entry? key = some e → e.version ≤ b.revision

/-- How a store goes on: an entry is the one that was there, or newer than all that was there. -/
structure Advances (b b' : Backend) : Prop where
  revision : b.revision ≤ b'.revision
  entry : ∀ key e, b'.entry? key = some e →
    b.entry? key = some e ∨ (b.revision < e.version ∧ e.version ≤ b'.revision)

/-- The store has had a version of a key, and what it has of the key is not older. -/
structure Reached (b : Backend) (key : String) (version : Nat) : Prop where
  revision : version ≤ b.revision
  entry : ∀ e, b.entry? key = some e → version ≤ e.version

variable {b b' b'' : Backend}

/-- Nothing in a new store is newer than it. -/
theorem numbered_new (grace : Span) :
    Numbered (memory (.new grace)) ∧ Numbered (table (.new grace)) := by
  constructor <;> intro key e h <;> cases h

namespace Advances

theorem refl (b : Backend) : Advances b b := ⟨Nat.le_refl _, fun _ _ h => .inl h⟩

theorem trans (h : Advances b b') (h' : Advances b' b'') : Advances b b'' := by
  refine ⟨Nat.le_trans h.revision h'.revision, fun key e he => ?_⟩
  rcases h'.entry key e he with hsame | ⟨hnew, hle⟩
  · rcases h.entry key e hsame with hsame | ⟨hnew, hle⟩
    · exact .inl hsame
    · exact .inr ⟨hnew, Nat.le_trans hle h'.revision⟩
  · exact .inr ⟨Nat.lt_of_le_of_lt h.revision hnew, hle⟩

/-- **No entry becomes newer than its store.** -/
theorem numbered (h : Advances b b') (hb : b.Numbered) : b'.Numbered := by
  intro key e he
  rcases h.entry key e he with hsame | ⟨-, hle⟩
  · exact Nat.le_trans (hb key e hsame) h.revision
  · exact hle

/-- **A version that was there is not undercut any more.** -/
theorem reached (h : Advances b b') {key : String} {version : Nat}
    (hb : b.Reached key version) : b'.Reached key version := by
  refine ⟨Nat.le_trans hb.revision h.revision, fun e he => ?_⟩
  rcases h.entry key e he with hsame | ⟨hnew, -⟩
  · exact hb.entry e hsame
  · exact Nat.le_trans hb.revision (Nat.le_of_lt hnew)

/-- Dropping entries leaves the others as they are. -/
theorem of_dropped (hrevision : b'.revision = b.revision)
    (hentry : ∀ key e, b'.entry? key = some e → b.entry? key = some e) : Advances b b' :=
  ⟨Nat.le_of_eq hrevision.symm, fun key e he => .inl (hentry key e he)⟩

/-- Putting an entry of the next revision in place leaves the others as they are. -/
theorem of_written {key : String} {e : Entry} (hversion : e.version = b.revision + 1)
    (hrevision : b'.revision = b.revision + 1)
    (hentry : ∀ k, b'.entry? k = if k = key then some e else b.entry? k) : Advances b b' := by
  refine ⟨by omega, fun k e' he => ?_⟩
  rw [hentry] at he
  split at he
  · obtain rfl := Option.some.inj he
    exact .inr ⟨by omega, by omega⟩
  · exact .inl he

end Advances

theorem Sheds.advances {now : Instant} (h : Sheds now b b') : Advances b b' :=
  .of_dropped h.revision fun _ _ he => h.before he

/-- What is there has been reached. -/
theorem Numbered.reached (h : b.Numbered) {key : String} {e : Entry}
    (he : b.entry? key = some e) : b.Reached key e.version := by
  refine ⟨h key e he, fun e' he' => ?_⟩
  obtain rfl := Option.some.inj (he.symm.trans he')
  exact Nat.le_refl _

/-! ## Moves -/

/-- A write takes the next revision if it is done. -/
theorem advances_commit (m : Memory) (key : String) (data : Bytes)
    (verdict : Outcome (Option Instant)) :
    Advances (memory m) (memory (m.commit key data verdict).2) := by
  cases verdict with
  | answer expiry => exact .of_written rfl rfl fun k => KeyMap.get?_insert _ _ _ _
  | refused e => exact .refl _
  | undatable => exact .refl _

/-- **A write takes a store forward.** -/
theorem advances_write_memory (m : Memory) (now : Instant) (key : String) (data : Bytes)
    (ttl : Option Span) (condition : Precondition) :
    Advances (memory m) (memory (m.write now key data ttl condition).2) := by
  rw [Memory.write_eq]
  split
  · exact .refl _
  · exact (sheds_of_find rfl).advances.trans (advances_commit _ _ _ _)

/-- **A write takes a table forward.** -/
theorem advances_write_table (t : Table) (now : Instant) (key : String) (data : Bytes)
    (ttl : Option Span) (condition : Precondition) :
    Advances (table t) (table (t.write now key data ttl condition).2) := by
  rw [Table.write_eq]
  split
  · exact .refl _
  · generalize (t.find now key).live?.elim .undatable (condition.verdict now key ttl) = verdict
    cases verdict with
    | answer expiry => exact .of_written rfl rfl fun k => KeyMap.get?_insert _ _ _ _
    | refused e => exact .refl _
    | undatable => exact .refl _

/-- **A deletion takes a store forward**: the tombstone is an entry of the next revision. -/
theorem advances_delete_memory (m : Memory) (now : Instant) (key : String) :
    Advances (memory m) (memory (m.delete now key).2) := by
  have hfound : Advances (memory m) (memory (m.find now key).2) := (sheds_of_find rfl).advances
  unfold Memory.delete
  rcases hfind : m.find now key with ⟨_ | ⟨e, _ | _ | _⟩ | _, m'⟩
  all_goals rw [hfind] at hfound
  case entry.live =>
    exact hfound.trans (.of_written rfl rfl fun k => KeyMap.get?_insert _ _ _ _)
  all_goals exact hfound

/-- **A deletion takes a table forward.** -/
theorem advances_delete_table (t : Table) (now : Instant) (key : String) :
    Advances (table t) (table (t.delete now key).2) := by
  unfold Table.delete Table.transaction
  simp only [Table.find_nextRevision]
  rcases t.find now key with _ | ⟨e, _ | _ | _⟩ | _
  case row.live => exact .of_written rfl rfl fun k => KeyMap.get?_insert _ _ _ _
  all_goals exact .refl _

/-- **Every operation takes a store forward.** -/
theorem advances_apply (b : Backend) (now : Instant) (op : StoreOp) :
    Advances b (b.apply now op).2 := by
  cases op with
  | get key => exact (b.sheds_get now key).advances
  | getAny key => exact (b.sheds_getAny now key).advances
  | contains key => exact (b.sheds_contains now key).advances
  | list scope => exact (b.sheds_list now scope).advances
  | delete key =>
      cases b with
      | memory m => exact advances_delete_memory m now key
      | table t => exact advances_delete_table t now key
  | set key data | setFor key data ttl | create key data | replace key data =>
      cases b with
      | memory m => exact advances_write_memory m now key data _ _
      | table t => exact advances_write_table t now key data _ _

/-- **Every move takes a store forward.** -/
theorem advances_moved (b : Backend) (move : StoreMove) : Advances b (b.moved move) := by
  cases move with
  | ask now op => exact b.advances_apply now op
  | compact now => exact (b.sheds_compact now).advances
  | purge key =>
      cases b with
      | memory m => exact .of_dropped rfl fun _ _ he => KeyMap.get?_of_erase he
      | table t => exact .refl _

/-- **Moves one after the other take a store forward.** -/
theorem advances_foldl_moved (moves : List StoreMove) (b : Backend) :
    Advances b (moves.foldl moved b) := by
  induction moves generalizing b with
  | nil => exact .refl b
  | cons move rest ih => exact (b.advances_moved move).trans (ih _)

end Simulation.Backend

end FleetControl
