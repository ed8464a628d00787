import FleetControl.Agent.Basic

/-!
# The key-value store

Keys hold bytes. Every write takes the next revision of the store as the key's version. A key that
is deleted or whose time is up leaves a tombstone, which scans still show for a while, the grace;
after that the key is gone.

* `Entry.stage` — where an entry is in its life: live, then a tombstone, then gone;
* `StoreOp` and `StoreOp.Reply` — what can be asked of a store, and what it answers. Two backends
  answer these operations, `Memory` and `Table`.
-/

namespace FleetControl

/-! ## Errors -/

/-- Why an operation is refused. -/
inductive StoreError where
  /-- There is no live key of that name. -/
  | keyNotFound (key : String)
  /-- There is a live key of that name. -/
  | alreadyExists (key : String)
  /-- Keys are not empty. -/
  | invalidKey (key : String)
  /-- The database cannot be used. -/
  | database
  | other (text : String)
  deriving DecidableEq, Repr, Inhabited

/-- The error in words. -/
def StoreError.message : StoreError → String
  | .keyNotFound key => "Key not found: " ++ key
  | .alreadyExists key => "Key already exists: " ++ key
  | .invalidKey key => "Invalid key: " ++ Text.quoted key
  | .database => "Database error"
  | .other text => text

/-- Whether the error says that there is no such key. -/
def StoreError.isNotFound : StoreError → Bool
  | .keyNotFound _ => true
  | _ => false

/-! ## Snapshots -/

/-- A key as a read or a scan shows it. -/
structure Snapshot where
  key : String
  data : Bytes
  /-- The revision of the last write or deletion. -/
  version : Nat
  expiresAt : Option Instant
  /-- Whether the key is a tombstone. -/
  dead : Bool
  deriving DecidableEq, Inhabited

namespace Snapshot

open JsonReader

/-- A snapshot as a document; the data is a list of bytes. -/
def toJson (s : Snapshot) : Json :=
  .object [("key", .text s.key),
    ("data", .array (s.data.map fun b => .number (.natural b.toNat))),
    ("version", .number (.natural s.version)),
    ("expires_at", Json.orNull Json.instant s.expiresAt),
    ("deleted_or_expired", .bool s.dead)]

/-- Read a snapshot. -/
def read : JsonReader Snapshot := fun depth j => do
  let depth ← inside depth
  match ← slots ["key", "data", "version", "expires_at", "deleted_or_expired"] j with
  | [key, data, version, expiresAt, dead] => do
    let key ← required text depth key
    let data ← required (list (natural 255)) depth data
    let version ← required (natural JsonNumber.maxNatural) depth version
    let expiresAt ← nullable instant depth expiresAt
    let dead ← required bool depth dead
    some ⟨key, data.map UInt8.ofNat, version, expiresAt, dead⟩
  | _ => none

end Snapshot

/-! ## Entries and their life -/

/-- What a store keeps for a key. -/
structure Entry where
  data : Bytes
  version : Nat
  expiresAt : Option Instant
  deletedAt : Option Instant
  deriving DecidableEq, Inhabited

/-- Where an entry is in its life. -/
inductive Stage where
  | live
  | tombstone
  | gone
  deriving DecidableEq, Repr

namespace Entry

/-- The instant of death: the deletion, or else an expiry that is not in the future. -/
def deadSince (e : Entry) (now : Instant) : Option Instant :=
  e.deletedAt <|> e.expiresAt.filter fun t => t.nanos ≤ now.nanos

/-- Where the entry is in its life. A tombstone lasts from the instant of death for the grace. -/
def stage (e : Entry) (grace : Span) (now : Instant) : Stage :=
  match e.deadSince now with
  | none => .live
  | some t => if now.nanos < (t.add grace).nanos then .tombstone else .gone

/-- Whether the end of the grace has a date. -/
def datable (e : Entry) (grace : Span) (now : Instant) : Bool :=
  match e.deadSince now with
  | none => true
  | some t => (t.add? grace).isSome

/-- The entry as a scan shows it. -/
def snapshot (e : Entry) (key : String) (stage : Stage) : Snapshot :=
  ⟨key, e.data, e.version, e.expiresAt, stage == .tombstone⟩

end Entry

/-- A span as it is added to a date: spans of more than `2^63 - 1` milliseconds count as 365
days. -/
def Span.forDates (s : Span) : Span :=
  if s.nanos ≤ (Word.count63 - 1) * Span.perMilli then s else Span.ofSeconds (365 * 86400)

/-- How long tombstones stay unless something else is asked for. -/
def defaultGrace : Span := Span.ofSeconds 30

/-! ## Operations -/

/-- What can be asked of a store. -/
inductive StoreOp where
  /-- Read a live key. -/
  | get (key : String)
  /-- Read a key that is live or a tombstone. -/
  | getAny (key : String)
  | set (key : String) (data : Bytes)
  /-- Write a key that expires. -/
  | setFor (key : String) (data : Bytes) (ttl : Span)
  /-- Delete a live key. -/
  | delete (key : String)
  /-- Whether there is a live key. -/
  | contains (key : String)
  /-- All keys under a scope, tombstones included, in ascending order. -/
  | list (scope : String)
  /-- Write a key that is not live. -/
  | create (key : String) (data : Bytes)
  /-- Write a key that is live. -/
  | replace (key : String) (data : Bytes)
  deriving DecidableEq

namespace StoreOp

/-- The type of the answer to an operation that succeeds. -/
def Reply : StoreOp → Type
  | .get _ => Snapshot
  | .getAny _ => Option Snapshot
  | .set .. => Nat
  | .setFor .. => Nat
  | .delete _ => Unit
  | .contains _ => Bool
  | .list _ => List Snapshot
  | .create .. => Nat
  | .replace .. => Nat

end StoreOp

/-- What comes of an operation: an answer, a refusal, or an abort because a date would lie beyond
the calendar. -/
inductive Outcome (α : Type) where
  | answer (a : α)
  | refused (e : StoreError)
  | undatable

/-- What a write asks of the key that it writes. -/
inductive Precondition where
  | any
  | absent
  | present
  deriving DecidableEq, Repr

/-- The refusal of a write, if its precondition fails. -/
def Precondition.fault (p : Precondition) (key : String) (live : Bool) : Option StoreError :=
  match p with
  | .any => none
  | .absent => if live then some (.alreadyExists key) else none
  | .present => if live then none else some (.keyNotFound key)

/-- The expiry of a key written now. -/
inductive Expiry where
  | never
  | at (t : Instant)
  | undatable

/-- The expiry of a key that is written with a time to live. -/
def Expiry.ofTtl (now : Instant) : Option Span → Expiry
  | none => .never
  | some ttl =>
    match now.add? ttl.forDates with
    | some t => .at t
    | none => .undatable

/-- Show the snapshots of a scan to a visitor with a state, until it wants no more; how many it was
shown, and its last state. -/
def visitSnapshots {σ : Type} (visitor : Snapshot → σ → Bool × σ) : List Snapshot → σ → Nat × σ
  | [], s => (0, s)
  | kv :: rest, s =>
    match visitor kv s with
    | (true, s) => let (shown, s) := visitSnapshots visitor rest s; (shown + 1, s)
    | (false, s) => (1, s)

end FleetControl
