import FleetControl.Store.Basic

/-!
# The store in a database table

One row for each key and a revision counter. A read leaves the rows alone, also those that are gone.
A write is a transaction: it takes the next revision first and then checks its precondition, and if
that fails everything is rolled back, the revision with it.
-/

namespace FleetControl

/-- The rows of the table and the counter. -/
structure Table where
  rows : KeyMap Entry
  /-- The revision of the last committed write. -/
  revision : Nat
  grace : Span
  deriving DecidableEq, Inhabited

namespace Table

/-- An empty table. -/
def new (grace : Span) : Table := ⟨.empty, 0, grace.forDates⟩

/-- The same rows seen with another grace. -/
def reopened (t : Table) (grace : Span) : Table := { t with grace := grace.forDates }

/-- Run a transaction: its changes are kept only if it ends with an answer. -/
def transaction {α : Type} (t : Table) (body : Table → Outcome α × Table) : Outcome α × Table :=
  match body t with
  | (.answer a, t') => (.answer a, t')
  | (outcome, _) => (outcome, t)

/-- Take the next revision. -/
def nextRevision (t : Table) : Nat × Table :=
  (t.revision + 1, { t with revision := t.revision + 1 })

/-- Where the row of a key is in its life. -/
inductive Life where
  | missing
  | row (e : Entry) (stage : Stage)
  | undatable

/-- The row of a key. -/
def find (t : Table) (now : Instant) (key : String) : Life :=
  match t.rows.get? key with
  | none => .missing
  | some e => if e.datable t.grace now then .row e (e.stage t.grace now) else .undatable

/-- Insert or overwrite the row of a key. -/
def upsert (t : Table) (key : String) (e : Entry) : Table :=
  { t with rows := t.rows.insert key e }

/-- Write a key, if its precondition holds. -/
def write (t : Table) (now : Instant) (key : String) (data : Bytes) (ttl : Option Span)
    (condition : Precondition) : Outcome Nat × Table :=
  if key.isEmpty then (.refused (.invalidKey key), t)
  else
    t.transaction fun t =>
      let (version, t) := t.nextRevision
      let commit (live : Bool) : Outcome Nat × Table :=
        match condition.fault key live with
        | some e => (.refused e, t)
        | none =>
          match Expiry.ofTtl now ttl with
          | .undatable => (.undatable, t)
          | .never => (.answer version, t.upsert key ⟨data, version, none, none⟩)
          | .at d => (.answer version, t.upsert key ⟨data, version, some d, none⟩)
      match t.find now key with
      | .undatable => (.undatable, t)
      | .row _ .live => commit true
      | _ => commit false

/-- Delete a live key: its row keeps the data and becomes a tombstone with the next revision. -/
def delete (t : Table) (now : Instant) (key : String) : Outcome Unit × Table :=
  t.transaction fun t =>
    let (version, t) := t.nextRevision
    match t.find now key with
    | .undatable => (.undatable, t)
    | .row e .live => (.answer (), t.upsert key { e with deletedAt := some now, version })
    | _ => (.refused (.keyNotFound key), t)

/-- Read a live key. -/
def get (t : Table) (now : Instant) (key : String) : Outcome Snapshot :=
  match t.find now key with
  | .undatable => .undatable
  | .row e .live => .answer (e.snapshot key .live)
  | _ => .refused (.keyNotFound key)

/-- Read a key that is live or a tombstone. -/
def getAny (t : Table) (now : Instant) (key : String) : Outcome (Option Snapshot) :=
  match t.find now key with
  | .undatable => .undatable
  | .row _ .gone => .answer none
  | .row e stage => .answer (some (e.snapshot key stage))
  | .missing => .answer none

/-- Whether there is a live key. -/
def contains (t : Table) (now : Instant) (key : String) : Outcome Bool :=
  match t.find now key with
  | .undatable => .undatable
  | .row _ .live => .answer true
  | _ => .answer false

/-- Whether the query for a scope finds a key. A scope with a NUL in it finds nothing: the length it
is compared at ends before the NUL. -/
def finds (scope key : String) : Bool :=
  !scope.toList.contains (Char.ofNat 0) && scope.toList.isPrefixOf key.toList

/-- All keys under a scope that are not gone. -/
def list (t : Table) (now : Instant) (scope : String) : Outcome (List Snapshot) :=
  let found := t.rows.toList.filter fun x => finds scope x.1
  if found.all fun x => x.2.datable t.grace now then
    .answer ((found.filter fun x => x.2.stage t.grace now != .gone).map fun x =>
      x.2.snapshot x.1 (x.2.stage t.grace now))
  else .undatable

/-- Answer an operation at an instant. -/
def apply (now : Instant) : (op : StoreOp) → Table → Outcome op.Reply × Table
  | .get key, t => (t.get now key, t)
  | .getAny key, t => (t.getAny now key, t)
  | .set key data, t => t.write now key data none .any
  | .setFor key data ttl, t => t.write now key data (some ttl) .any
  | .delete key, t => t.delete now key
  | .contains key, t => (t.contains now key, t)
  | .list scope, t => (t.list now scope, t)
  | .create key data, t => t.write now key data none .absent
  | .replace key data, t => t.write now key data none .present

/-- Delete every row that is gone; how many there were. Rows that can still be live are not looked
at. -/
def compact (t : Table) (now : Instant) : Outcome Nat × Table :=
  if t.rows.toList.all fun x => x.2.datable t.grace now then
    let kept := t.rows.filter fun _ e => e.stage t.grace now != .gone
    (.answer (t.rows.size - kept.size), { t with rows := kept })
  else (.undatable, t)

end Table

end FleetControl
