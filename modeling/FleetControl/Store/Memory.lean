import FleetControl.Store.Basic

/-!
# The store in memory

Entries that are gone are dropped when somebody comes across them, so a reader of the store can
notice that a key is gone only by asking for it. A write takes its revision after its precondition
has been checked, so a refused one takes none.
-/

namespace FleetControl

/-- The store in memory. -/
structure Memory where
  entries : KeyMap Entry
  /-- The revision of the last write. -/
  revision : Nat
  grace : Span
  deriving DecidableEq, Inhabited

namespace Memory

/-- An empty store. -/
def new (grace : Span) : Memory := ⟨.empty, 0, grace.forDates⟩

/-- What a look-up finds. -/
inductive Found where
  | nothing
  | entry (e : Entry) (stage : Stage)
  | undatable

/-- Look a key up, and drop its entry if it is gone. -/
def find (m : Memory) (now : Instant) (key : String) : Found × Memory :=
  match m.entries.get? key with
  | none => (.nothing, m)
  | some e =>
    if !e.datable m.grace now then (.undatable, m)
    else
      match e.stage m.grace now with
      | .gone => (.nothing, { m with entries := m.entries.erase key })
      | stage => (.entry e stage, m)

/-- Write a key with the next revision. -/
def put (m : Memory) (key : String) (data : Bytes) (expiresAt : Option Instant) : Nat × Memory :=
  let version := m.revision + 1
  (version, { m with
    entries := m.entries.insert key ⟨data, version, expiresAt, none⟩, revision := version })

/-- Write a key, if its precondition holds. -/
def write (m : Memory) (now : Instant) (key : String) (data : Bytes) (ttl : Option Span)
    (condition : Precondition) : Outcome Nat × Memory :=
  if key.isEmpty then (.refused (.invalidKey key), m)
  else
    let (found, m) := m.find now key
    let commit (live : Bool) : Outcome Nat × Memory :=
      match condition.fault key live with
      | some e => (.refused e, m)
      | none =>
        match Expiry.ofTtl now ttl with
        | .undatable => (.undatable, m)
        | .never => let r := m.put key data none; (.answer r.1, r.2)
        | .at t => let r := m.put key data (some t); (.answer r.1, r.2)
    match found with
    | .undatable => (.undatable, m)
    | .entry _ .live => commit true
    | _ => commit false

/-- Read a live key. -/
def get (m : Memory) (now : Instant) (key : String) : Outcome Snapshot × Memory :=
  match m.find now key with
  | (.undatable, m) => (.undatable, m)
  | (.entry e .live, m) => (.answer (e.snapshot key .live), m)
  | (_, m) => (.refused (.keyNotFound key), m)

/-- Read a key that is live or a tombstone. -/
def getAny (m : Memory) (now : Instant) (key : String) : Outcome (Option Snapshot) × Memory :=
  match m.find now key with
  | (.undatable, m) => (.undatable, m)
  | (.entry e stage, m) => (.answer (some (e.snapshot key stage)), m)
  | (.nothing, m) => (.answer none, m)

/-- Whether there is a live key. -/
def contains (m : Memory) (now : Instant) (key : String) : Outcome Bool × Memory :=
  match m.find now key with
  | (.undatable, m) => (.undatable, m)
  | (.entry _ .live, m) => (.answer true, m)
  | (_, m) => (.answer false, m)

/-- Delete a live key: its entry keeps the data and becomes a tombstone with the next revision. -/
def delete (m : Memory) (now : Instant) (key : String) : Outcome Unit × Memory :=
  match m.find now key with
  | (.undatable, m) => (.undatable, m)
  | (.entry e .live, m) =>
    let version := m.revision + 1
    (.answer (), { m with
      entries := m.entries.insert key { e with deletedAt := some now, version }
      revision := version })
  | (_, m) => (.refused (.keyNotFound key), m)

/-- The entries from a scope on, as far as their keys are under it: since keys are in ascending
order, these are all keys under the scope. -/
def under (m : Memory) (scope : String) : List (String × Entry) :=
  (m.entries.toList.dropWhile fun x => decide (x.1 < scope)).takeWhile fun x =>
    scope.toList.isPrefixOf x.1.toList

/-- All keys under a scope that are not gone; those that are gone are dropped. -/
def list (m : Memory) (now : Instant) (scope : String) : Outcome (List Snapshot) × Memory :=
  let found := m.under scope
  if found.all fun x => x.2.datable m.grace now then
    let isGone (x : String × Entry) := x.2.stage m.grace now == .gone
    let kept := found.filter fun x => !isGone x
    let gone := (found.filter isGone).map (·.1)
    (.answer (kept.map fun x => x.2.snapshot x.1 (x.2.stage m.grace now)),
      { m with entries := gone.foldl KeyMap.erase m.entries })
  else (.undatable, m)

/-- Answer an operation at an instant. -/
def apply (now : Instant) : (op : StoreOp) → Memory → Outcome op.Reply × Memory
  | .get key, m => m.get now key
  | .getAny key, m => m.getAny now key
  | .set key data, m => m.write now key data none .any
  | .setFor key data ttl, m => m.write now key data (some ttl) .any
  | .delete key, m => m.delete now key
  | .contains key, m => m.contains now key
  | .list scope, m => m.list now scope
  | .create key data, m => m.write now key data none .absent
  | .replace key data, m => m.write now key data none .present

/-- Remove a key without a trace; whether there was an entry. -/
def purge (m : Memory) (key : String) : Bool × Memory :=
  (m.entries.contains key, { m with entries := m.entries.erase key })

/-- Drop every entry that is gone; how many there were. -/
def compact (m : Memory) (now : Instant) : Outcome Nat × Memory :=
  if m.entries.toList.all fun x => x.2.datable m.grace now then
    let kept := m.entries.filter fun _ e => e.stage m.grace now != .gone
    (.answer (m.entries.size - kept.size), { m with entries := kept })
  else (.undatable, m)

end Memory

end FleetControl
