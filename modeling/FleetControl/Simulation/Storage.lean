import FleetControl.Simulation.Requests

/-!
# The store of a world

What clients of the store do beside the operations: remove keys without a trace, drop what is gone,
and walk over a scope until they have seen enough. Faults are injected into calls by their names.
-/

namespace FleetControl.Simulation

/-- Write a key, with a time to live if one is given. -/
def storeSet (key : String) (data : Bytes) : Option Span → Act World (Except StoreError Nat)
  | none => storeOp (.set key data)
  | some ttl => storeOp (.setFor key data ttl)

/-- A visitor that notes keys and wants no more when it has noted `limit` of them. -/
def noteKeys (limit : Option Nat) (kv : Snapshot) (keys : List String) : Bool × List String :=
  let keys := keys ++ [kv.key]
  (limit.all fun n => keys.length < n, keys)

/-- Walk over the keys of a scope, at most `limit` of them; how many were shown, and the keys. -/
def storeVisit (scope : String) (limit : Option Nat) :
    Act World (Except StoreError (Nat × List String)) := do
  let found ← storeOp (.list scope)
  pure (found.map fun snapshots => visitSnapshots (noteKeys limit) snapshots [])

/-- Drop what is gone; how much it was. -/
def storeCompact : Act World Nat :=
  .read fun w =>
    let r := w.backend.compact w.instant
    .write (fun w => { w with backend := r.2 })
      (match r.1 with
        | .answer n => .done n
        | _ => .crash)

/-- Remove a key of the store in memory without a trace; whether it was there. -/
def storePurge (key : String) : Act World (Option Bool) :=
  .update fun w =>
    match w.backend with
    | .memory m => let r := m.purge key; (some r.1, { w with backend := .memory r.2 })
    | .table _ => (none, w)

/-- The revision of the store in memory. -/
def World.memoryRevision (w : World) : Option Nat :=
  match w.backend with
  | .memory m => some m.revision
  | .table _ => none

/-- Make the next calls of a name fail; what was injected before is forgotten. -/
def World.injectFault (w : World) (call : String) (fault : Fault) : World :=
  { w with faults := w.faults.insert call fault }

end FleetControl.Simulation
