import FleetControl.Cache.Basic
import FleetControl.Failure
import FleetControl.Program

/-!
# What observers ask for

The requests of the two observers of a store, the informer pass and the cache sweep, and their
replies. Both work on one cache.
-/

namespace FleetControl

/-- What an observer tells a handler. -/
inductive WatchEvent where
  /-- A key is there that was not known. -/
  | added (kv : Snapshot)
  /-- A known key has a higher version than the one processed last. -/
  | updated (kv : Snapshot) (previous : Nat)
  /-- A known key is deleted, has expired or is gone. -/
  | deleted (key : String)
  deriving DecidableEq

/-- What an observer asks for. -/
inductive WatchRequest where
  /-- Whether the pass has been asked to stop. -/
  | cancelled
  /-- All keys of the store under a scope, tombstones included. -/
  | scan (scope : String)
  /-- Whether a key is in the store, live or as a tombstone. -/
  | present (key : String)
  /-- The version that the cache has of a key. -/
  | cached (key : String)
  /-- Record a version in the cache. -/
  | record (key : String) (version : Nat)
  /-- Take a key out of the cache. -/
  | forget (key : String)
  /-- All keys of the cache in ascending order. -/
  | cachedKeys
  /-- The handler that watches a key. -/
  | handlerFor (key : String)
  /-- A callback. -/
  | notify (handler : HandlerId) (event : WatchEvent)

/-- The type of the reply to a request. -/
def WatchRequest.Reply : WatchRequest → Type
  | .cancelled => Bool
  | .scan _ => Except StoreError (List Snapshot)
  | .present _ => Except StoreError Bool
  | .cached _ => Option Nat
  | .record .. => Unit
  | .forget _ => Unit
  | .cachedKeys => List String
  | .handlerFor _ => Option HandlerId
  | .notify .. => Except Failure Unit

/-- A program of an observer. -/
abbrev Watching (α : Type) := Program WatchRequest WatchRequest.Reply α

namespace Watching

/-- Ask a request and end with its reply. -/
def ask (r : WatchRequest) : Watching r.Reply := Program.ask r Program.done

/-- Whether the pass has been asked to stop. -/
def cancelled : Watching Bool := ask .cancelled

/-- All keys under a scope, tombstones included. -/
def scan (scope : String) : Watching (Except StoreError (List Snapshot)) := ask (.scan scope)

/-- Whether a key is in the store, live or as a tombstone. -/
def present (key : String) : Watching (Except StoreError Bool) := ask (.present key)

/-- The version that the cache has of a key. -/
def cached (key : String) : Watching (Option Nat) := ask (.cached key)

/-- Record a version in the cache. -/
def record (key : String) (version : Nat) : Watching Unit := ask (.record key version)

/-- Take a key out of the cache. -/
def forget (key : String) : Watching Unit := ask (.forget key)

/-- All keys of the cache. -/
def cachedKeys : Watching (List String) := ask .cachedKeys

/-- The handler that watches a key. -/
def handlerFor (key : String) : Watching (Option HandlerId) := ask (.handlerFor key)

/-- Tell a handler what happened. -/
def notify (handler : HandlerId) (event : WatchEvent) : Watching (Except Failure Unit) :=
  ask (.notify handler event)

end Watching

end FleetControl
