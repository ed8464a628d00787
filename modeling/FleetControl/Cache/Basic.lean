import FleetControl.Store.Basic

/-!
# The cache of processed versions

A cache remembers for each key the last version that was processed successfully, and who watches
which scope. A watcher is not kept alive by the cache: it counts only as long as somebody else keeps
its handler.

* `record` — versions never go down;
* `handlerFor` — the handler of a key is the one with the longest scope, and of several with that
  scope the one that was registered last;
* `register` and `unregister` — tell whether the watchers went from none to one, or from some to
  none, which is when the sweep starts and stops.
-/

namespace FleetControl

/-- The number of a handler. -/
abbrev HandlerId := Nat

/-- A handler that watches a scope. -/
structure Watcher where
  scope : String
  handler : HandlerId
  deriving DecidableEq, Repr

/-- A cache of processed versions. -/
structure Cache where
  name : String
  /-- The wait between sweeps. -/
  sweepInterval : Span
  entries : KeyMap Nat
  /-- The watchers in the order in which they were registered. -/
  watchers : List Watcher

/-- The wait between sweeps unless something else is asked for. -/
def defaultSweepInterval : Span := .ofSeconds 30

/-- The kind of sweep controllers. -/
def sweepKind : String := "cache-sweep"

/-- Whether a key lies under a scope. -/
def under (scope key : String) : Bool := scope.toList.isPrefixOf key.toList

namespace Cache

/-- An empty cache. -/
def new (name : String) (sweepInterval : Span) : Cache := ⟨name, sweepInterval, .empty, []⟩

/-- The name of the cache's sweep controller. -/
def sweepName (c : Cache) : String := sweepKind ++ ":" ++ c.name

/-- The cache in words, for logs. -/
def text (c : Cache) : String :=
  "Cache \x7b name: " ++ Text.quoted c.name ++ ", sweep_interval: " ++ c.sweepInterval.text ++
    ", .. \x7d"

/-- The version recorded for a key. -/
def version (c : Cache) (key : String) : Option Nat := c.entries.get? key

/-- Record a version; a higher one that is there stays. -/
def record (c : Cache) (key : String) (version : Nat) : Cache :=
  { c with entries := c.entries.insert key (max version ((c.version key).getD version)) }

/-- Forget a key. -/
def forget (c : Cache) (key : String) : Cache := { c with entries := c.entries.erase key }

/-- The watchers whose handlers are still kept. -/
def living (c : Cache) (alive : HandlerId → Bool) : List Watcher :=
  c.watchers.filter fun w => alive w.handler

/-- Add a watcher and forget the dead ones; whether it is the only one. -/
def register (c : Cache) (alive : HandlerId → Bool) (w : Watcher) : Bool × Cache :=
  let watchers := c.living alive ++ [w]
  (watchers.length == 1, { c with watchers })

/-- Take a watcher out and forget the dead ones; whether that left none of the watchers there
were. -/
def unregister (c : Cache) (alive : HandlerId → Bool) (w : Watcher) : Bool × Cache :=
  let watchers := (c.living alive).filter fun x => x ≠ w
  (!c.watchers.isEmpty && watchers.isEmpty, { c with watchers })

/-- The longer scope of two watchers, the later one if they are equally long. -/
def closer (best : Option Watcher) (w : Watcher) : Option Watcher :=
  match best with
  | none => some w
  | some b => if b.scope.length ≤ w.scope.length then some w else some b

/-- The handler of a key: the living watcher with the longest scope that the key lies under. -/
def handlerFor (c : Cache) (alive : HandlerId → Bool) (key : String) : Option HandlerId :=
  (((c.living alive).filter fun w => under w.scope key).foldl closer none).map (·.handler)

end Cache

end FleetControl
