import FleetControl.Simulation.Controllers

/-!
# Caches and the handlers that watch

The first watcher of a cache starts its sweep, and the sweep stops with the last one. A handler that
nobody keeps any more watches nothing.

* `watch`, `unwatch` — register a watcher with a cache, and take it out again;
* `startSweep`, `stopSweep` — the sweep on its own.
-/

namespace FleetControl.Simulation

namespace World

/-- Add a cache; its number. -/
def addCache (w : World) (name : String) (sweepInterval : Span) : Nat × World :=
  let (cache, caches) := w.caches.add (.new name sweepInterval)
  (cache, { w with caches })

/-- Add a cache that the world keeps under its name. -/
def openCache (w : World) (name : String) (sweepInterval : Span) : World :=
  let (cache, w) := w.addCache name sweepInterval
  { w with cacheNames := w.cacheNames.insert name cache }

/-- Add a handler; its number. -/
def addHandler (w : World) (handler : Handler) : HandlerId × World :=
  let (id, handlers) := w.handlers.add handler
  (id, { w with handlers })

/-- Add a recorder that the world keeps under a name. -/
def openRecorder (w : World) (name : String) : World :=
  let (handler, w) := w.addHandler (.recorder .new)
  { w with handlerNames := w.handlerNames.insert name handler }

/-- Keep a handler no longer under its name; whether there was one. -/
def dropHandler (w : World) (name : String) : Bool × World :=
  (w.handlerNames.contains name, { w with handlerNames := w.handlerNames.erase name })

/-- Change a recorder. -/
def modifyRecorder (w : World) (handler : HandlerId) (f : Recorder → Recorder) : World :=
  { w with handlers := w.handlers.modify handler fun
    | .recorder r => .recorder (f r)
    | other => other }

/-- Take what a recorder has noted. -/
def takeEvents (w : World) (handler : HandlerId) : List RecordedEvent × World :=
  match w.handlers.get? handler with
  | some (.recorder r) => (r.events, w.modifyRecorder handler fun r => { r with events := [] })
  | _ => ([], w)

/-- How many watchers of a cache have a handler that is kept. -/
def watcherCount (w : World) (cache : Nat) : Nat :=
  ((w.caches.get? cache).map fun c => (c.living w.handlerAlive).length).getD 0

/-- Start the sweep of a cache, or wake it. -/
def startSweep (w : World) (cache manager : Nat) : World :=
  match w.caches.get? cache with
  | none => w
  | some c =>
    (w.register manager c.sweepName sweepKind (sweepSpec c.sweepInterval (.sweep cache))).2

/-- Register a watcher with a cache; the first one starts the sweep. -/
def addWatcher (w : World) (cache manager : Nat) (watcher : Watcher) : World :=
  match w.caches.get? cache with
  | none => w
  | some c =>
    let (first, c) := c.register w.handlerAlive watcher
    let w := w.modifyCache cache fun _ => c
    if first then w.startSweep cache manager else w

/-- Take a watcher out of a cache; whether it was the last one. -/
def dropWatcher (w : World) (cache : Nat) (watcher : Watcher) : Bool × World :=
  match w.caches.get? cache with
  | none => (false, w)
  | some c =>
    let (last, c) := c.unregister w.handlerAlive watcher
    (last, w.modifyCache cache fun _ => c)

end World

/-- Stop the sweep of a cache and wait for it; that it does not run is no failure. -/
def stopSweep (cache manager : Nat) : Act World (Except RuntimeError Unit) :=
  .read fun w =>
    match w.caches.get? cache with
    | none => .done (.ok ())
    | some c =>
      if (w.controllers manager).contains c.sweepName then
        removeControllerAndWait manager c.sweepName
      else .done (.ok ())

/-- Register a watcher with a cache. -/
def watch (cache manager : Nat) (watcher : Watcher) : Act World Unit :=
  .modify fun w => w.addWatcher cache manager watcher

/-- Take a watcher out of a cache; after the last one the sweep stops. -/
def unwatch (cache manager : Nat) (watcher : Watcher) : Act World (Except RuntimeError Unit) := do
  if ← Act.update fun w => w.dropWatcher cache watcher then stopSweep cache manager
  else pure (.ok ())

end FleetControl.Simulation
