import FleetControl.Cache.Request

/-!
# Handlers of the simulation

A recorder notes every callback, after a delay, and can be told to fail. The other kind of handler
reconciles workflows.
-/

namespace FleetControl.Simulation

/-- A callback as a recorder notes it. -/
structure RecordedEvent where
  /-- Milliseconds since the start. -/
  time : Nat
  event : WatchEvent
  failed : Bool

/-- A handler that notes what it is told. -/
structure Recorder where
  /-- How many callbacks of each kind fail from now on. -/
  failAdds : Nat
  failUpdates : Nat
  failDeletes : Nat
  /-- The milliseconds before a callback is noted. -/
  delay : Nat
  /-- What was noted since somebody last asked. -/
  events : List RecordedEvent

namespace Recorder

/-- A recorder that has noted nothing. -/
def new : Recorder := ⟨0, 0, 0, 0, []⟩

/-- The kind of an event in a word. -/
def word : WatchEvent → String
  | .added _ => "add"
  | .updated .. => "update"
  | .deleted _ => "delete"

/-- How many callbacks of the kind of an event fail from now on. -/
def failuresLeft (r : Recorder) : WatchEvent → Nat
  | .added _ => r.failAdds
  | .updated .. => r.failUpdates
  | .deleted _ => r.failDeletes

/-- One failure less of the kind of an event. -/
def useFailure (r : Recorder) : WatchEvent → Recorder
  | .added _ => { r with failAdds := r.failAdds - 1 }
  | .updated .. => { r with failUpdates := r.failUpdates - 1 }
  | .deleted _ => { r with failDeletes := r.failDeletes - 1 }

/-- Decide whether a callback fails, and note it. -/
def note (r : Recorder) (time : Nat) (event : WatchEvent) : Except Failure Unit × Recorder :=
  if 0 < r.failuresLeft event then
    let r := r.useFailure event
    (.error (.ofText ("injected " ++ word event ++ " failure")),
      { r with events := r.events ++ [⟨time, event, true⟩] })
  else (.ok (), { r with events := r.events ++ [⟨time, event, false⟩] })

end Recorder

/-- A handler of the simulation. -/
inductive Handler where
  | recorder (r : Recorder)
  /-- The handler of manifests that works with a scheduler. -/
  | workflows (scheduler : Nat)

end FleetControl.Simulation
