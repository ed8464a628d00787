import FleetControl.Simulation.Requests

/-!
# Managers and their controllers

A manager has at most one controller under each name. A name that is registered again gives the new
spec to the controller that is there; a name that is taken out is free at once, even while the
controller that had it is still in its last pass.

* `World.register`, `World.unregister`, `World.unregisterAll` — what changes at once;
* `updateController`, `removeController`, `removeAll` and their waiting forms — the acts.
-/

namespace FleetControl.Simulation

namespace World

/-- Register a controller under a name, or give the new spec to the one that has the name; whether
the controller is new. -/
def register (w : World) (manager : Nat) (name kind : String) (spec : ControllerSpec Job) :
    Bool × World :=
  match (w.controllers manager).get? name with
  | some loop => (false, w.modifyLoop loop fun l => l.update spec)
  | none =>
    let (loop, loops) := w.loops.add (.new name kind spec)
    (true, { w with
      loops, managers := w.managers.modify manager fun m => m.insert name loop })

/-- Take the controller out that has a name, and give it the stop signal. -/
def unregister (w : World) (manager : Nat) (name : String) : Except RuntimeError Nat × World :=
  match (w.controllers manager).get? name with
  | none => (.error (.controllerNotFound name), w)
  | some loop =>
    let w := w.modifyLoop loop Loop.signalStop
    (.ok loop, { w with managers := w.managers.modify manager fun m => m.erase name })

/-- Take all controllers out, and give them the stop signal. -/
def unregisterAll (w : World) (manager : Nat) : List Nat × World :=
  let loops := (w.controllers manager).values
  let w := loops.foldl (fun w loop => w.modifyLoop loop Loop.signalStop) w
  (loops, { w with managers := w.managers.modify manager fun _ => .empty })

/-- The controllers of a manager in ascending order of their names. -/
def registered (w : World) (manager : Nat) : List (Loop Job) :=
  (w.controllers manager).values.filterMap w.loops.get?

/-- The controller that has a name. -/
def findController (w : World) (manager : Nat) (name : String) : Option (Loop Job) :=
  ((w.controllers manager).get? name).bind w.loops.get?

/-- Add a manager without controllers; its number. -/
def addManager (w : World) : Nat × World :=
  let (manager, managers) := w.managers.add .empty
  (manager, { w with managers })

/-- The manager in words, for logs. -/
def managerText (w : World) (manager : Nat) : String :=
  let entry (l : Loop Job) := Text.quoted l.name ++ ": " ++ l.text
  "Manager \x7b controllers: RwLock \x7b data: \x7b" ++
    ", ".intercalate ((w.registered manager).map entry) ++ "\x7d \x7d \x7d"

end World

/-- Register a controller, or give a new spec to the one that has the name; whether it is new. -/
def updateController (manager : Nat) (name kind : String) (spec : ControllerSpec Job) :
    Act World Bool :=
  .update fun w => w.register manager name kind spec

/-- Wait until controllers have ended. -/
def awaitEnds (loops : List Nat) : Act World Unit := .awaiting fun w => loops.all w.loopEnded

/-- Take a controller out and go on while it ends. -/
def removeController (manager : Nat) (name : String) : Act World (Except RuntimeError Unit) := do
  let taken ← Act.update fun w => w.unregister manager name
  pure (taken.map fun _ => ())

/-- Take a controller out and wait until it has ended. -/
def removeControllerAndWait (manager : Nat) (name : String) :
    Act World (Except RuntimeError Unit) := do
  match ← Act.update fun w => w.unregister manager name with
  | .error e => pure (.error e)
  | .ok loop => do
    awaitEnds [loop]
    pure (.ok ())

/-- Take all controllers out and go on while they end. -/
def removeAll (manager : Nat) : Act World Unit := do
  let _ ← Act.update fun w => w.unregisterAll manager
  pure ()

/-- Take all controllers out and wait until they have ended. -/
def removeAllAndWait (manager : Nat) : Act World Unit := do
  awaitEnds (← Act.update fun w => w.unregisterAll manager)

/-- Go on with a new manager; the controllers of the old one lose their owner. -/
def replaceManager : Act World Unit :=
  .modify fun w =>
    let (manager, w) := w.addManager
    { w with manager }.disownLost

end FleetControl.Simulation
