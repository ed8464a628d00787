import FleetControl.ControlPlane.Settings
import FleetControl.Repository
import FleetControl.Simulation.Informers

/-!
# Control planes

A control plane has a manager, a cache and a scheduler of its own, and shares the store and the
directory with the world. It first takes off the workflows whose manifests went away while nobody
watched, and then watches the manifests.

* `startPlane` — start a control plane in the place of the one that runs;
* `Plane.shutDown` — stop all its controllers, and wait for them.
-/

namespace FleetControl.Simulation

namespace World

/-- Add the parts of a control plane. -/
def addPlane (w : World) (c : PlaneConfig) : Plane × World :=
  let (manager, w) := w.addManager
  let (cache, w) := w.addCache sharedCacheName c.sweepInterval
  let (scheduler, schedulers) := w.schedulers.add ⟨.ofKind c.placement, c.dispatchTimeout⟩
  let w := { w with schedulers }
  let (handler, w) := w.addHandler (.workflows scheduler)
  let (informer, w) := w.addInformer
    { name := workflowInformerName, scope := workflowScope, handler, cache, manager
      interval := c.informerInterval }
  (⟨manager, cache, scheduler, handler, informer⟩, w)

end World

namespace Plane

/-- The informer of a control plane. -/
def findInformer (p : Plane) (w : World) : Option Informer := w.informers.get? p.informer

/-- Stop the informer and then every controller that is left, and wait for them. -/
def shutDown (p : Plane) : Act World Unit := do
  match ← Act.get p.findInformer with
  | none => pure ()
  | some i => do
    let _ ← stopInformer i
    pure ()
  removeAllAndWait p.manager
  Act.modify fun w => { w with plane := none }.disownLost

/-- The keys that a control plane has processed. -/
def cachedKeys (p : Plane) (w : World) : List String :=
  ((w.caches.get? p.cache).map fun c => c.entries.keys).getD []

/-- A control plane in words, for logs. -/
def text (p : Plane) (w : World) : String :=
  let informerName := ((p.findInformer w).map (·.name)).getD ""
  "ControlPlane \x7b store: " ++ Text.quoted w.backend.kind ++ ", cache: " ++
    Text.quoted (w.cacheName p.cache) ++ ", informer: " ++ Text.quoted informerName ++ " \x7d"

/-- Whether every controller of a control plane has ended a pass. -/
def allPassed (p : Plane) (w : World) : Bool :=
  (w.registered p.manager).all fun l => l.stats.anyEnded

end Plane

/-- Start a control plane. Only then the one that ran before is let go. -/
def startPlane (c : PlaneConfig) : Act World Plane := do
  let p ← Act.update fun w => w.addPlane c
  let _ ← control p.scheduler reconcileOrphans
  match ← Act.get p.findInformer with
  | none => pure ()
  | some i => runInformer i
  Act.modify fun w => { w with plane := some p }.disownLost
  pure p

/-- See the rows of the table with another grace, as after opening its file again. -/
def World.reopenTable (w : World) (grace : Span) : World :=
  match w.backend with
  | .memory _ => w
  | .table t => { w with backend := .table (t.reopened grace) }

/-- Open the table again and start a control plane on it, with the settings of an environment. -/
def openPlane (c : Config) : Act World (Except ControlError Plane) := do
  Act.modify fun w => w.reopenTable defaultGrace
  let settings ← Act.get fun w =>
    { PlaneSettings.initial.withConfig c with store := some w.backend.kind, hasDirectory := true }
  match settings.build with
  | .error e => pure (.error e)
  | .ok config => do
    let p ← startPlane config
    pure (.ok p)

end FleetControl.Simulation
