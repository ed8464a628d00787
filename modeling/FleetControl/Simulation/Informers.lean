import FleetControl.Simulation.Caches

/-!
# Informers

An informer is a controller that passes over a scope, together with its watcher on the cache.

* `runInformer` — register both; a second time it gives the controller a new pass;
* `stopInformer` — take both out, and wait for the controllers that end with that.
-/

namespace FleetControl.Simulation

namespace Informer

/-- The informer's watcher. -/
def watcher (i : Informer) : Watcher := ⟨i.scope, i.handler⟩

/-- How the informer's controller runs. -/
def spec (i : Informer) : ControllerSpec Job :=
  informerSpec i.interval (.informer i.scope i.handler i.cache)

/-- The informer in words, for logs. -/
def text (i : Informer) (cacheName : String) : String :=
  "StoreController \x7b name: " ++ Text.quoted i.name ++ ", prefix: " ++ Text.quoted i.scope ++
    ", cache: " ++ Text.quoted cacheName ++ ", interval: " ++ i.interval.text ++ ", .. \x7d"

end Informer

namespace World

/-- Add an informer; its number. -/
def addInformer (w : World) (i : Informer) : Nat × World :=
  let (informer, informers) := w.informers.add i
  (informer, { w with informers })

/-- Add an informer that the world keeps under its name. -/
def openInformer (w : World) (i : Informer) : World :=
  let (informer, w) := w.addInformer i
  { w with informerNames := w.informerNames.insert i.name informer }.disownLost

/-- Keep an informer no longer under its name; whether there was one. -/
def dropInformer (w : World) (name : String) : Bool × World :=
  (w.informerNames.contains name,
    { w with informerNames := w.informerNames.erase name }.disownLost)

/-- The name of a cache. -/
def cacheName (w : World) (cache : Nat) : String := ((w.caches.get? cache).map (·.name)).getD ""

end World

/-- Run an informer. -/
def runInformer (i : Informer) : Act World Unit := do
  watch i.cache i.manager i.watcher
  let _ ← updateController i.manager i.name informerKind i.spec
  pure ()

/-- Stop an informer; that its controller does not run is no failure. -/
def stopInformer (i : Informer) : Act World (Except RuntimeError Unit) := do
  match ← removeControllerAndWait i.manager i.name with
  | .ok () | .error (.controllerNotFound _) => unwatch i.cache i.manager i.watcher
  | .error e => pure (.error e)

end FleetControl.Simulation
