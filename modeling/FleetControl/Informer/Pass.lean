import FleetControl.Cache.Request
import FleetControl.Controller.Spec

/-!
# The informer pass

An informer scans one scope of the store and tells its handler what has changed since the versions
that the cache remembers: keys that are new, keys with a higher version, and tombstones of keys that
are known. What the handler has dealt with goes into the cache; what it failed on stays as it was
and comes up again in the next pass.

* `informerPass` — one pass; it fails only if the scan does;
* `informerSpec` — a pass in every interval.
-/

namespace FleetControl

/-- The wait between informer passes unless something else is asked for. -/
def defaultInformerInterval : Span := .ofSeconds 15

/-- The kind of informer controllers. -/
def informerKind : String := "informer"

/-- Deal with a tombstone: a key that is known is handed over as deleted. -/
def observeTombstone (handler : HandlerId) (key : String) : Watching Unit := do
  match ← Watching.cached key with
  | none => pure ()
  | some _ =>
    match ← Watching.notify handler (.deleted key) with
    | .ok () => Watching.forget key
    | .error _ => pure ()

/-- Deal with a live key. -/
def observeLive (handler : HandlerId) (kv : Snapshot) : Watching Unit := do
  let outcome ←
    match ← Watching.cached kv.key with
    | none => Watching.notify handler (.added kv)
    | some previous =>
      if previous < kv.version then Watching.notify handler (.updated kv previous)
      else pure (.ok ())
  match outcome with
  | .ok () => Watching.record kv.key kv.version
  | .error _ => pure ()

/-- Deal with one key of a scan. -/
def observe (handler : HandlerId) (kv : Snapshot) : Watching Unit :=
  if kv.dead then observeTombstone handler kv.key else observeLive handler kv

/-- Deal with the keys of a scan one after the other, until asked to stop. -/
def observeAll (handler : HandlerId) : List Snapshot → Watching Unit
  | [] => pure ()
  | kv :: rest => do
    if ← Watching.cancelled then pure ()
    else do
      observe handler kv
      observeAll handler rest

/-- One pass over a scope. -/
def informerPass (scope : String) (handler : HandlerId) : Watching (Except Failure Unit) := do
  match ← Watching.scan scope with
  | .error e => pure (.error e.failure)
  | .ok found => do
    observeAll handler found
    pure (.ok ())

/-- How a controller runs an informer, given the work of a pass. -/
def informerSpec {J : Type} (interval : Span) (pass : J) : ControllerSpec J :=
  { ControllerSpec.once pass with interval }

end FleetControl
