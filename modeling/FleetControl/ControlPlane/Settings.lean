import FleetControl.Cache.Basic
import FleetControl.Error
import FleetControl.Informer.Pass
import FleetControl.Scheduler

/-!
# Building a control plane

What a control plane is to be built from, and what it starts with once everything that it needs is
there: a store, a directory, and a deadline that is not empty. The placement policy is round-robin
unless something else is asked for.

* `PlaneSettings.build` — checks the settings, in that order.
-/

namespace FleetControl

/-- The name of the workflow informer's controller. -/
def workflowInformerName : String := "workflow-informer"

/-- The name of the cache of a control plane. -/
def sharedCacheName : String := "control-plane"

/-- What a control plane is to be built from. -/
structure PlaneSettings where
  /-- The kind of store, if there is one. -/
  store : Option String
  hasDirectory : Bool
  placement : Option PlacementKind
  informerInterval : Span
  sweepInterval : Span
  dispatchTimeout : Span
  deriving DecidableEq, Repr

/-- What a control plane starts with. -/
structure PlaneConfig where
  /-- The kind of store. -/
  store : String
  placement : PlacementKind
  informerInterval : Span
  sweepInterval : Span
  dispatchTimeout : Span
  deriving DecidableEq, Repr

namespace PlaneSettings

/-- Nothing has been set. -/
def initial : PlaneSettings :=
  { store := none, hasDirectory := false, placement := none
    informerInterval := defaultInformerInterval
    sweepInterval := defaultSweepInterval
    dispatchTimeout := defaultDispatchTimeout }

/-- Take the intervals, the deadline and the placement policy from the environment's settings. -/
def withConfig (s : PlaneSettings) (c : Config) : PlaneSettings :=
  { s with
    placement := some c.placement
    informerInterval := c.informerInterval
    sweepInterval := c.sweepInterval
    dispatchTimeout := c.dispatchTimeout }

/-- Check the settings. -/
def build (s : PlaneSettings) : Except ControlError PlaneConfig :=
  match s.store with
  | none => .error (.other "store is required")
  | some store =>
    if !s.hasDirectory then .error (.other "agent directory is required")
    else if s.dispatchTimeout.isZero then
      .error (.other "dispatch timeout must be greater than zero")
    else
      .ok { store, placement := s.placement.getD .roundRobin
            informerInterval := s.informerInterval
            sweepInterval := s.sweepInterval
            dispatchTimeout := s.dispatchTimeout }

/-- The two intervals and the deadline in words. -/
def spans (informerInterval sweepInterval dispatchTimeout : Span) : String :=
  "informer_interval: " ++ informerInterval.text ++ ", cache_sweep_interval: " ++
    sweepInterval.text ++ ", dispatch_timeout: " ++ dispatchTimeout.text

/-- A text that may be missing, in words. -/
def optional : Option String → String
  | some text => "Some(" ++ Text.quoted text ++ ")"
  | none => "None"

/-- The settings in words, for logs. -/
def text (s : PlaneSettings) : String :=
  "ControlPlaneBuilder \x7b store: " ++ optional s.store ++ ", directory: " ++
    optional (if s.hasDirectory then some "..." else none) ++ ", placement: " ++
    optional (s.placement.map PlacementKind.name) ++ ", " ++
    spans s.informerInterval s.sweepInterval s.dispatchTimeout ++ " \x7d"

end PlaneSettings

/-- The configuration in words, for logs. -/
def PlaneConfig.text (c : PlaneConfig) : String :=
  "ControlPlaneConfig \x7b store: " ++ Text.quoted c.store ++ ", placement: " ++
    Text.quoted c.placement.name ++ ", " ++
    PlaneSettings.spans c.informerInterval c.sweepInterval c.dispatchTimeout ++ " \x7d"

end FleetControl
