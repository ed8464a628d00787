import FleetControl.Failure

/-!
# Scripted jobs

A scripted job plays one entry of its script on every run: it sleeps, may wait until it is asked to
stop, and then panics, fails or succeeds. What it does is noted in a log.
-/

namespace FleetControl.Simulation

/-- One run of a scripted job. -/
structure ScriptEntry where
  /-- The milliseconds before anything else. -/
  delay : Nat
  /-- Whether to wait until the run is asked to stop. -/
  untilCancelled : Bool
  panics : Bool
  failure : Option Failure

/-- The run beyond the end of a script: success at once. -/
def ScriptEntry.success : ScriptEntry := ⟨0, false, false, none⟩

/-- A line of the log of a scripted job. -/
inductive LogEvent where
  | run (time : Nat)
  /-- A run ended, and whether it had been asked to stop. -/
  | endRun (time : Nat) (cancelled : Bool)
  | stop (time : Nat)
  deriving DecidableEq, Repr

/-- Whether the line tells of the start of a run. -/
def LogEvent.isRun : LogEvent → Bool
  | run _ => true
  | _ => false

/-- The log of a scripted job. -/
structure RunLog where
  /-- The lines, the latest first. -/
  latestFirst : List LogEvent
  /-- How many of them tell of the start of a run. -/
  runs : Nat

namespace RunLog

/-- Nothing has happened. -/
def empty : RunLog := ⟨[], 0⟩

/-- Add a line. -/
def add (log : RunLog) (e : LogEvent) : RunLog :=
  ⟨e :: log.latestFirst, if e.isRun then log.runs + 1 else log.runs⟩

/-- The lines in the order in which they were added. -/
def events (log : RunLog) : List LogEvent := log.latestFirst.reverse

end RunLog

end FleetControl.Simulation
