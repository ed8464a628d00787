import FleetControl.Controller.Spec
import FleetControl.Failure

/-!
# The controller loop

A controller runs its job again and again: a pass, a wait, the next pass. It is a state machine that
takes a step only when something happens: it is started, its pass ends, its wait ends, its stop
function ends. Updates, the stop signal and the loss of its owner are noted at any time and seen at
the end of a wait, the stop signal first, then an update, then the loss of the owner, then the
timeout.

* `start`, `endPass`, `wake`, `endStop` — the steps;
* `update`, `signalStop`, `disown` — what is noted.
-/

namespace FleetControl

/-- What a controller has counted so far. -/
structure RunStats where
  successes : Nat
  failures : Nat
  /-- Failures since the last success, at most `2^32 - 1`. -/
  consecutive : Nat
  lastSuccess : Option Instant
  lastFailure : Option Instant
  lastMessage : Option String
  deriving DecidableEq, Repr

namespace RunStats

/-- Nothing has run. -/
def empty : RunStats := ⟨0, 0, 0, none, none, none⟩

/-- Whether a pass has ended. -/
def anyEnded (s : RunStats) : Bool := 0 < s.successes + s.failures

/-- Count a pass that ended now. -/
def count (s : RunStats) (now : Instant) : Except Failure Unit → RunStats
  | .ok () => { s with successes := s.successes + 1, consecutive := 0, lastSuccess := some now }
  | .error f =>
    { s with
      failures := s.failures + 1
      consecutive := min (s.consecutive + 1) Word.max32
      lastFailure := some now
      lastMessage := some f.text }

end RunStats

/-- Where a loop stands. -/
inductive Phase where
  /-- It was created and has not run yet. -/
  | fresh
  /-- A pass is under way. -/
  | passing
  /-- It waits, for a span at most if there is one. -/
  | waiting (span : Option Span)
  /-- Its stop function is under way. -/
  | stopping
  /-- It has ended. -/
  | ended
  deriving DecidableEq, Repr

/-- A controller and its loop. -/
structure Loop (J : Type) where
  name : String
  kind : String
  /-- The spec of the last pass. -/
  spec : ControllerSpec J
  /-- A later spec that the loop has not seen yet. -/
  pending : Option (ControllerSpec J)
  /-- Whether the stop signal was given. -/
  stopSignal : Bool
  /-- Whether nobody is left who could update or stop the loop. -/
  disowned : Bool
  stats : RunStats
  phase : Phase

namespace Loop

variable {J : Type}

/-- A new controller. -/
def new (name kind : String) (spec : ControllerSpec J) : Loop J :=
  ⟨name, kind, spec, none, false, false, .empty, .fresh⟩

/-! ## What is noted at any time -/

/-- Note a new spec; only the latest counts. A loop that has not run yet knows no other. -/
def update (l : Loop J) (spec : ControllerSpec J) : Loop J :=
  if l.phase = .fresh then { l with spec } else { l with pending := some spec }

/-- Note the stop signal. -/
def signalStop (l : Loop J) : Loop J := { l with stopSignal := true }

/-- Note that the owner is lost. -/
def disown (l : Loop J) : Loop J := { l with disowned := true }

/-! ## Steps -/

/-- Begin a pass with the latest spec. -/
def beginPass (l : Loop J) : Loop J :=
  { l with spec := l.pending.getD l.spec, pending := none, phase := .passing }

/-- The first step of a new loop: a pass. -/
def start (l : Loop J) : Loop J := l.beginPass

/-- The step after a pass: count it, and wait. -/
def endPass (l : Loop J) (now : Instant) (outcome : Except Failure Unit) : Loop J :=
  let stats := l.stats.count now outcome
  { l with stats, phase := .waiting (l.spec.nextWait outcome.toBool stats.consecutive) }

/-- The step at the end of a wait, if something ends it: `elapsed` tells whether the span that the
loop waits for is over. -/
def wake (l : Loop J) (elapsed : Bool) : Option (Loop J) :=
  if l.stopSignal then some { l with phase := .stopping }
  else if l.pending.isSome then some l.beginPass
  else if l.disowned then some { l with phase := .stopping }
  else if elapsed then some l.beginPass
  else none

/-- The step after the stop function: the loop ends. -/
def endStop (l : Loop J) : Loop J := { l with phase := .ended }

/-- Whether the loop has ended. -/
def hasEnded (l : Loop J) : Bool := l.phase == .ended

/-- The controller in words, for logs. -/
def text (l : Loop J) : String :=
  "Controller \x7b name: " ++ Text.quoted l.name ++ ", kind: " ++ Text.quoted l.kind ++
    ", terminated: " ++ toString l.hasEnded ++ ", .. \x7d"

/-- The jobs that the loop still holds on to. -/
def jobs (l : Loop J) : List J :=
  if l.hasEnded then []
  else
    match l.pending with
    | some later => [l.spec.job, later.job]
    | none => [l.spec.job]

end Loop

end FleetControl
