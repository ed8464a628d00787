import FleetControl.Cache.Basic
import FleetControl.Controller.Loop
import FleetControl.Placement
import FleetControl.Simulation.Agents
import FleetControl.Simulation.Arena
import FleetControl.Simulation.Handlers
import FleetControl.Simulation.Script
import FleetControl.Store.Memory
import FleetControl.Store.Table

/-!
# The simulated world

Everything that a control plane works with, as plain data: a store, a directory of agents,
schedulers, handlers, caches, informers, managers with their controllers, and at most one running
control plane. Time is a number of milliseconds since the start.

Objects are numbered. A handler lives as long as somebody keeps it: the world under a name, an
informer, a controller that has not ended, or a callback that is under way. A manager that nobody
keeps disowns its controllers.
-/

namespace FleetControl.Simulation

/-! ## The store -/

/-- The store of a world. -/
inductive Backend where
  | memory (m : Memory)
  | table (t : Table)

namespace Backend

/-- Answer an operation at an instant. -/
def apply (now : Instant) (op : StoreOp) : Backend → Outcome op.Reply × Backend
  | memory m => let r := m.apply now op; (r.1, memory r.2)
  | table t => let r := t.apply now op; (r.1, table r.2)

/-- Drop what is gone; how much it was. -/
def compact (now : Instant) : Backend → Outcome Nat × Backend
  | memory m => let r := m.compact now; (r.1, memory r.2)
  | table t => let r := t.compact now; (r.1, table r.2)

/-- The name of the kind of store. -/
def kind : Backend → String
  | memory _ => "memory"
  | table _ => "sqlite"

end Backend

/-- The error that an injected fault makes a call fail with. -/
inductive FaultKind where
  | notFound
  | alreadyExists
  | invalidKey
  | other
  deriving DecidableEq, Repr

/-- A fault that makes the next calls of one kind fail. -/
structure Fault where
  count : Nat
  kind : FaultKind
  deriving DecidableEq, Repr

/-- The name of the call that an operation is. -/
def callName : StoreOp → String
  | .get _ => "get"
  | .getAny _ => "get_any"
  | .set .. => "set"
  | .setFor .. => "set_with_ttl"
  | .delete _ => "delete"
  | .contains _ => "exists"
  | .list _ => "list_prefix"
  | .create .. => "create_only"
  | .replace .. => "create_if_exists"

/-- The key or the scope that an operation is about. -/
def subject : StoreOp → String
  | .get key => key
  | .getAny key => key
  | .set key _ => key
  | .setFor key _ _ => key
  | .delete key => key
  | .contains key => key
  | .list scope => scope
  | .create key _ => key
  | .replace key _ => key

/-- The error of a fault. -/
def FaultKind.error (k : FaultKind) (op : StoreOp) : StoreError :=
  match k with
  | .notFound => .keyNotFound (subject op)
  | .alreadyExists => .alreadyExists (subject op)
  | .invalidKey => .invalidKey (subject op)
  | .other => .other ("injected " ++ callName op ++ " failure")

/-! ## Objects -/

/-- An agent as it is registered in the directory. -/
structure Registration where
  labels : KeyMap String
  /-- The number of the agent. -/
  agent : Nat

/-- A scheduler. -/
structure SchedulerState where
  placement : Placement
  deadline : Span

namespace SchedulerState

/-- The scheduler in words, for logs. -/
def text (s : SchedulerState) : String :=
  "Scheduler \x7b placement: " ++ Text.quoted s.placement.kind.name ++ ", dispatch_timeout: " ++
    s.deadline.text ++ ", .. \x7d"

end SchedulerState

/-- The work of a controller. -/
inductive Job where
  /-- Passes of an informer over a scope, for a handler and with a cache. -/
  | informer (scope : String) (handler : HandlerId) (cache : Nat)
  /-- Sweeps of a cache. -/
  | sweep (cache : Nat)
  | scripted (label : String) (script : List ScriptEntry) (stop : Option ScriptEntry)
  /-- Success at once, without a trace. -/
  | bare

/-- The handler that a job keeps. -/
def Job.handler? : Job → Option HandlerId
  | .informer _ handler _ => some handler
  | _ => none

/-- An informer. -/
structure Informer where
  name : String
  scope : String
  handler : HandlerId
  cache : Nat
  manager : Nat
  interval : Span

/-- The number of the controller under each name. -/
abbrev Manager := KeyMap Nat

/-- A running control plane, by the numbers of its parts. -/
structure Plane where
  manager : Nat
  cache : Nat
  scheduler : Nat
  handler : HandlerId
  informer : Nat

/-- The simulated world. -/
structure World where
  /-- Milliseconds since the start. -/
  now : Nat
  backend : Backend
  faults : KeyMap Fault
  agents : Arena SimulatedAgent
  directory : KeyMap Registration
  /-- The newest bench agent of each name. -/
  benchNames : KeyMap Nat
  /-- The newest scripted agent of each name. -/
  scriptedNames : KeyMap Nat
  schedulers : Arena SchedulerState
  handlers : Arena Handler
  handlerNames : KeyMap Nat
  caches : Arena Cache
  cacheNames : KeyMap Nat
  informers : Arena Informer
  informerNames : KeyMap Nat
  managers : Arena Manager
  /-- The manager that is used outside control planes. -/
  manager : Nat
  loops : Arena (Loop Job)
  /-- The callbacks under way: the controller that waits for one, and the handler. -/
  callbacks : List (Nat × HandlerId)
  logs : KeyMap RunLog
  /-- Pipeline statuses that are kept between dispatches. -/
  slots : KeyMap PipelineStatus
  plane : Option Plane

namespace World

/-- The instant at which every simulation starts: 2025-01-01T00:00:00Z. -/
def startOfTime : Instant := ⟨(CalendarDay.mk 2025 1 1).toEpochDay * Instant.perDay, false⟩

/-- The present instant. -/
def instant (w : World) : Instant := startOfTime.add (.ofMillis w.now)

/-- The number of the scheduler that is used outside control planes. -/
def mainScheduler : Nat := 0

/-- A world with a store and a scheduler and nothing else. -/
def new (backend : Backend) (placement : PlacementKind) (deadline : Span) : World :=
  { now := 0, backend, faults := .empty
    agents := .empty, directory := .empty, benchNames := .empty, scriptedNames := .empty
    schedulers := ⟨[⟨.ofKind placement, deadline⟩]⟩
    handlers := .empty, handlerNames := .empty
    caches := .empty, cacheNames := .empty
    informers := .empty, informerNames := .empty
    managers := ⟨[.empty]⟩, manager := 0
    loops := .empty, callbacks := [], logs := .empty, slots := .empty, plane := none }

/-! ## Who is kept -/

/-- The informers that somebody keeps. -/
def keptInformers (w : World) : List Informer :=
  (w.informerNames.values ++ (w.plane.map (·.informer)).toList).filterMap w.informers.get?

/-- Whether a handler is kept by somebody. -/
def handlerAlive (w : World) (handler : HandlerId) : Bool :=
  w.handlerNames.values.contains handler ||
    (w.plane.map (·.handler)) == some handler ||
    w.keptInformers.any (·.handler == handler) ||
    w.callbacks.any (·.2 == handler) ||
    w.loops.items.any fun l => l.jobs.any fun j => j.handler? == some handler

/-- Whether a manager is kept by somebody. -/
def managerKept (w : World) (manager : Nat) : Bool :=
  w.manager == manager || (w.plane.map (·.manager)) == some manager ||
    w.keptInformers.any (·.manager == manager)

/-- The controllers of the managers that nobody keeps. -/
def ownerless (w : World) : List Nat :=
  (w.managers.items.zipIdx.filter fun m => !w.managerKept m.2).flatMap fun m => m.1.values

/-- Disown the controllers of the managers that nobody keeps. -/
def disownLost (w : World) : World :=
  { w with loops := w.ownerless.foldl (fun loops id => loops.modify id Loop.disown) w.loops }

/-! ## Looking things up -/

/-- The agents of the directory in ascending order of their names. -/
def listAgents (w : World) : List AgentInfo :=
  w.directory.toList.map fun r => ⟨r.1, r.2.labels⟩

/-- The deadline of a scheduler's calls. -/
def deadline (w : World) (scheduler : Nat) : Span :=
  ((w.schedulers.get? scheduler).map (·.deadline)).getD .zero

/-- The reconciler of workflows in words, for logs. -/
def workflowControllerText (w : World) : String :=
  "WorkflowController \x7b store: " ++ Text.quoted w.backend.kind ++ ", scheduler: " ++
    ((w.schedulers.get? mainScheduler).map SchedulerState.text).getD "" ++ " \x7d"

/-- The repository of workflows in words, for logs. -/
def repositoryText (w : World) : String :=
  "WorkflowStore \x7b store: " ++ Text.quoted w.backend.kind ++ " \x7d"

/-- Whether a controller has been asked to stop. -/
def stopRequested (w : World) (loop : Nat) : Bool :=
  ((w.loops.get? loop).map (·.stopSignal)).getD true

/-- Whether a controller has ended. -/
def loopEnded (w : World) (loop : Nat) : Bool :=
  ((w.loops.get? loop).map Loop.hasEnded).getD true

/-- The controllers of a manager. -/
def controllers (w : World) (manager : Nat) : Manager := (w.managers.get? manager).getD .empty

/-- The log of a label. -/
def log (w : World) (label : String) : RunLog := (w.logs.get? label).getD .empty

/-- Add a line to the log of a label. -/
def addLog (w : World) (label : String) (e : LogEvent) : World :=
  { w with logs := w.logs.insert label ((w.log label).add e) }

/-- Change a controller. -/
def modifyLoop (w : World) (loop : Nat) (f : Loop Job → Loop Job) : World :=
  { w with loops := w.loops.modify loop f }

/-- Note that a controller waits for a callback. -/
def beginCallback (w : World) (loop : Nat) (handler : HandlerId) : World :=
  { w with callbacks := (loop, handler) :: w.callbacks }

/-- Note that a controller waits for no callback. -/
def endCallback (w : World) (loop : Nat) : World :=
  { w with callbacks := w.callbacks.filter fun c => c.1 != loop }

/-- Change a cache. -/
def modifyCache (w : World) (cache : Nat) (f : Cache → Cache) : World :=
  { w with caches := w.caches.modify cache f }

/-- Change an agent. -/
def modifyAgent (w : World) (agent : Nat) (f : SimulatedAgent → SimulatedAgent) : World :=
  { w with agents := w.agents.modify agent f }

end World

end FleetControl.Simulation
