import FleetControl.Cache.Sweep
import FleetControl.Informer.Pass
import FleetControl.Reconcile.Callbacks
import FleetControl.Simulation.Act
import FleetControl.Simulation.World

/-!
# Requests in the simulated world

What the requests of programs do to the world, and with that what programs and the jobs of
controllers do. Only agents, recorders and scripts take time.
-/

namespace FleetControl.Simulation

/-! ## The store -/

/-- Carry out a store operation, unless a fault has been injected into calls of its kind. -/
def storeOp (op : StoreOp) : Act World (Except StoreError op.Reply) :=
  .read fun w =>
    let name := callName op
    match w.faults.get? name with
    | some ⟨count + 1, kind⟩ =>
      .write (fun w => { w with faults := w.faults.insert name ⟨count, kind⟩ })
        (.done (.error (kind.error op)))
    | _ =>
      let r := w.backend.apply w.instant op
      .write (fun w => { w with backend := r.2 })
        (match r.1 with
          | .answer a => .done (.ok a)
          | .refused e => .done (.error e)
          | .undatable => .crash)

/-- Whether a key is in the store, live or as a tombstone. -/
def storePresent (key : String) : Act World (Except StoreError Bool) := do
  let found ← storeOp (.getAny key)
  pure (found.map Option.isSome)

/-! ## Agents -/

/-- A bench agent's part in a call: it notes the call, sleeps, refuses or does what was asked,
sleeps again and reports. -/
def callBench (id : Nat) (action : PipelineAction) (request : PipelineRequest) :
    Act World (Except AgentError PipelineReport) :=
  let withAgent {α : Type} (f : BenchAgent → α × BenchAgent) (fallback : α) : Act World α :=
    .update fun w =>
      match (w.agents.get? id).bind SimulatedAgent.bench? with
      | some a => let r := f a; (r.1, w.modifyAgent id fun _ => .bench r.2)
      | none => (fallback, w)
  do
    let delay ← withAgent (fun a => (a.delay, a.receive action request)) 0
    Act.pause delay
    let refusal ← withAgent
      (fun a => let d := a.decide; (if d.1 then some (a.refusal action) else none, d.2)) none
    match refusal with
    | some e => pure (.error e)
    | none => do
      let (report, replyDelay) ← withAgent
        (fun a => let d := a.carryOut action request; ((d.1, a.replyDelay), d.2))
        (⟨"", "", none⟩, 0)
      Act.pause replyDelay
      pure (.ok report)

/-- A scripted agent's next reply. -/
def nextScripted (id : Nat) : Act World (Option ScriptedReply) := do
  let reply ← Act.update fun w =>
    match w.agents.get? id with
    | some a => let r := a.nextReply; (r.1, w.modifyAgent id fun _ => r.2)
    | none => (none, w)
  match reply with
  | none => pure none
  | some r => do
    Act.pause r.delay
    pure (some r)

/-- The error of a scripted agent that has no reply left. -/
def noScriptedReply : AgentError := .other "no scripted reply"

/-- Call an agent about a pipeline. -/
def callAgent (id : Nat) (action : PipelineAction) (request : PipelineRequest) :
    Act World (Except AgentError PipelineReport) :=
  .read fun w =>
    match w.agents.get? id with
    | some (.bench _) => callBench id action request
    | _ => do
      match ← nextScripted id with
      | none => pure (.error noScriptedReply)
      | some r => pure (match r.error with | some e => .error e | none => .ok r.report)

/-- Ask an agent for its health. -/
def askHealth (id : Nat) : Act World (Except AgentError AgentHealth) :=
  .read fun w =>
    match w.agents.get? id with
    | some (.bench a) => .done (.ok a.health)
    | _ => do
      match ← nextScripted id with
      | none => pure (.error noScriptedReply)
      | some r =>
        pure (match r.error, r.health with
          | some e, _ => .error e
          | none, some h => .ok h
          | none, none => .error noScriptedReply)

/-! ## The requests of the control plane -/

/-- Choose an agent by the policy of a scheduler. -/
def placeBy (scheduler : Nat) (spec : PipelineSpec) (candidates : List AgentInfo) (w : World) :
    Option String × World :=
  match w.schedulers.get? scheduler with
  | none => (none, w)
  | some s =>
    let (agent, placement) := s.placement.place spec candidates
    (agent, { w with schedulers := w.schedulers.modify scheduler fun s => { s with placement } })

/-- What a request of the control plane does. -/
def answer (scheduler : Nat) : (r : Request) → Act World r.Reply
  | .clock => .get World.instant
  | .store op => storeOp op
  | .agents => .get World.listAgents
  | .connect name => .get fun w => (w.directory.get? name).map fun r => ⟨r.agent⟩
  | .place spec candidates => .update (placeBy scheduler spec candidates)
  | .call connection deadline action request =>
    (callAgent connection.agent action request).within deadline.millis
  | .health connection deadline => (askHealth connection.agent).within deadline.millis

/-- What a program of the control plane does; it is given the deadline of the scheduler. -/
def control {α : Type} (scheduler : Nat) (p : Span → Control α) : Act World α :=
  .read fun w => .ofProgram (answer scheduler) (p (w.deadline scheduler))

/-! ## The requests of observers -/

/-- What a callback does. -/
def callback (handler : HandlerId) (event : WatchEvent) : Act World (Except Failure Unit) :=
  .read fun w =>
    match w.handlers.get? handler with
    | none => .done (.ok ())
    | some (.workflows scheduler) =>
      control scheduler fun deadline => handleWorkflowEvent deadline event
    | some (.recorder r) => do
      Act.pause r.delay
      Act.update fun w =>
        match w.handlers.get? handler with
        | some (.recorder r) =>
          let noted := r.note w.now event
          (noted.1, { w with handlers := w.handlers.modify handler fun _ => .recorder noted.2 })
        | _ => (.ok (), w)

/-- What a request of an observer does, for a pass of a controller with a cache. -/
def answerWatch (loop cache : Nat) : (r : WatchRequest) → Act World r.Reply
  | .cancelled => .get fun w => w.stopRequested loop
  | .scan scope => storeOp (.list scope)
  | .present key => storePresent key
  | .cached key => .get fun w => (w.caches.get? cache).bind fun c => c.version key
  | .record key version => .modify fun w => w.modifyCache cache fun c => c.record key version
  | .forget key => .modify fun w => w.modifyCache cache fun c => c.forget key
  | .cachedKeys => .get fun w => ((w.caches.get? cache).map fun c => c.entries.keys).getD []
  | .handlerFor key =>
    .get fun w => (w.caches.get? cache).bind fun c => c.handlerFor w.handlerAlive key
  | .notify handler event => do
    Act.modify fun w => w.beginCallback loop handler
    let outcome ← callback handler event
    Act.modify fun w => w.endCallback loop
    pure outcome

/-! ## The jobs of controllers -/

/-- Play an entry of a script. -/
def playEntry (loop : Nat) (e : ScriptEntry) : Act World Unit := do
  Act.pause e.delay
  if e.untilCancelled then Act.awaiting fun w => w.stopRequested loop else pure ()
  if e.panics then Act.crash else pure ()

/-- One run of a scripted job: it plays the entry whose number is that of the runs before. -/
def playRun (loop : Nat) (label : String) (script : List ScriptEntry) :
    Act World (Except Failure Unit) := do
  let runs ← Act.update fun w =>
    ((w.log label).runs, w.addLog label (.run w.now))
  let entry := script[runs]?.getD .success
  playEntry loop entry
  Act.modify fun w => w.addLog label (.endRun w.now (w.stopRequested loop))
  pure (match entry.failure with | some f => .error f | none => .ok ())

/-- One pass of a job. -/
def runJob (loop : Nat) : Job → Act World (Except Failure Unit)
  | .informer scope handler cache =>
    .ofProgram (answerWatch loop cache) (informerPass scope handler)
  | .sweep cache => .ofProgram (answerWatch loop cache) FleetControl.sweep
  | .scripted label script _ => playRun loop label script
  | .bare => .done (.ok ())

/-- The stop function of a job. -/
def stopJob (loop : Nat) : Job → Act World (Except Failure Unit)
  | .scripted label _ (some entry) => do
    Act.modify fun w => w.addLog label (.stop w.now)
    playEntry loop entry
    pure (.ok ())
  | _ => .done (.ok ())

end FleetControl.Simulation
