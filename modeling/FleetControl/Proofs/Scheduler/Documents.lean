import FleetControl.Proofs.Asked
import FleetControl.Proofs.Reconcile.Attempt
import FleetControl.Proofs.Workflow.Fingerprint

/-!
# What agents are told about pipelines

An agent knows a pipeline by the document in the calls about it, which is the fingerprint of the
pipeline; and whether a change needs a call at all is told by comparing fingerprints. Nothing may get
lost on this way: two pipelines with one fingerprint would be one pipeline for the planner, and a
document that does not read back would be another pipeline for the agent.

* `Request.About` — requests about agents and placement, and calls that pass one document on;
* `Scheduler.only_about_dispatch` — an action asks nothing else, whatever the replies;
* `Request.Conveys` — an agent that gets the call can read the pipeline from it;
* `PipelineSpec.fingerprint_faithful` — fingerprints read back, agents get them, and pipelines differ
  exactly when they are not equal.
-/

namespace FleetControl

/-! ## What an action asks -/

/-- A request about agents or placement, or a call that passes a document on. -/
def Request.About (document : PipelineRequest) : Request → Prop
  | .agents | .connect _ | .place _ _ => True
  | .call _ _ _ sent => sent = document
  | _ => False

namespace Scheduler

variable (deadline : Span) (w p : String) (spec : PipelineSpec) (status : PipelineStatus)
variable (document : PipelineRequest)

theorem only_about_placeAnew : (placeAnew w p spec).Only (Request.About document) := by
  refine .bind (.request trivial) fun candidates => .bind (.request trivial) fun choice => ?_
  cases choice with
  | none => exact .pure _
  | some agent =>
      refine .bind (.request trivial) fun found => ?_
      cases found <;> exact .pure _

theorem only_about_chooseAgent : (chooseAgent w p spec status).Only (Request.About document) := by
  rw [chooseAgent_eq]
  cases status.executor with
  | none => exact only_about_placeAnew w p spec document
  | some agent =>
      refine .bind (.request trivial) fun found => ?_
      cases found with
      | none => exact only_about_placeAnew w p spec document
      | some connection => exact .pure _

theorem only_about_schedule :
    (schedule deadline w p spec status).Only (Request.About (request w p spec)) := by
  rw [schedule_eq]
  refine .bind (only_about_chooseAgent w p spec status _) fun chosen => ?_
  cases chosen with
  | error e => exact .pure _
  | ok found => exact .bind (.request rfl) fun reply => .pure _

theorem only_about_callExecutor (action : PipelineAction) (agent : String) :
    (callExecutor deadline action w p spec status agent).Only
      (Request.About (request w p spec)) := by
  rw [callExecutor_eq]
  refine .bind (.request trivial) fun found => ?_
  cases found with
  | none => exact .pure _
  | some connection => exact .bind (.request rfl) fun reply => .pure _

/-- **An action** asks about agents and placement, and calls with the document of its pipeline. -/
theorem only_about_dispatch (action : PipelineAction) :
    (dispatch deadline action w p spec status).Only (Request.About (request w p spec)) := by
  cases action with
  | schedule => exact only_about_schedule deadline w p spec status
  | update =>
      simp only [dispatch, update]
      split
      · exact only_about_callExecutor deadline w p spec status .update _
      · exact only_about_schedule deadline w p spec status
  | remove =>
      simp only [dispatch, remove]
      split
      · exact only_about_callExecutor deadline w p spec status .remove _
      · exact .pure _

end Scheduler

/-! ## What an agent reads -/

/-- A call that an agent gets is about a pipeline, and the pipeline reads back from its document. -/
def Request.Conveys (w p : String) (spec : PipelineSpec) : Request → Prop
  | .call _ _ _ sent =>
    sent.workflow = w ∧ sent.pipeline = p ∧ PipelineSpec.read.run sent.spec = some spec
  | _ => True

theorem Request.About.conveys {w p : String} {spec : PipelineSpec} {r : Request}
    (h : r.About (Scheduler.request w p spec)) : r.Conveys w p spec := by
  cases r with
  | call connection deadline action sent =>
      obtain rfl : sent = Scheduler.request w p spec := h
      exact ⟨rfl, rfl, PipelineSpec.read_fingerprint spec⟩
  | _ => trivial

/-- **The fingerprint of a pipeline is faithful.** The pipeline reads back from it; it is what every
call of every action passes on, whatever the directory, placement and the agents reply; and two
pipelines differ exactly when they are not equal. -/
theorem PipelineSpec.fingerprint_faithful :
    (∀ spec : PipelineSpec, PipelineSpec.read.run spec.fingerprint = some spec) ∧
    (∀ (deadline : Span) (action : PipelineAction) (w p : String) (spec : PipelineSpec)
      (status : PipelineStatus),
      (Scheduler.dispatch deadline action w p spec status).Only (Request.Conveys w p spec)) ∧
    ∀ a b : PipelineSpec, a.differsFrom b = false ↔ a = b := by
  refine ⟨PipelineSpec.read_fingerprint, ?_, PipelineSpec.differsFrom_eq_false_iff⟩
  intro deadline action w p spec status
  exact (Scheduler.only_about_dispatch deadline w p spec status action).mono fun r h => h.conveys

end FleetControl
