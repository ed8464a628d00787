import FleetControl.Proofs.Reconcile.Folding
import FleetControl.Proofs.Scheduler.Course

/-!
# The calls of a plan

The exchanges of a plan are those of its trials, one after the other. A trial never begins with a
call, so every call of a plan was sent in one of its trials, and what became of that call is what came
of the trial.

* `Applied.Courses` — the exchanges of trials, trial by trial;
* `Applied.Plans.courses` — so are the exchanges of a plan;
* `Applied.Courses.of_sent` — the trial in which a call was sent;
* `Applied.Courses.course` — how a trial went;
* `Host.trial_of_sent_manifest` — a call of a pass over a manifest was sent in a trial of its plan.
-/

namespace FleetControl

open Control (Calm Opens Sent)
open Simulation (Backend)

namespace Applied

/-- The exchanges of trials, each of which starts from what a working copy knows about its
pipeline. -/
inductive Courses (deadline : Span) (w : String) (start : Applied) :
    List Trial → List Exchange → Prop
  | nil : Courses deadline w start [] []
  | cons {t : Trial} {rest : List Trial} {log more : List Exchange}
      (course : Scheduler.Course deadline t.planned.action w t.pipeline t.spec
        (start.statusFor t.planned) log t.result)
      (others : Courses deadline w start rest more) :
      Courses deadline w start (t :: rest) (log ++ more)

namespace Courses

variable {deadline : Span} {w : String} {start : Applied} {trials : List Trial}
variable {log : List Exchange}

theorem opens (h : Courses deadline w start trials log) : Opens log := by
  induction h with
  | nil => exact Control.Calm.nil.opens
  | cons course _ ih => exact course.opens.append ih

/-- **A call of a plan was sent in one of its trials.** -/
theorem of_sent (h : Courses deadline w start trials log) {agent : String}
    {action : PipelineAction} {request : PipelineRequest}
    {reply : Option (Except AgentError PipelineReport)}
    (hsent : Sent log agent action request reply) :
    ∃ t ∈ trials, ∃ own, Scheduler.Course deadline t.planned.action w t.pipeline t.spec
      (start.statusFor t.planned) own t.result ∧ Sent own agent action request reply := by
  induction h with
  | nil => exact absurd hsent Control.Calm.nil.not_sent
  | @cons t rest own more course others ih =>
      rcases (Control.sent_append_iff others.opens).1 hsent with hown | hlater
      · exact ⟨t, List.mem_cons_self, own, course, hown⟩
      · obtain ⟨t', ht', hcourse⟩ := ih hlater
        exact ⟨t', List.mem_cons_of_mem _ ht', hcourse⟩

/-- **How a trial went** is part of the exchanges of the plan. -/
theorem course (h : Courses deadline w start trials log) {t : Trial} (ht : t ∈ trials) :
    ∃ own, own <:+: log ∧ Scheduler.Course deadline t.planned.action w t.pipeline t.spec
      (start.statusFor t.planned) own t.result := by
  induction h with
  | nil => cases ht
  | @cons t' rest own more course _ ih =>
      rcases List.mem_cons.1 ht with rfl | ht
      · exact ⟨own, (List.prefix_append _ _).isInfix, course⟩
      · obtain ⟨own', hin, hcourse⟩ := ih ht
        exact ⟨own', hin.trans (List.suffix_append _ _).isInfix, hcourse⟩

end Courses

end Applied

/-! ## The exchanges of a plan -/

section

variable {τ : Type} (answer : (r : Request) → τ → r.Reply × τ) (deadline : Span) (w : String)
variable (desired : WorkflowSpec)

/-- The exchanges of one action are those of its call. -/
theorem Applied.exchanges_apply (planned : PlannedAction) (a : Applied) (x : τ) :
    (a.apply deadline w desired planned).exchanges (Program.always answer) x =
      match a.specFor desired planned with
      | none => []
      | some spec => (Scheduler.dispatch deadline planned.action w planned.pipeline spec
          (a.statusFor planned)).exchanges (Program.always answer) x := by
  unfold Applied.apply
  cases a.specFor desired planned with
  | none => rfl
  | some spec =>
      simp only
      rw [Program.exchanges_bind_always]
      exact List.append_nil _

/-- The exchanges of a list of actions are those of the first and then those of the others. -/
theorem Attempt.exchanges_all_cons (planned : PlannedAction) (rest : List PlannedAction)
    (a : Applied) (x : τ) :
    (all deadline w desired (planned :: rest) a).exchanges (Program.always answer) x =
      (a.apply deadline w desired planned).exchanges (Program.always answer) x ++
        let r := (a.apply deadline w desired planned).run answer x
        (all deadline w desired rest r.1.2).exchanges (Program.always answer) r.2 := by
  rw [all, Program.exchanges_bind_always, Program.exchanges_bind_always]
  exact congrArg _ (List.append_nil _)

/-- Carrying out a plan exchanges what its trials exchange: from any working copy that knows the same
about their pipelines, as long as these are different ones and each action has a spec to send. -/
theorem Attempt.courses_all {start : Applied} {actions : List PlannedAction}
    (hdistinct : (actions.map (·.pipeline)).Nodup)
    (hspec : ∀ planned ∈ actions, (start.specFor desired planned).isSome = true) {a : Applied}
    (hsame : ∀ planned ∈ actions, a.slot planned.pipeline = start.slot planned.pipeline) (x : τ) :
    start.Courses deadline w (start.trials answer deadline w desired actions x).1
      ((all deadline w desired actions a).exchanges (Program.always answer) x) := by
  induction actions generalizing a x with
  | nil => exact .nil
  | cons planned rest ih =>
      obtain ⟨hfresh, hrest⟩ := List.nodup_cons.1 hdistinct
      obtain ⟨hown, hlater⟩ := List.forall_mem_cons.1 hsame
      obtain ⟨spec, hsent⟩ := Option.isSome_iff_exists.1 (hspec planned List.mem_cons_self)
      rw [exchanges_all_cons, Applied.exchanges_apply, Applied.run_apply,
        Applied.specFor_congr desired hown, Applied.statusFor_congr hown, hsent]
      simp only [Applied.trials, hsent, Option.getD_some]
      exact .cons (Scheduler.course_dispatch answer deadline w planned.pipeline spec x)
        (ih hrest (fun other hother => hspec other (List.mem_cons_of_mem _ hother))
          (Applied.slot_fold_others hfresh hlater spec _) _)

/-- **The exchanges of a plan** are those of its trials. -/
theorem Applied.Plans.courses {start : Applied} {plan : List PlannedAction}
    (h : start.Plans desired plan) (x : τ) :
    start.Courses deadline w (start.trials answer deadline w desired plan x).1
      ((Attempt.all deadline w desired plan start).exchanges (Program.always answer) x) :=
  Attempt.courses_all answer deadline w desired h.distinct
    (fun planned hplanned => specFor_of_needs (h.needed planned hplanned)) (fun _ _ => rfl) x

end

/-! ## The calls of a pass -/

namespace Host

variable {τ : Type} (agents : AgentSide τ) (deadline : Span) (s : Host τ)

/-- Reading a document calls nobody. -/
theorem calm_loadStatus (w : String) : Calm ((loadStatus w).exchanges (answer agents) s) := by
  refine Control.calm_of_only ?_ _ s
  rw [loadStatus_eq]
  exact .bind (.request rfl) fun reply => .pure _

/-- Writing a document calls nobody. -/
theorem calm_saveStatus (a : Applied) : Calm ((saveStatus a).exchanges (answer agents) s) := by
  refine Control.calm_of_only (.bind (.request rfl) fun now => .bind (.request rfl) fun reply => ?_) _ s
  cases reply <;> exact .pure _

/-- Deleting a document calls nobody. -/
theorem calm_deleteStatus (w : String) : Calm ((deleteStatus w).exchanges (answer agents) s) := by
  refine Control.calm_of_only (.bind (.request rfl) fun reply => ?_) _ s
  cases reply <;> exact .pure _

/-- What a plan exchanges at a host. -/
theorem courses_plan {desired : WorkflowSpec} {start : Applied} {plan : List PlannedAction}
    (h : start.Plans desired plan) (w : String) :
    start.Courses deadline w (start.trials agents.answer deadline w desired plan s.side).1
      ((Attempt.all deadline w desired plan start).exchanges (answer agents) s) := by
  rw [exchanges_remote agents (Control.Remote.all _ _ _ _ _) s]
  exact h.courses agents.answer deadline w desired s.side

/-- Once the document has been read, a pass over a manifest exchanges what its plan exchanges, and
calls nobody after that. -/
theorem exchanges_reconcileWorkflow {desired : WorkflowSpec} (previous : Option WorkflowStatus)
    {start : Applied} (hstart : Applied.ofStatus? desired.name previous = start)
    (sound : start.Sound) :
    ∃ log after, start.Courses deadline desired.name (start.trials agents.answer deadline desired.name
        desired (manifestActions desired start) s.side).1 log ∧ Calm after ∧
      (reconcileWorkflow deadline desired previous).exchanges (answer agents) s = log ++ after := by
  rw [reconcileWorkflow_eq, hstart]
  obtain ⟨after, hafter, hsplit⟩ := Control.exchanges_bind_calm (answer agents) (s := s)
    (Attempt.all deadline desired.name desired (manifestActions desired start) start)
    (f := fun attempt => if attempt.quiet desired previous then
        pure (.ok (attempt.report desired.name false))
      else saveStatus (attempt.settled desired) >>= fun written =>
        pure (written.map fun _ => attempt.report desired.name true)) fun attempt s' => by
      split
      · exact .nil
      · rw [Program.exchanges_bind_pure]
        exact calm_saveStatus agents s' _
  exact ⟨_, after, courses_plan agents deadline s (Applied.plans_manifest sound.apart desired) _,
    hafter, hsplit⟩

variable {s}
variable {w agent : String} {action : PipelineAction} {request : PipelineRequest}
variable {reply : Option (Except AgentError PipelineReport)}

/-- **A call of a pass over a manifest was sent in a trial of its plan.** -/
theorem trial_of_sent_manifest (readable : s.Readable w) {key : String} {data : Bytes}
    {desired : WorkflowSpec} (name : workflowName? key = some w)
    (valid : WorkflowSpec.ofManifest w data = .ok desired)
    (hsent : Sent ((reconcileManifest deadline key data).exchanges (answer agents) s) agent action
      request reply) :
    let start := s.start w
    ∃ t ∈ (start.trials agents.answer deadline w desired (manifestActions desired start) s.side).1,
      ∃ log, Scheduler.Course deadline t.planned.action w t.pipeline t.spec
        (start.statusFor t.planned) log t.result ∧ Sent log agent action request reply := by
  intro start
  obtain rfl := WorkflowSpec.name_of_manifest valid
  obtain ⟨loaded, b, hload, hread, -, -⟩ := readable.loads agents
  have hcalm := calm_loadStatus agents s desired.name
  unfold reconcileManifest at hsent
  simp only [name, valid] at hsent
  rw [Program.exchanges_bind, hload] at hsent
  rcases hread with ⟨rfl, -⟩ | rfl
  · exact absurd hsent (hcalm.append .nil).not_sent
  · have hside : ({ s.tick with store := b } : Host τ).side = s.side := tick_side s
    obtain ⟨log, after, hcourses, hafter, hsplit⟩ := exchanges_reconcileWorkflow agents deadline
      { s.tick with store := b } (s.document desired.name) rfl
      (s.sound_start desired.name).1
    rw [hside] at hcourses
    simp only [hsplit] at hsent
    exact hcourses.of_sent ((Control.sent_amid_iff hcalm hcourses.opens hafter).1 hsent)

end Host

end FleetControl
