import FleetControl.Proofs.Scheduler.Course

/-!
# Who runs a scheduled pipeline

Later updates and removals go to the executor on record. A schedule call that was accepted records the
agent that the report names. A report that names nobody leaves the record as it was, so the agent that
accepted the pipeline is on record only if it was before: otherwise the record has nobody or somebody
else, and an update or a removal passes the agent by that has the pipeline.

* `Scheduler.executor_overlay` — the record after a report;
* `Scheduler.reachable_iff_named` — when the agent that runs a scheduled pipeline is found again;
* `Scheduler.accepted_but_unreachable` — a pipeline that is removed without a word to its agent.
-/

namespace FleetControl

namespace Scheduler

open Control (Sent)

/-- The record after a report: the agent that the report names, if it names one. -/
theorem executor_overlay (status : PipelineStatus) (report : PipelineReport) :
    (status.overlay report).executor =
      if report.executor = "" then status.executor else some report.executor := by
  simp only [PipelineStatus.overlay, String.isEmpty_iff]

/-- The agent that is responsible for a pipeline once it was accepted: the one that the report names,
and else the one that accepted it. -/
def due (agent : String) (report : PipelineReport) : String :=
  if report.executor = "" then agent else report.executor

/-- The responsible agent is on record if the report names it, or if it was on record before. -/
theorem executor_overlay_eq_due_iff (status : PipelineStatus) (agent : String)
    (report : PipelineReport) : (status.overlay report).executor = some (due agent report) ↔
      report.executor ≠ "" ∨ status.executor = some agent := by
  rw [executor_overlay, due]
  by_cases hempty : report.executor = "" <;> simp [hempty]

/-- A schedule succeeds exactly if an agent accepted the call, and then takes its report over. -/
theorem schedule_accepted {τ : Type} (answer : (r : Request) → τ → r.Reply × τ) (deadline : Span)
    (w p : String) (spec : PipelineSpec) (status : PipelineStatus) (x : τ) :
    let scheduled := (schedule deadline w p spec status).run answer x
    let log := (schedule deadline w p spec status).exchanges (Program.always answer) x
    (scheduled.1.1 = .ok () ↔
      ∃ agent report, Sent log agent .schedule (request w p spec) (some (.ok report))) ∧
      ∀ agent report, Sent log agent .schedule (request w p spec) (some (.ok report)) →
        scheduled.1.2 = status.overlay report := by
  intro scheduled log
  have hcourse : Course deadline .schedule w p spec status log scheduled.1 :=
    course_schedule answer deadline w p spec x (.inl rfl)
  constructor
  · rw [hcourse.ok_iff]
    constructor
    · rintro (⟨hact, -⟩ | ⟨agent, sent, report, hsent⟩)
      · cases hact
      · obtain ⟨-, ⟨rfl, -, -⟩ | ⟨-, hact, -⟩⟩ := hcourse.of_sent hsent
        · exact ⟨agent, report, hsent⟩
        · exact absurd rfl hact
    · rintro ⟨agent, report, hsent⟩
      exact .inr ⟨agent, .schedule, report, hsent⟩
  · intro agent report hsent
    obtain ⟨-, ⟨-, -, hresult⟩ | ⟨-, hact, -⟩⟩ := hcourse.of_sent hsent
    · exact congrArg Prod.snd hresult
    · exact absurd rfl hact

/-- **When the agent that runs a scheduled pipeline is found again.** Take any prior status, any
directory and placement, and any replies of agents. A schedule succeeds exactly if an agent accepted
the call. The responsible agent is the one that the report names, and the one that accepted the call
if the report names nobody. It is on record afterwards exactly if the report names an agent or the
record named the agent that accepted the call before, and then, and only then, every later update or
removal with that record goes to it. -/
theorem reachable_iff_named {τ : Type} (answer : (r : Request) → τ → r.Reply × τ)
    (deadline : Span) (w p : String) (spec : PipelineSpec) (status : PipelineStatus) (x : τ) :
    let scheduled := (schedule deadline w p spec status).run answer x
    let log := (schedule deadline w p spec status).exchanges (Program.always answer) x
    (scheduled.1.1 = .ok () ↔
      ∃ agent report, Sent log agent .schedule (request w p spec) (some (.ok report))) ∧
      ∀ agent report, Sent log agent .schedule (request w p spec) (some (.ok report)) →
        (scheduled.1.2.executor = some (due agent report) ↔
          report.executor ≠ "" ∨ status.executor = some agent) ∧
        ∀ {τ' : Type} (answer' : (r : Request) → τ' → r.Reply × τ') (x' : τ') (deadline' : Span)
          (action : PipelineAction) (spec' : PipelineSpec), action ≠ .schedule →
            (Contacts (due agent report) action (request w p spec')
              ((dispatch deadline' action w p spec' scheduled.1.2).exchanges
                (Program.always answer') x') ↔
              report.executor ≠ "" ∨ status.executor = some agent) := by
  intro scheduled log
  obtain ⟨hok, hkept⟩ := schedule_accepted answer deadline w p spec status x
  refine ⟨hok, fun agent report hsent => ?_⟩
  have hrecord : scheduled.1.2.executor = some (due agent report) ↔
      report.executor ≠ "" ∨ status.executor = some agent := by
    rw [hkept agent report hsent]
    exact executor_overlay_eq_due_iff status agent report
  refine ⟨hrecord, fun answer' x' deadline' action spec' hact => ?_⟩
  rw [contacts_iff answer' deadline' hact]
  exact hrecord

/-! ## One agent -/

/-- One agent, which has the same report for every call. -/
def lone (name : String) (report : PipelineReport) : (r : Request) → Unit → r.Reply × Unit
  | .clock, x => (⟨0, false⟩, x)
  | .store _, x => (.error .database, x)
  | .agents, x => ([⟨name, .empty⟩], x)
  | .connect agent, x => (if agent = name then some ⟨0⟩ else none, x)
  | .place .., x => (some name, x)
  | .call .., x => (some (.ok report), x)
  | .health .., x => (none, x)

/-- An agent that names itself in its report gets the removal. -/
theorem named_agent_reachable :
    let report : PipelineReport := ⟨"agent-a", "running", none⟩
    let answer := lone "agent-a" report
    let scheduled := (schedule .zero "wf1" "p1" .empty .empty).run answer ()
    scheduled.1.1 = .ok () ∧
      Contacts "agent-a" .remove (request "wf1" "p1" .empty)
        ((dispatch .zero .remove "wf1" "p1" .empty scheduled.1.2).exchanges
          (Program.always answer) ()) := by
  intro report answer scheduled
  obtain ⟨hok, hreachable⟩ := reachable_iff_named answer .zero "wf1" "p1" .empty .empty ()
  have hsent : Sent ((schedule .zero "wf1" "p1" .empty .empty).exchanges (Program.always answer) ())
      "agent-a" .schedule (request "wf1" "p1" .empty) (some (.ok report)) :=
    ⟨⟨0⟩, .zero, [_, _], [], rfl⟩
  refine ⟨hok.2 ⟨_, _, hsent⟩, ?_⟩
  exact ((hreachable _ _ hsent).2 answer () .zero .remove .empty (by decide)).2 (.inl (by decide))

/-- **A pipeline that is removed without a word to its agent**: the agent accepts the schedule call
with a report that names nobody, so nobody is on record, and the removal asks nothing and succeeds. -/
theorem accepted_but_unreachable :
    let report : PipelineReport := ⟨"", "running", none⟩
    let answer := lone "agent-a" report
    let scheduled := (schedule .zero "wf1" "p1" .empty .empty).run answer ()
    Sent ((schedule .zero "wf1" "p1" .empty .empty).exchanges (Program.always answer) ())
        "agent-a" .schedule (request "wf1" "p1" .empty) (some (.ok report)) ∧
      scheduled.1 = (.ok (), ⟨none, "running", none⟩) ∧
      (remove .zero "wf1" "p1" .empty scheduled.1.2).exchanges (Program.always answer) () = [] ∧
      ((remove .zero "wf1" "p1" .empty scheduled.1.2).run answer ()).1.1 = .ok () :=
  ⟨⟨⟨0⟩, .zero, [_, _], [], rfl⟩, rfl, rfl, rfl⟩

end Scheduler

end FleetControl
