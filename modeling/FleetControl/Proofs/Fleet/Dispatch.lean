import FleetControl.Proofs.Fleet.Basic
import FleetControl.Proofs.Reconcile.Attempt

/-!
# Actions on a fleet

An action is at most one call to at most one agent, and the status that is kept afterwards names that
agent wherever the call may have been carried out. An update or a removal goes to the executor on
record. A schedule goes to the executor on record, too, as long as the directory knows it, so a
pipeline that was sent out without an answer goes back to where it may already be.

* `Fleet.Scheduled` and `Fleet.scheduled` — what comes of a schedule;
* `Fleet.Consulted` and `Fleet.consulted` — what comes of a call to the executor.
-/

namespace FleetControl.Fleet

/-- Placement leaves every agent alone. -/
theorem idle_choices (x : Fleet) (choices : List (Option String)) :
    Idle x { x with choices } := ⟨rfl, fun _ _ _ => rfl, rfl⟩

/-! ## Choosing an agent -/

/-- The agent that was chosen is in the directory, and it is the one on record if the directory knows
that. -/
structure Chosen (x : Fleet) (status : PipelineStatus) (name : String) (connection : Connection) :
    Prop where
  registered : ∃ r, x.directory.get? name = some r ∧ connection.agent = r.agent
  returns : ∀ earlier, status.executor = some earlier → x.directory.contains earlier = true →
    name = earlier

theorem run_placeAnew (w p : String) (spec : PipelineSpec) (x : Fleet) :
    (∃ e, ((Scheduler.placeAnew w p spec).run side.answer x).1 = .error e) ∧
        Idle x ((Scheduler.placeAnew w p spec).run side.answer x).2 ∨
      ∃ name connection choices r,
        (Scheduler.placeAnew w p spec).run side.answer x =
          (.ok (name, connection), { x with choices }) ∧
        x.directory.get? name = some r ∧ connection.agent = r.agent := by
  rw [Scheduler.run_placeAnew]
  simp only [side, answer]
  cases x.choices.headD none with
  | none => exact .inl ⟨⟨_, rfl⟩, idle_choices x _⟩
  | some name =>
      simp only
      cases hr : x.directory.get? name with
      | none => exact .inl ⟨⟨_, rfl⟩, idle_choices x _⟩
      | some r => exact .inr ⟨name, ⟨r.agent⟩, _, r, rfl, hr, rfl⟩

/-- **Choosing an agent** calls nobody. -/
theorem chosen (w p : String) (spec : PipelineSpec) (status : PipelineStatus) (x : Fleet) :
    (∃ e, ((Scheduler.chooseAgent w p spec status).run side.answer x).1 = .error e) ∧
        Idle x ((Scheduler.chooseAgent w p spec status).run side.answer x).2 ∨
      ∃ name connection choices,
        (Scheduler.chooseAgent w p spec status).run side.answer x =
          (.ok (name, connection), { x with choices }) ∧ Chosen x status name connection := by
  rw [Scheduler.run_chooseAgent]
  -- Placement is asked only if nobody on record can be reached.
  have hanew : (∀ earlier, status.executor = some earlier →
      x.directory.contains earlier = false) →
      ((∃ e, ((Scheduler.placeAnew w p spec).run side.answer x).1 = .error e) ∧
          Idle x ((Scheduler.placeAnew w p spec).run side.answer x).2 ∨
        ∃ name connection choices,
          (Scheduler.placeAnew w p spec).run side.answer x =
            (.ok (name, connection), { x with choices }) ∧ Chosen x status name connection) := by
    intro hunknown
    rcases run_placeAnew w p spec x with hfailed | ⟨name, connection, choices, r, hrun, hr, hid⟩
    · exact .inl hfailed
    · refine .inr ⟨name, connection, choices, hrun, ⟨r, hr, hid⟩, ?_⟩
      intro earlier hearlier hknown
      rw [hunknown earlier hearlier] at hknown
      cases hknown
  cases hexecutor : status.executor with
  | none =>
      apply hanew
      intro earlier hearlier
      rw [hexecutor] at hearlier
      cases hearlier
  | some agent =>
      simp only [side, answer]
      cases hr : x.directory.get? agent with
      | none =>
          apply hanew
          intro earlier hearlier
          rw [hexecutor] at hearlier
          obtain rfl := Option.some.inj hearlier
          exact (KeyMap.contains_eq_false_iff _ _).2 hr
      | some r =>
          refine .inr ⟨agent, ⟨r.agent⟩, x.choices, rfl, ⟨r, hr, rfl⟩, ?_⟩
          intro earlier hearlier _
          rw [hexecutor] at hearlier
          exact Option.some.inj hearlier

/-! ## Scheduling -/

/-- What comes of a schedule: the outcome, the status that is kept, and the fleet. -/
inductive Scheduled (x : Fleet) (w p : String) (spec : PipelineSpec) (status : PipelineStatus) :
    Scheduler.Result → Fleet → Prop where
  | refused {x' : Fleet} {e : AgentError} (h : Idle x x') :
      Scheduled x w p spec status (.error e, status) x'
  | lost {x' : Fleet} {e : AgentError} {name : String}
      (known : x.directory.contains name = true)
      (returns : ∀ earlier, status.executor = some earlier →
        x.directory.contains earlier = true → name = earlier)
      (h : Idle x x') : Scheduled x w p spec status (.error e, status.attempted name) x'
  | unheard {x' : Fleet} {e : AgentError} {name : String}
      (known : x.directory.contains name = true)
      (returns : ∀ earlier, status.executor = some earlier →
        x.directory.contains earlier = true → name = earlier)
      (h : Did x x' name ⟨false, .schedule, Scheduler.request w p spec⟩) :
      Scheduled x w p spec status (.error e, status.attempted name) x'
  | answered {x' : Fleet} {report : PipelineReport} {name : String}
      (known : x.directory.contains name = true)
      (returns : ∀ earlier, status.executor = some earlier →
        x.directory.contains earlier = true → name = earlier)
      (executor : (status.overlay report).executor = some name)
      (h : Did x x' name ⟨true, .schedule, Scheduler.request w p spec⟩) :
      Scheduled x w p spec status (.ok (), status.overlay report) x'

/-- The executor that a report names is taken over. -/
theorem executor_overlay {x : Fleet} (hx : x.Honest) {name : String} {r : Simulation.Registration}
    (hr : x.directory.get? name = some r) (status : PipelineStatus) {report : PipelineReport}
    (hreport : report.executor = name) : (status.overlay report).executor = some name := by
  have hne : name.isEmpty = false := by simpa using (hx name r hr).1
  simp [PipelineStatus.overlay, hreport, hne]

/-- What comes of the schedule call to the agent that was chosen. -/
theorem Called.scheduled {x y x' : Fleet} (hx : x.Honest) (hidle : Idle x y)
    {status : PipelineStatus} {name : String} {connection : Connection}
    (hchosen : Chosen x status name connection) {w p : String} {spec : PipelineSpec}
    {reply : Option (Except AgentError PipelineReport)}
    (h : Called y name .schedule (Scheduler.request w p spec) reply x') (deadline : Span) :
    Scheduled x w p spec status
      (Scheduler.placed status name (Scheduler.answered name deadline reply)) x' := by
  obtain ⟨r, hr, -⟩ := hchosen.registered
  have hknown : x.directory.contains name = true := (KeyMap.contains_iff _ _).2 ⟨r, hr⟩
  cases h with
  | lost h => exact .lost hknown hchosen.returns (hidle.trans h)
  | @refused _ e he h =>
      have hplaced : Scheduler.placed status name (.error e) = (.error e, status) := by
        cases e with
        | timeout agent d => exact absurd rfl (he agent d)
        | _ => rfl
      simp only [Scheduler.answered, hplaced]
      exact .refused (hidle.trans h)
  | unheard h => exact .unheard hknown hchosen.returns (hidle.trans_did h)
  | answered hreport h =>
      exact .answered hknown hchosen.returns (executor_overlay hx hr status hreport)
        (hidle.trans_did h)

/-- **What comes of a schedule.** -/
theorem scheduled {x : Fleet} (hx : x.Honest) (deadline : Span) (w p : String)
    (spec : PipelineSpec) (status : PipelineStatus) :
    Scheduled x w p spec status
      ((Scheduler.schedule deadline w p spec status).run side.answer x).1
      ((Scheduler.schedule deadline w p spec status).run side.answer x).2 := by
  rw [Scheduler.run_schedule]
  rcases chosen w p spec status x with ⟨⟨e, herror⟩, hidle⟩ | ⟨name, connection, choices, hrun, hchosen⟩
  · generalize (Scheduler.chooseAgent w p spec status).run side.answer x = chosen at herror hidle ⊢
    obtain ⟨outcome, x'⟩ := chosen
    simp only at herror
    subst herror
    exact .refused hidle
  · rw [hrun]
    obtain ⟨r, hr, hid⟩ := hchosen.registered
    have hcalled := called (x := { x with choices }) hx hr .schedule (Scheduler.request w p spec)
    rw [← hid] at hcalled
    exact hcalled.scheduled hx (idle_choices x choices) hchosen deadline

/-! ## Calling the executor -/

/-- What comes of an update or a removal: the outcome, the status that is kept, and the fleet. -/
inductive Consulted (x : Fleet) (action : PipelineAction) (w p : String) (spec : PipelineSpec)
    (status : PipelineStatus) (name : String) : Scheduler.Result → Fleet → Prop where
  | failed {x' : Fleet} {e : AgentError} (h : Idle x x') :
      Consulted x action w p spec status name (.error e, status) x'
  | unheard {x' : Fleet} {e : AgentError}
      (h : Did x x' name ⟨false, action, Scheduler.request w p spec⟩) :
      Consulted x action w p spec status name (.error e, status) x'
  | answered {x' : Fleet} {report : PipelineReport}
      (executor : (status.overlay report).executor = some name)
      (h : Did x x' name ⟨true, action, Scheduler.request w p spec⟩) :
      Consulted x action w p spec status name (.ok (), status.overlay report) x'

/-- What comes of the call to an executor that was found. -/
theorem Called.consulted {x x' : Fleet} (hx : x.Honest) {name : String}
    {r : Simulation.Registration} (hr : x.directory.get? name = some r) {action : PipelineAction}
    {w p : String} {spec : PipelineSpec} {reply : Option (Except AgentError PipelineReport)}
    (h : Called x name action (Scheduler.request w p spec) reply x') (status : PipelineStatus)
    (deadline : Span) :
    Consulted x action w p spec status name
      (Scheduler.concluded status (Scheduler.answered name deadline reply)) x' := by
  cases h with
  | lost h => exact .failed h
  | refused he h => exact .failed h
  | unheard h => exact .unheard h
  | answered hreport h => exact .answered (executor_overlay hx hr status hreport) h

/-- **What comes of a call to the executor.** -/
theorem consulted {x : Fleet} (hx : x.Honest) (deadline : Span) (action : PipelineAction)
    (w p : String) (spec : PipelineSpec) (status : PipelineStatus) (name : String) :
    Consulted x action w p spec status name
      ((Scheduler.callExecutor deadline action w p spec status name).run side.answer x).1
      ((Scheduler.callExecutor deadline action w p spec status name).run side.answer x).2 := by
  rw [Scheduler.run_callExecutor]
  simp only [side, answer]
  cases hr : x.directory.get? name with
  | none => exact .failed (Idle.refl x)
  | some r =>
      exact (called hx hr action (Scheduler.request w p spec)).consulted hx hr status deadline

/-- Once every call is answered, a call to an executor in the directory succeeds. -/
theorem consulted_of_fates {x : Fleet} (hx : x.Honest) (hcalm : x.fates = []) {name : String}
    (hname : x.directory.contains name = true) (deadline : Span) (action : PipelineAction)
    (w p : String) (spec : PipelineSpec) (status : PipelineStatus) :
    ((Scheduler.callExecutor deadline action w p spec status name).run side.answer x).1.1 =
      .ok () := by
  obtain ⟨r, hr⟩ := (KeyMap.contains_iff _ _).1 hname
  obtain ⟨-, a, ha, -⟩ := hx name r hr
  obtain ⟨report, hreport⟩ := call_of_fates hcalm ha action (Scheduler.request w p spec)
  rw [Scheduler.run_callExecutor]
  simp only [side, answer, hr, Option.map_some, hreport]
  rfl

end FleetControl.Fleet
