import FleetControl.Proofs.Fleet.Drift

/-!
# What documents claim when every call is heard of

Agents may refuse calls, but they answer in time. Then the reconciler knows what became of every
call: what it keeps as applied is what the executor on record was told last, and a call that was
refused has changed nothing. So no document claims what agents do not hold.

* `Fleet.Punctual` — no call runs into its deadline;
* `Fleet.Punctual.answer`, `Site.after_punctual` — no request and no call of the reconciler changes
  that;
* `Site.claims_are_held` — what a document claims is held by the executor on record.
-/

namespace FleetControl

/-- The deadline does not pass. -/
def Fate.InTime (fate : Fate) : Prop := fate = .refused ∨ fate = .answered

/-- A call that is carried out in time is heard of. -/
theorem Fate.InTime.heard {fate : Fate} (h : fate.InTime) {heard : Bool}
    (hheard : fate.heard? = some heard) : heard = true := by
  rcases h with rfl | rfl
  · cases hheard
  · exact (Option.some.inj hheard).symm

namespace Fleet

/-- No call ran into its deadline, and none will. -/
structure Punctual (x : Fleet) : Prop where
  fates : ∀ fate ∈ x.fates, fate.InTime
  heard : ∀ deed ∈ x.deeds, deed.heard = true

/-- A call to a punctual agent is heard of if it is carried out. -/
theorem Punctual.call {x : Fleet} (h : x.Punctual) (id : Nat) (action : PipelineAction)
    (request : PipelineRequest) : (x.call id action request).2.Punctual := by
  have hnext : (x.fates.headD .answered).InTime := by
    cases hfates : x.fates with
    | nil => exact .inr rfl
    | cons fate rest => exact h.fates fate (by simp [hfates])
  unfold Fleet.call
  split
  · exact h
  · refine ⟨fun fate hfate => h.fates fate (List.mem_of_mem_tail hfate), ?_⟩
    intro deed hdeed
    rcases List.mem_append.1 hdeed with hnew | hold
    · obtain ⟨heard, hheard, rfl⟩ := Option.map_eq_some_iff.1 (Option.mem_toList.1 hnew)
      exact hnext.heard hheard
    · exact h.heard deed hold

/-- A punctual fleet stays punctual, whatever it is asked. -/
theorem Punctual.answer {x : Fleet} (r : Request) (h : x.Punctual) :
    (side.answer r x).2.Punctual := by
  cases r with
  | call connection deadline action request => exact h.call connection.agent action request
  | place spec candidates => exact ⟨h.fates, h.heard⟩
  | _ => exact h

/-- The last call about a pipeline of a punctual fleet was heard of. -/
theorem Punctual.last {x : Fleet} (h : x.Punctual) {w p : String} {deed : Deed}
    (hlast : x.last w p = some deed) : deed.heard = true :=
  h.heard deed (List.mem_of_find?_eq_some hlast)

/-- Fleets whose calls are refused or answered. -/
theorem punctual_ofNames (names : List String) {fates : List Fate}
    (h : ∀ fate ∈ fates, fate.InTime) (choices : List (Option String)) :
    (ofNames names fates choices).Punctual :=
  ⟨h, fun _ hdeed => absurd hdeed (List.not_mem_nil)⟩

end Fleet

namespace Site

/-- Calls of the reconciler leave a punctual fleet punctual. -/
theorem after_punctual {s : Site Fleet} (h : s.side.Punctual) (deadline : Span)
    (calls : List Call) : (s.after deadline calls).side.Punctual := by
  induction calls generalizing s with
  | nil => exact h
  | cons call rest ih =>
      exact ih (exec_keeps_side Fleet.side (fun r _ => Fleet.Punctual.answer r)
        (call.program deadline) h)

/-- **No document claims what agents do not hold.** If agents refuse calls or answer them in time,
then after any calls of the reconciler every live entry under the status key of a workflow is a
document of that workflow, and each pipeline of its last-applied spec has an executor on record, which
runs the pipeline with the triggers, tasks and selector that are recorded. -/
theorem claims_are_held {s : Site Fleet} (fresh : s.Fresh) (punctual : s.side.Punctual)
    (deadline : Span) (calls : List Call) {w : String} {t : Moment} {e : Entry}
    (live : (s.after deadline calls).store.live? t (statusKey w) = some e) :
    ∃ doc, WorkflowStatus.decode? e.data = some doc ∧ doc.name = w ∧
      ∀ p spec, doc.spec.pipelines.get? p = some spec →
        ∃ status executor, doc.pipelines.get? p = some status ∧
          status.executor = some executor ∧
          (s.after deadline calls).side.Runs executor w p spec := by
  have h := fresh.accounted.after deadline calls
  have hpunctual := after_punctual punctual deadline calls
  obtain ⟨doc, hdecoded⟩ := h.readable w t e live
  have hdoc : (s.after deadline calls).document w = some doc := by
    rw [document, (h.lasting w).live?_eq _ t, live, Option.bind_some, hdecoded]
  refine ⟨doc, hdecoded, h.own w doc hdoc, fun p spec hspec => ?_⟩
  obtain ⟨status, executor, deed, hstatus, hexecutor, hlast, hheld, hleaves⟩ :=
    h.claimed hdoc hspec
  refine ⟨status, executor, hstatus, hexecutor, ?_⟩
  exact (Fleet.runs_iff_leaves hheld spec).2 (hleaves (.inl (hpunctual.last hlast)))

/-- After a refused update the document still claims what the agent still runs. -/
theorem claim_held_after_refused_update :
    let manifest := fun image : String => WorkflowSpec.ofPipelines "wf1"
      [("a", ⟨[.manual], [⟨"run", image, [], .empty⟩], .empty, []⟩)]
    let s := start (Fleet.ofNames ["agent-a"] [.answered, .refused] [some "agent-a"])
    let calls := [Call.manifest "workflows/wf1" (manifest "x").encode,
      Call.manifest "workflows/wf1" (manifest "y").encode]
    ∃ executor, (s.after .zero calls).side.Runs executor "wf1" "a"
      ⟨[.manual], [⟨"run", "x", [], .empty⟩], .empty, []⟩ := by
  intro manifest s calls
  have fresh : s.Fresh := fresh_start (by simp) _ _
  have punctual : s.side.Punctual :=
    Fleet.punctual_ofNames _ (by simp [Fate.InTime]) _
  have hclaimed : (((s.after .zero calls).store.live? s.now (statusKey "wf1")).bind fun e =>
      (WorkflowStatus.decode? e.data).bind fun doc => doc.spec.pipelines.get? "a") =
        some ⟨[.manual], [⟨"run", "x", [], .empty⟩], .empty, []⟩ := by
    decide +kernel
  obtain ⟨e, live, hdoc⟩ := Option.bind_eq_some_iff.1 hclaimed
  obtain ⟨doc, hdecoded, -, hheld⟩ := claims_are_held fresh punctual .zero calls live
  rw [hdecoded, Option.bind_some] at hdoc
  obtain ⟨-, executor, -, -, hruns⟩ := hheld "a" _ hdoc
  exact ⟨executor, hruns⟩

end Site

end FleetControl
