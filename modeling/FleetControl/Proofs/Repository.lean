import FleetControl.Proofs.Fleet.Basic
import FleetControl.Proofs.Store.Outcomes
import FleetControl.Proofs.Workflow.Manifest
import FleetControl.Repository

/-!
# The repository of workflows

What a client hands in is what is read back. A workflow that is not valid is not stored. The manifest of
a valid one is stored without its derived lists; it is live from then on and reads back, at every later
instant, as the resolved workflow, as long as nobody touches its key. Listing the workflows finds it, too,
if listing comes to an end at all: it compares the dates of all manifests, and it is aborted if the grace
of any deleted one ends beyond the last date.

* `Repository.exec_submit_of_invalid`, `Repository.exec_submit_of_valid` — handing in a workflow;
* `Repository.exec_get_of_stored` — reading back a manifest that is in place;
* `Repository.exec_names_iff` — when the names of the workflows are listed;
* `Repository.submitted_workflow` — a workflow that was handed in is read back and listed.
-/

namespace FleetControl

open Simulation (Backend)

namespace Repository

variable {τ : Type}

/-- A workflow that is not valid leaves everything as it is. -/
theorem exec_submit_of_invalid (agents : AgentSide τ) {w : WorkflowSpec} {e : ValidationError}
    (h : w.validate = .error e) (s : Host τ) :
    (submit w).exec (Host.answer agents) s = (some (.error (.invalid e)), s) := by
  unfold submit
  rw [h]
  rfl

/-- Handing in a valid workflow is writing its manifest. -/
theorem exec_submit_of_valid (agents : AgentSide τ) {w : WorkflowSpec} (h : w.validate = .ok ())
    (s : Host τ) :
    (submit w).exec (Host.answer agents) s =
      match s.tick.stored
        (s.store.apply s.tick.now (.set (workflowKey w.name) w.underived.encode)) with
      | (some stored, s') => (some (stored.mapError .store), s')
      | (none, s') => (none, s') := by
  unfold submit
  simp only [h, Program.exec_bind, Host.exec_set]
  generalize s.tick.stored _ = result
  obtain ⟨_ | stored, s'⟩ := result <;> rfl

/-- **A workflow that was handed in** is valid, and its manifest is in place. -/
theorem stored_of_submit (agents : AgentSide τ) {w : WorkflowSpec} {s s' : Host τ} {version : Nat}
    (h : (submit w).exec (Host.answer agents) s = (some (.ok version), s')) :
    w.validate = .ok () ∧
      s'.store.entry? (workflowKey w.name) = some ⟨w.underived.encode, version, none, none⟩ := by
  cases hvalid : w.validate with
  | error e =>
      rw [exec_submit_of_invalid agents hvalid] at h
      cases h
  | ok u =>
      rw [exec_submit_of_valid agents hvalid] at h
      cases hset : s.store.apply s.tick.now (.set (workflowKey w.name) w.underived.encode) with
      | mk outcome b =>
          rw [hset] at h
          cases outcome with
          | answer version' =>
              cases h
              exact ⟨rfl, Backend.set_answer hset⟩
          | refused e => cases h
          | undatable => cases h

/-- **A manifest that is in place** is read back as the workflow that it stands for. -/
theorem exec_get_of_stored (agents : AgentSide τ) {name : String} {e : Entry} {w : WorkflowSpec}
    {s : Host τ} (hentry : s.store.entry? (workflowKey name) = some e) (he : e.Lasting)
    (hmanifest : WorkflowSpec.ofManifest name e.data = .ok w) :
    (get name).exec (Host.answer agents) s = (some (.ok w), s.tick) := by
  have hstore : ({ s.tick with store := s.store } : Host τ) = s.tick := by
    rw [← Host.tick_store s]
  unfold get
  rw [Program.exec_bind, Host.exec_get, Backend.get_of_lasting hentry he]
  simp only [Host.stored, hstore, Entry.snapshot, hmanifest]
  rfl

/-- **The names of the workflows are listed** if the dates of all manifests exist. A live manifest is
among them. -/
theorem exec_names_iff (agents : AgentSide τ) {name : String} {e : Entry} {s : Host τ}
    (hname : name ≠ "") (hentry : s.store.entry? (workflowKey name) = some e) (he : e.Lasting) :
    (∃ listed s', names.exec (Host.answer agents) s = (some (.ok listed), s') ∧ name ∈ listed) ↔
      ∀ key, under workflowScope key = true → s.store.DatableAt s.tick.now key := by
  have hscans : s.store.scans workflowScope = true := by
    cases s.store with
    | memory m => rfl
    | table t => exact (by decide : (!workflowScope.toList.contains (Char.ofNat 0)) = true)
  have hends : (∃ found : List Snapshot,
      (s.store.apply s.tick.now (.list workflowScope)).1 = .answer found) ↔
      ∀ key, under workflowScope key = true → s.store.DatableAt s.tick.now key :=
    (s.store.list_answers_iff s.tick.now workflowScope).trans
      ⟨fun h => h hscans, fun h _ => h⟩
  rw [← hends]
  unfold names
  rw [Program.exec_bind, Host.exec_list]
  constructor
  · rintro ⟨listed, s', hlisted, -⟩
    cases hlist : s.store.apply s.tick.now (.list workflowScope) with
    | mk outcome b =>
        rw [hlist] at hlisted
        cases outcome with
        | answer found => exact ⟨found, rfl⟩
        | refused e => cases hlisted
        | undatable => cases hlisted
  · rintro ⟨found, hfound⟩
    have hlist : s.store.apply s.tick.now (.list workflowScope) =
        (.answer found, (s.store.apply s.tick.now (.list workflowScope)).2) := Prod.ext hfound rfl
    -- The manifest is among what the scan shows, and it is live.
    have hmem : e.snapshot (workflowKey name) .live ∈ found :=
      (Backend.mem_list_iff hlist _).2 ⟨hscans, under_workflowKey name,
        ((Backend.live?_eq_some_iff_shown _ _ _ _).1
          ((Backend.live?_eq_some_iff _ _ _ _).2 ⟨hentry, he.stage _ _⟩)).2⟩
    rw [hlist]
    refine ⟨_, _, rfl, List.mem_filterMap.2 ⟨_, List.mem_filter.2 ⟨hmem, rfl⟩, ?_⟩⟩
    exact workflowName?_workflowKey hname

/-- **A workflow that was handed in is read back and listed.** One that is not valid is not stored.
If handing it in succeeds, its manifest is in place, and as long as nobody touches its key, reading
it back gives the resolved workflow. The workflows are listed, this one among them, exactly if the
dates of all manifests exist. -/
theorem submitted_workflow (agents : AgentSide τ) (w : WorkflowSpec) (s : Host τ) :
    (∀ e, w.validate = .error e →
      (submit w).exec (Host.answer agents) s = (some (.error (.invalid e)), s)) ∧
    ∀ version s', (submit w).exec (Host.answer agents) s = (some (.ok version), s') →
      (∃ data, s'.store.entry? (workflowKey w.name) = some ⟨data, version, none, none⟩ ∧
        WorkflowSpec.ofManifest w.name data = .ok w.resolved) ∧
      ∀ again : Host τ,
        again.store.entry? (workflowKey w.name) = s'.store.entry? (workflowKey w.name) →
          (get w.name).exec (Host.answer agents) again = (some (.ok w.resolved), again.tick) ∧
          ((∃ listed after,
              names.exec (Host.answer agents) again = (some (.ok listed), after) ∧
                w.name ∈ listed) ↔
            ∀ key, under workflowScope key = true →
              again.store.DatableAt again.tick.now key) := by
  refine ⟨fun e he => exec_submit_of_invalid agents he s, fun version s' hsubmit => ?_⟩
  obtain ⟨hvalid, hentry⟩ := stored_of_submit agents hsubmit
  have hmanifest := WorkflowSpec.ofManifest_encode_underived hvalid
  have hlasting : (⟨w.underived.encode, version, none, none⟩ : Entry).Lasting := ⟨rfl, rfl⟩
  refine ⟨⟨_, hentry, hmanifest⟩, fun again hagain => ?_⟩
  rw [hentry] at hagain
  exact ⟨exec_get_of_stored agents hagain hlasting hmanifest,
    exec_names_iff agents (WorkflowSpec.name_ne_empty hvalid) hagain hlasting⟩

/-- A workflow that was handed in with a derived list that is wrong is read back without it, and
listed. -/
theorem small_workflow_read_back :
    let w := WorkflowSpec.ofPipelines "wf1" [("a", ⟨[.manual], [], .empty, ["b"]⟩)]
    let s : Host Fleet := ⟨⟨⟨0, false⟩, by decide⟩, [], .table (.new defaultGrace),
      Fleet.ofNames [] [] []⟩
    ∃ s', (submit w).exec (Host.answer Fleet.side) s = (some (.ok 1), s') ∧
      (get "wf1").exec (Host.answer Fleet.side) s' = (some (.ok w.resolved), s'.tick) ∧
      ∃ listed after,
        names.exec (Host.answer Fleet.side) s' = (some (.ok listed), after) ∧ "wf1" ∈ listed := by
  intro w s
  have hvalid : w.validate = .ok () := by decide +kernel
  have hset : s.store.apply s.tick.now (.set (workflowKey w.name) w.underived.encode) =
      (.answer (1 : Nat), .table ⟨KeyMap.empty.insert (workflowKey w.name)
        ⟨w.underived.encode, 1, none, none⟩, 1, defaultGrace.forDates⟩) := rfl
  have hsubmit := exec_submit_of_valid Fleet.side hvalid s
  rw [hset] at hsubmit
  obtain ⟨-, hhanded⟩ := submitted_workflow Fleet.side w s
  obtain ⟨-, hagain⟩ := hhanded 1 _ hsubmit
  obtain ⟨hget, hnames⟩ := hagain _ rfl
  refine ⟨_, hsubmit, hget, hnames.2 fun key _ e he => ?_⟩
  -- The manifest is the only entry, and it does not expire.
  have hentry : (KeyMap.empty.insert (workflowKey w.name)
      (⟨w.underived.encode, 1, none, none⟩ : Entry)).get? key = some e := he
  rw [KeyMap.get?_insert] at hentry
  split at hentry
  · obtain rfl := Option.some.inj hentry
    exact Entry.Lasting.datable ⟨rfl, rfl⟩ _ _
  · cases hentry

/-- A workflow was handed in, and the workflows cannot be listed: the grace of another one, which was
deleted, ends beyond the last date. -/
theorem listing_aborted_by_deleted_workflow :
    let w := WorkflowSpec.ofPipelines "wf1" [("a", ⟨[.manual], [⟨"run", "x", [], .empty⟩], .empty, []⟩)]
    let now : Moment := ⟨⟨1735689600000000000, false⟩, by decide⟩
    let empty := Backend.memory (.new (Span.ofMillis 9000000000000000))
    let written := (empty.apply now.val (.set "workflows/old" [49])).2
    let s : Host Fleet := ⟨now, [], (written.apply now.val (.delete "workflows/old")).2,
      Fleet.ofNames [] [] []⟩
    ∃ s', (submit w).exec (Host.answer Fleet.side) s = (some (.ok 3), s') ∧
      ¬ ∃ listed after,
        names.exec (Host.answer Fleet.side) s' = (some (.ok listed), after) ∧ "wf1" ∈ listed := by
  intro w now empty written s
  have hsubmit : ((submit w).exec (Host.answer Fleet.side) s).1 = some (.ok 3) := by decide +kernel
  refine ⟨((submit w).exec (Host.answer Fleet.side) s).2, Prod.ext hsubmit rfl, ?_⟩
  have hnames : (names.exec (Host.answer Fleet.side)
      ((submit w).exec (Host.answer Fleet.side) s).2).1 = none := by decide +kernel
  rintro ⟨listed, after, hlisted, -⟩
  rw [hlisted] at hnames
  cases hnames

end Repository

end FleetControl
