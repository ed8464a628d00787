import FleetControl.Proofs.Fleet.Basic
import FleetControl.Proofs.Reconcile.Duties
import FleetControl.Proofs.Scheduler.Documents

/-!
# Workflows do not touch each other

A status document is written under the name that it holds, which was read from the document before.
That is the name of the workflow whose key the document was at, because all live documents are under
their own keys: there is none at first, and whatever a callback writes is about the workflow that it
read. So a callback asks nothing about other workflows, whether it ends or breaks off. The pipelines
that it calls agents about are those that need an action, and a pipeline that neither the manifest
nor the document names needs none.

The walk over orphans is made of callbacks, one for each document whose manifest is not live. A
workflow has its turn once, and until then nothing but something gone is dropped of its keys; so
what its callback finds there was there at the start of the walk.

* `Host.asked_reconcileManifest`, `Host.asked_reconcileRemoval`, `Host.asked_reconcileOrphans` —
  what the callbacks ask;
* `Fleet.holding` — bench agents keep pipelines apart;
* `Host.after` — callbacks, and what is done with other keys of the store, one after the other;
* `Host.workflows_are_kept_apart` — in every state of a run that starts without documents, the
  callbacks mind their own workflows.
-/

namespace FleetControl

open Simulation

/-! ## Bench agents -/

/-- Whatever becomes of a call, it concerns one pipeline. -/
theorem Simulation.BenchAgent.find?_respond_of_ne (a : BenchAgent) (fate : Fate)
    (action : PipelineAction) (request : PipelineRequest) {w p : String}
    (h : ¬ (w = request.workflow ∧ p = request.pipeline)) :
    (a.respond fate action request).2.find? w p = a.find? w p := by
  cases fate <;> simp [respond, find?_carryOut_of_ne _ _ _ h]

/-- **A fleet keeps pipelines apart**, by the names of the agents that hold them. -/
theorem Fleet.holding : side.Holding fun x w p name => x.held name w p := by
  refine ⟨fun r x hcall => ?_, fun c d action request x w p h => ?_⟩
  · cases r with
    | call c d action request => exact absurd rfl (hcall c d action request)
    | _ => rfl
  · funext name
    change (x.call c.agent action request).2.held name w p = x.held name w p
    unfold Fleet.call
    split
    · rfl
    · next a ha =>
      unfold held agent?
      cases x.directory.get? name with
      | none => rfl
      | some r =>
          simp only [Option.bind_some, Arena.get?_modify]
          split
          · next hagent =>
            rw [hagent, ha]
            exact a.find?_respond_of_ne _ action request h
          · rfl

/-! ## Calls about one pipeline -/

section Calls

variable {D : Duty} {w p : String} (hw : D.workflow w) (hp : D.pipeline w p)
variable (deadline : Span) (spec : PipelineSpec) (status : PipelineStatus)

include hw hp in
/-- **An action** calls agents about its own pipeline. -/
theorem Scheduler.only_dispatch (action : PipelineAction) :
    (dispatch deadline action w p spec status).Only (Request.Within D) := by
  refine (only_about_dispatch deadline w p spec status action).mono fun r h => ?_
  cases r with
  | call connection deadline action sent =>
      obtain rfl : sent = request w p spec := h
      exact ⟨hw, hp⟩
  | clock | store | health => cases h
  | _ => trivial

include hw in
/-- **The actions of a pass** call agents about their pipelines. -/
theorem Attempt.only_all (desired : WorkflowSpec) {actions : List PlannedAction}
    (hactions : ∀ planned ∈ actions, D.pipeline w planned.pipeline) (a : Applied) :
    (all deadline w desired actions a).Only (Request.Within D) := by
  induction actions generalizing a with
  | nil => exact .pure _
  | cons planned rest ih =>
      obtain ⟨hplanned, hrest⟩ := List.forall_mem_cons.1 hactions
      refine .bind ?_ fun r => .bind (ih hrest r.2) fun attempt => .pure _
      unfold Applied.apply
      split
      · exact .pure _
      · exact .bind (Scheduler.only_dispatch hw hplanned deadline _ _ _) fun result => .pure _

end Calls

namespace Host

variable {τ : Type} {agents : AgentSide τ} {deadline : Span} {s s' : Host τ} {D : Duty} {w : String}

/-! ## Reading, writing and deleting a document -/

/-- A pipeline that the live document of a workflow names, as applied last or as unconfirmed. -/
def Records (s : Host τ) (w p : String) : Prop :=
  ∃ t ∈ s.clock, ∃ e doc, s.store.live? t.val (statusKey w) = some e ∧
    WorkflowStatus.decode? e.data = some doc ∧
      (doc.spec.pipelines.contains p = true ∨ doc.unconfirmed.contains p = true)

theorem only_loadStatus (D : Duty) (w : String) : (loadStatus w).Only (Request.Within D) := by
  rw [loadStatus_eq]
  exact .bind (.request (.inl rfl)) fun reply => .pure _

theorem only_deleteStatus (hw : D.workflow w) : (deleteStatus w).Only (Request.Within D) := by
  refine .bind (.request (.inr ⟨w, hw, rfl⟩)) fun reply => ?_
  cases reply <;> exact .pure _

/-- **Writing the document of a working copy** is within a duty for the workflow in its spec. -/
theorem asked_saveStatus {a : Applied} (hdated : a.Dated) (hw : D.workflow a.spec.name)
    (s : Host τ) : ∀ r ∈ (saveStatus a).asked (answer agents) s, r.Within D := by
  have hexec : Control.clock.exec (answer agents) s = (some s.tick.now.val, s.tick) := rfl
  have hasked : Control.clock.asked (answer agents) s = [.clock] := rfl
  unfold saveStatus
  rw [Program.asked_bind, hexec, hasked, List.singleton_append]
  refine List.forall_mem_cons.2 ⟨trivial, Program.Only.asked ?_ _ _⟩
  refine .bind (.request (.inr ⟨_, hw, rfl, _, Applied.reread_toStatus hdated _, rfl⟩))
    fun reply => ?_
  cases reply <;> exact .pure _

/-- What a callback starts from, where documents are under their own keys. -/
theorem start_of_loaded (orderly : s.Orderly agents) {previous : Option WorkflowStatus}
    (hload : (loadStatus w).exec (answer agents) s = (some (.ok previous), s')) :
    let start := Applied.ofStatus? w previous
    start.Sound ∧ start.spec.name = w ∧
      ∀ p, (start.spec.pipelines.contains p = true ∨ start.unconfirmed.contains p = true) →
        s.Records w p := by
  obtain ⟨outcome, b, hexec, hloads⟩ := loads agents s w
  obtain ⟨rfl, -⟩ := Prod.mk.inj (hexec.symm.trans hload)
  cases hloads with
  | missing =>
      refine ⟨Applied.sound_empty w, rfl, fun p hp => ?_⟩
      rcases hp with hp | hp <;> cases hp
  | @read e doc live decoded =>
      obtain ⟨doc', hdecoded, hname⟩ := orderly.labelled w _ e live
      obtain rfl := Option.some.inj (decoded.symm.trans hdecoded)
      refine ⟨Applied.sound_of_decode? decoded, hname, fun p hp => ?_⟩
      refine ⟨_, s.now_tick_mem_clock, e, doc, live, decoded, ?_⟩
      exact hp.imp (fun h => (WorkflowSpec.contains_resolved _ _).symm.trans h) id

/-! ## Callbacks for one workflow -/

/-- Whatever actions are carried out, the working copy keeps its workflow. -/
theorem name_all (agents : AgentSide τ) (desired : WorkflowSpec) (actions : List PlannedAction)
    (a : Applied) (x : τ) :
    ((Attempt.all deadline w desired actions a).run agents.answer x).1.state.spec.name =
      a.spec.name := by
  induction actions generalizing a x with
  | nil => rfl
  | cons planned rest ih =>
      have hfirst := (Applied.effect agents.answer deadline w desired planned a x).frame.1
      have hothers := ih ((a.apply deadline w desired planned).run agents.answer x).1.2
        ((a.apply deadline w desired planned).run agents.answer x).2
      rw [Attempt.run_all_cons]
      simp only
      generalize ((a.apply deadline w desired planned).run agents.answer x).1.1 = outcome
      cases outcome <;> exact hothers.trans hfirst

/-- **A pass** is within a duty if its actions are about pipelines of the duty, and what it does
once they were tried is within it. -/
theorem asked_pass {β : Type} (proper : agents.Proper s.side) (hw : D.workflow w)
    {desired : WorkflowSpec} {actions : List PlannedAction} {start : Applied}
    (hdated : start.Dated) (hp : ∀ planned ∈ actions, D.pipeline w planned.pipeline)
    {ending : Attempt → Control β}
    (hending : ∀ attempt : Attempt, attempt.state.Dated →
      attempt.state.spec.name = start.spec.name →
        ∀ s : Host τ, ∀ r ∈ (ending attempt).asked (answer agents) s, r.Within D) :
    ∀ r ∈ (Attempt.all deadline w desired actions start >>= ending).asked (answer agents) s,
      r.Within D := by
  intro r hr
  rw [Program.asked_bind, exec_remote agents (Control.Remote.all _ _ _ _ _)] at hr
  rcases List.mem_append.1 hr with hacting | hend
  · exact (Attempt.only_all hw deadline desired hp start).asked _ _ r hacting
  · exact hending _ (Attempt.dated_all agents deadline w desired actions hdated proper)
      (name_all agents desired actions start s.side) _ r hend

/-- A pass over a manifest, once the document has been read. -/
theorem asked_reconcileWorkflow (proper : agents.Proper s.side) {desired : WorkflowSpec}
    {previous : Option WorkflowStatus}
    (sound : (Applied.ofStatus? desired.name previous).Sound)
    (hown : (Applied.ofStatus? desired.name previous).spec.name = desired.name)
    (hw : D.workflow desired.name)
    (hp : ∀ planned ∈ manifestActions desired (Applied.ofStatus? desired.name previous),
      D.pipeline desired.name planned.pipeline) :
    ∀ r ∈ (reconcileWorkflow deadline desired previous).asked (answer agents) s, r.Within D := by
  rw [reconcileWorkflow_eq]
  refine asked_pass proper hw sound.dated hp fun attempt hdated hname s r hr => ?_
  split at hr
  · cases hr
  · rw [Program.asked_bind] at hr
    rcases List.mem_append.1 hr with hsaving | hdone
    · have hsettled : (attempt.settled desired).Dated := ⟨hdated.pipelines, hdated.unconfirmed⟩
      have hours : D.workflow (attempt.settled desired).spec.name := by
        change D.workflow attempt.state.spec.name
        rwa [hname, hown]
      exact asked_saveStatus hsettled hours _ r hsaving
    · split at hdone <;> cases hdone

/-- A removal, once the document has been read. -/
theorem asked_removal (proper : agents.Proper s.side) {doc : WorkflowStatus}
    (sound : (Applied.ofStatus doc).Sound) (hown : (Applied.ofStatus doc).spec.name = w)
    (hw : D.workflow w)
    (hp : ∀ planned ∈ removalActions (Applied.ofStatus doc), D.pipeline w planned.pipeline) :
    ∀ r ∈ (Attempt.all deadline w (.empty w) (removalActions (Applied.ofStatus doc))
        (Applied.ofStatus doc) >>= fun attempt =>
          (if attempt.failures.isEmpty then deleteStatus w else saveStatus attempt.state) >>=
            fun written => pure (written.map fun _ => attempt.report w true)).asked
              (answer agents) s, r.Within D := by
  refine asked_pass proper hw sound.dated hp fun attempt hdated hname s r hr => ?_
  rw [Program.asked_bind] at hr
  rcases List.mem_append.1 hr with hwriting | hdone
  · split at hwriting
    · exact (only_deleteStatus hw).asked _ _ r hwriting
    · exact asked_saveStatus hdated ((hname.trans hown).symm ▸ hw) _ r hwriting
  · split at hdone <;> cases hdone

/-- **The callback for a manifest** asks about its workflow, and about the pipelines of the manifest
and of the document. -/
theorem asked_reconcileManifest (orderly : s.Orderly agents)
    {key : String} (name : workflowName? key = some w) (data : Bytes) :
    ∀ r ∈ (reconcileManifest deadline key data).asked (answer agents) s,
      r.Within (.of w fun p => (∃ desired, WorkflowSpec.ofManifest w data = .ok desired ∧
        desired.pipelines.contains p = true) ∨ s.Records w p) := by
  intro r hr
  cases valid : WorkflowSpec.ofManifest w data with
  | error e =>
      simp only [reconcileManifest, name, valid] at hr
      cases hr
  | ok desired =>
      obtain rfl := WorkflowSpec.name_of_manifest valid
      simp only [reconcileManifest, name, valid] at hr
      rw [Program.asked_bind] at hr
      rcases List.mem_append.1 hr with hloading | hrest
      · exact (only_loadStatus _ _).asked _ _ r hloading
      · cases hload : (loadStatus desired.name).exec (answer agents) s with
        | mk outcome s₁ =>
            rw [hload] at hrest
            rcases outcome with _ | e | previous
            · cases hrest
            · cases hrest
            · obtain ⟨sound, hown, hrecords⟩ := start_of_loaded orderly hload
              have hside : s₁.side = s.side := by
                have hloaded := side_of_loadStatus agents s desired.name
                rwa [hload] at hloaded
              refine asked_reconcileWorkflow (hside ▸ orderly.proper) sound hown rfl ?_ r hrest
              intro planned hplanned
              have hneeds := (mem_manifestActions_iff _ _ _).1 hplanned
              generalize planned.action = action at hneeds
              cases Applied.needed hneeds with
              | schedule wanted | update wanted =>
                  exact .inl ⟨desired, rfl, (KeyMap.contains_iff _ _).2 ⟨_, wanted⟩⟩
              | remove _ claimed => exact .inr (hrecords _ claimed)

/-- **The removal of a workflow** asks about it, and about the pipelines of the document. -/
theorem asked_removeWorkflow (orderly : s.Orderly agents)
    (w : String) : ∀ r ∈ (removeWorkflow deadline w).asked (answer agents) s,
      r.Within (.of w fun p => s.Records w p) := by
  intro r hr
  rw [removeWorkflow_eq, Program.asked_bind] at hr
  rcases List.mem_append.1 hr with hloading | hrest
  · exact (only_loadStatus _ _).asked _ _ r hloading
  · cases hload : (loadStatus w).exec (answer agents) s with
    | mk outcome s₁ =>
        rw [hload] at hrest
        rcases outcome with _ | e | _ | doc
        · cases hrest
        · cases hrest
        · cases hrest
        · obtain ⟨sound, hown, hrecords⟩ := start_of_loaded orderly hload
          have hside : s₁.side = s.side := by
            have hloaded := side_of_loadStatus agents s w
            rwa [hload] at hloaded
          refine asked_removal (hside ▸ orderly.proper) sound hown rfl ?_ r hrest
          intro planned hplanned
          exact hrecords _ ((mem_removalActions_iff _ _).1 hplanned).2

/-! ## The walk over orphans -/

/-- The manifest of a workflow is not live, at some instant that the clock shows from now on. -/
def Orphaned (s : Host τ) (w : String) : Prop :=
  ∃ t ∈ s.clock, s.store.live? t.val (workflowKey w) = none

/-- One document of the walk: its workflow is removed if the manifest is not there. -/
theorem removeOrphans_cons {kv : Snapshot} (hkey : kv.key = statusKey w) (hlive : kv.dead = false)
    (rest : List Snapshot) :
    removeOrphans deadline (kv :: rest) = Control.contains (workflowKey w) >>= fun present =>
      match present with
      | .error e => pure (.error (.store e))
      | .ok true => removeOrphans deadline rest
      | .ok false => removeWorkflow deadline w >>= fun outcome =>
        match outcome with
        | .error e => pure (.error e)
        | .ok report => removeOrphans deadline rest >>= fun more =>
          pure (more.map fun names => if report.converged then w :: names else names) := by
  have hname : w = String.ofList (kv.key.toList.drop statusScope.length) := by
    rw [hkey, statusKey, String.toList_append, ← String.length_toList, List.drop_left,
      String.ofList_toList]
  have hwalk : ¬ kv.dead = true := by simp [hlive]
  subst hname
  exact if_neg hwalk

/-- The duty of a walk over documents: the workflows without a manifest among those whose documents
are at the keys, and the pipelines of their documents. -/
def walk (s : Host τ) (keys : List String) : Duty :=
  ⟨fun w => statusKey w ∈ keys ∧ s.Orphaned w, s.Records⟩

/-- What is within the duty of a walk was within it before, if nothing was done since but for
workflows that have had their turn. -/
theorem within_before {W : String → Prop} (h : Spares W s s') {keys : List String}
    (hturn : ∀ w, W w → statusKey w ∉ keys) {r : Request}
    (hr : r.Within (s'.walk keys)) : r.Within (s.walk keys) := by
  refine hr.mono ?_ ?_
  · rintro w ⟨hmem, t, ht, hdead⟩
    exact ⟨hmem, h.dead_before (fun w' _ => workflowKey_ne_statusKey w w') ht hdead⟩
  · rintro w p ⟨hmem, -⟩ ⟨t, ht, e, doc, hlive, hdoc⟩
    have hother : ∀ w', W w' → statusKey w ≠ statusKey w' := by
      intro w' hw' heq
      exact hturn w' hw' (heq ▸ hmem)
    exact ⟨t, h.clock ht, e, doc, h.live?_before hother hlive, hdoc⟩

/-- The rest of a walk is part of it. -/
theorem within_cons {key : String} {keys : List String} {r : Request}
    (hr : r.Within (s.walk keys)) : r.Within (s.walk (key :: keys)) := by
  refine hr.mono ?_ ?_
  · rintro w ⟨hmem, horphaned⟩
    exact ⟨List.mem_cons_of_mem _ hmem, horphaned⟩
  · exact fun w p _ hp => hp

/-- A manifest that is found to be missing is not live. -/
theorem orphaned_of_contains
    (h : (Control.contains (workflowKey w)).exec (answer agents) s = (some (.ok false), s')) :
    s.Orphaned w := by
  obtain ⟨outcome, b, hexec, -, hfound⟩ := looks agents s (workflowKey w)
  obtain ⟨rfl, -⟩ := Prod.mk.inj (hexec.symm.trans h)
  rcases hfound with ⟨hnone, -⟩ | hfound
  · cases hnone
  · refine ⟨s.tick.now, s.now_tick_mem_clock, Option.isNone_iff_eq_none.1 ?_⟩
    rw [← Option.not_isSome, ← Except.ok.inj (Option.some.inj hfound)]
    rfl

/-- **The turn of a workflow without a manifest** asks about it, and about the pipelines of its
document. The store has been looked at before, and nothing else. -/
theorem asked_turn (hlooked : ∀ W, Spares W s s') (orderly : s'.Orderly agents)
    (horphaned : s.Orphaned w) (keys : List String) :
    ∀ r ∈ (removeWorkflow deadline w).asked (answer agents) s',
      r.Within (s.walk (statusKey w :: keys)) := by
  intro r hr
  refine (asked_removeWorkflow orderly w r hr).mono ?_ ?_
  · rintro v rfl
    exact ⟨List.mem_cons_self, horphaned⟩
  · rintro v p rfl ⟨t, ht, e, doc, hlive, hdoc⟩
    have hbefore := hlooked fun _ => False
    exact ⟨t, hbefore.clock ht, e, doc, hbefore.live?_before (fun _ h => h.elim) hlive, hdoc⟩

/-- The rest of a walk asks nothing outside a duty, whatever was done before for one workflow. -/
def RestWithin (agents : AgentSide τ) (deadline : Span) (s : Host τ) (w : String)
    (rest : List Snapshot) (D : Duty) : Prop :=
  ∀ s', Spares (· = w) s s' → s'.Orderly agents →
    ∀ r ∈ (removeOrphans deadline rest).asked (answer agents) s', r.Within D

/-- From the turn of a workflow without a manifest on. -/
theorem asked_from_turn {keys : List String} {rest : List Snapshot}
    (hrest : RestWithin agents deadline s w rest (s.walk (statusKey w :: keys)))
    (hlooked : ∀ W, Spares W s s') (orderly : s'.Orderly agents) (horphaned : s.Orphaned w) :
    ∀ r ∈ (removeWorkflow deadline w >>= fun outcome =>
        match outcome with
        | .error e => pure (.error e)
        | .ok report => removeOrphans deadline rest >>= fun more =>
          pure (more.map fun names => if report.converged then w :: names else names)).asked
            (answer agents) s', r.Within (s.walk (statusKey w :: keys)) := by
  intro r hr
  rw [Program.asked_bind] at hr
  rcases List.mem_append.1 hr with hremoving | hwalking
  · exact asked_turn hlooked orderly horphaned keys r hremoving
  · have hwithin : ∀ r ∈ (removeWorkflow deadline w).asked (answer agents) s',
        r.Within (.of w fun p => s'.Records w p) := asked_removeWorkflow orderly w
    have hspares := (hlooked _).trans (spares_of_asked hwithin)
    have hafter := orderly.exec hwithin
    generalize (removeWorkflow deadline w).exec (answer agents) s' = removed
      at hwalking hspares hafter
    obtain ⟨_ | e | report, s''⟩ := removed
    · cases hwalking
    · cases hwalking
    · dsimp only at hwalking
      rw [Program.asked_bind] at hwalking
      rcases List.mem_append.1 hwalking with hmore | hdone
      · exact hrest s'' hspares hafter r hmore
      · split at hdone <;> cases hdone

/-- One document, and the rest of the walk. -/
theorem asked_removeOrphans_cons {kv : Snapshot} (hkey : kv.key = statusKey w) {keys : List String}
    {rest : List Snapshot} (orderly : s.Orderly agents)
    (hrest : RestWithin agents deadline s w rest (s.walk (statusKey w :: keys))) :
    ∀ r ∈ (removeOrphans deadline (kv :: rest)).asked (answer agents) s,
      r.Within (s.walk (statusKey w :: keys)) := by
  intro r hr
  cases hdead : kv.dead with
  | true =>
      rw [removeOrphans, if_pos hdead] at hr
      exact hrest s (.refl _ s) orderly r hr
  | false =>
      have hlook : ∀ D : Duty, (Control.contains (workflowKey w)).Only (Request.Within D) :=
        fun D => .request (.inl rfl)
      have hlooked : ∀ W, Spares W s
          ((Control.contains (workflowKey w)).exec (answer agents) s).2 :=
        fun W => spares_of_asked ((hlook ⟨W, fun _ _ => False⟩).asked _ s)
      have horderly := orderly.exec ((hlook (s.walk [])).asked _ s)
      rw [removeOrphans_cons hkey hdead, Program.asked_bind] at hr
      rcases List.mem_append.1 hr with hlooking | hfound
      · exact (hlook _).asked _ _ r hlooking
      · cases hexec : (Control.contains (workflowKey w)).exec (answer agents) s with
        | mk outcome s' =>
            rw [hexec] at hfound hlooked horderly
            rcases outcome with _ | e | _ | _
            · cases hfound
            · cases hfound
            · have horphaned := orphaned_of_contains hexec
              exact asked_from_turn hrest hlooked horderly horphaned r hfound
            · exact hrest s' (hlooked _) horderly r hfound

/-- **The walk over documents** asks about workflows without a manifest, and about the pipelines of
their documents. -/
theorem asked_removeOrphans {found : List Snapshot}
    (hkeys : ∀ kv ∈ found, ∃ w, kv.key = statusKey w) (hnodup : (found.map (·.key)).Nodup)
    (orderly : s.Orderly agents) :
    ∀ r ∈ (removeOrphans deadline found).asked (answer agents) s,
      r.Within (s.walk (found.map (·.key))) := by
  induction found generalizing s with
  | nil =>
      intro r hr
      cases hr
  | cons kv rest ih =>
      obtain ⟨⟨w, hkey⟩, hothers⟩ := List.forall_mem_cons.1 hkeys
      rw [List.map_cons] at hnodup ⊢
      obtain ⟨hturn, hrest⟩ := List.nodup_cons.1 hnodup
      rw [hkey] at hturn ⊢
      refine asked_removeOrphans_cons hkey orderly ?_
      -- What comes later in the walk is told by the state that it finds.
      intro s' hspares horderly r hr
      have hthere := ih hothers hrest horderly r hr
      exact within_cons (within_before hspares (fun v hv => hv ▸ hturn) hthere)

/-- The duty of the callback for orphans: the workflows without a manifest, and the pipelines of
their documents. -/
def orphans (s : Host τ) : Duty := ⟨s.Orphaned, s.Records⟩

/-- A key under the scope of status documents is that of a workflow. -/
theorem exists_statusKey {key : String} (h : under statusScope key = true) :
    ∃ w, key = statusKey w := by
  obtain ⟨rest, hrest⟩ := List.isPrefixOf_iff_prefix.1 h
  refine ⟨String.ofList rest, String.toList_inj.1 ?_⟩
  rw [statusKey, String.toList_append, String.toList_ofList, hrest]

/-- **The callback for orphans** asks about workflows without a manifest, and about the pipelines of
their documents. -/
theorem asked_reconcileOrphans (orderly : s.Orderly agents) :
    ∀ r ∈ (reconcileOrphans deadline).asked (answer agents) s, r.Within s.orphans := by
  have hlook : ∀ D : Duty, (Control.list statusScope).Only (Request.Within D) :=
    fun D => .request (.inl rfl)
  have hlooked : ∀ W, Spares W s ((Control.list statusScope).exec (answer agents) s).2 :=
    fun W => spares_of_asked ((hlook ⟨W, fun _ _ => False⟩).asked _ s)
  have horderly := orderly.exec ((hlook s.orphans).asked _ s)
  intro r hr
  unfold reconcileOrphans at hr
  rw [Program.asked_bind] at hr
  rcases List.mem_append.1 hr with hlooking | hwalking
  · exact (hlook _).asked _ _ r hlooking
  · rw [exec_list] at hwalking hlooked horderly
    generalize hlist : s.store.apply s.tick.now (.list statusScope) = result
      at hwalking hlooked horderly
    obtain ⟨found | e | _, b⟩ := result
    · change List Snapshot at found
      have hkeys : ∀ kv ∈ found, ∃ w, kv.key = statusKey w := fun kv hkv =>
        exists_statusKey ((Backend.mem_list_iff hlist kv).1 hkv).2.1
      have hwithin := asked_removeOrphans hkeys (Backend.nodup_list hlist) horderly r hwalking
      have hbefore := within_before (hlooked fun _ => False) (fun _ h => h.elim) hwithin
      refine hbefore.mono ?_ ?_
      · exact fun w hw => hw.2
      · exact fun w p _ hp => hp
    · cases hwalking
    · cases hwalking

/-! ## Runs -/

/-- What is done at a host, one thing after the other. -/
inductive Doing where
  /-- The callback for a manifest. -/
  | manifest (key : String) (data : Bytes)
  /-- The callback for a manifest that is gone. -/
  | removal (key : String)
  /-- The callback for orphans. -/
  | orphans
  /-- Anybody does something with the store, but writes and deletes no status document. -/
  | store (op : StoreOp) (elsewhere : ∀ w, op.target? ≠ some (statusKey w))
  /-- What is gone is dropped. -/
  | compact

variable (agents deadline)

/-- The host after something was done, whether that ended or broke off. -/
def did (s : Host τ) : Doing → Host τ
  | .manifest key data => ((reconcileManifest deadline key data).exec (answer agents) s).2
  | .removal key => ((reconcileRemoval deadline key).exec (answer agents) s).2
  | .orphans => ((reconcileOrphans deadline).exec (answer agents) s).2
  | .store op _ => { s.tick with store := (s.store.apply s.tick.now op).2 }
  | .compact => { s.tick with store := (s.store.compact s.tick.now).2 }

/-- The host after things were done one after the other. -/
def after (s : Host τ) (doings : List Doing) : Host τ := doings.foldl (did agents deadline) s

variable {agents}

/-- A key that is that of no manifest is not dealt with. -/
theorem asked_of_unnamed {key : String} (name : workflowName? key = none) (data : Bytes)
    (s : Host τ) :
    (reconcileManifest deadline key data).asked (answer agents) s = [] ∧
      (reconcileRemoval deadline key).asked (answer agents) s = [] := by
  simp only [reconcileManifest, reconcileRemoval, name]
  exact ⟨rfl, rfl⟩

/-- The callback for a manifest that is gone asks about its workflow, and about the pipelines of the
document. -/
theorem asked_reconcileRemoval (orderly : s.Orderly agents) {key : String}
    (name : workflowName? key = some w) :
    ∀ r ∈ (reconcileRemoval deadline key).asked (answer agents) s,
      r.Within (.of w fun p => s.Records w p) := by
  simp only [reconcileRemoval, name]
  exact asked_removeWorkflow orderly w

/-- **Whatever is done** keeps a host orderly. -/
theorem Orderly.did (h : s.Orderly agents) (doing : Doing) :
    (s.did agents deadline doing).Orderly agents := by
  cases doing with
  | manifest key data =>
      cases name : workflowName? key with
      | none =>
          simp only [Host.did, reconcileManifest, name]
          exact h
      | some w => exact h.exec (asked_reconcileManifest h name data)
  | removal key =>
      cases name : workflowName? key with
      | none =>
          simp only [Host.did, reconcileRemoval, name]
          exact h
      | some w => exact h.exec (asked_reconcileRemoval deadline h name)
  | orphans => exact h.exec (asked_reconcileOrphans h)
  | store op elsewhere => exact ⟨h.labelled.apply_elsewhere elsewhere, s.tick_side.symm ▸ h.proper⟩
  | compact => exact ⟨h.labelled.sheds (s.store.sheds_compact _), s.tick_side.symm ▸ h.proper⟩

/-- A run keeps a host orderly. -/
theorem Orderly.after (h : s.Orderly agents) (doings : List Doing) :
    (s.after agents deadline doings).Orderly agents := by
  induction doings generalizing s with
  | nil => exact h
  | cons doing rest ih => exact ih (h.did deadline doing)

variable (agents)

/-- **Workflows are kept apart.** In every state of a run of callbacks and of other work on the
store that starts without status documents, whatever the agents reply and also after callbacks that
broke off, every live status document is about the workflow whose key it is at. A callback for a
workflow minds nothing else: it changes no key but that of the workflow's document; it calls agents
about pipelines of the workflow only, which the manifest or the document names; and what agents hold
of other pipelines, if calls about a pipeline change nothing else, stays as it is. The callback for
orphans does that for the workflows without a manifest. With a key of no manifest nothing is asked
for at all. -/
theorem workflows_are_kept_apart (proper : agents.Proper s.side)
    (blank : ∀ w t, s.store.live? t (statusKey w) = none) (doings : List Doing) :
    let s' := s.after agents deadline doings
    (∀ w t e, s'.store.live? t (statusKey w) = some e →
      ∃ doc, WorkflowStatus.decode? e.data = some doc ∧ doc.spec.name = w) ∧
    (∀ key w data, workflowName? key = some w →
      Minds agents s' (reconcileManifest deadline key data) (.of w fun p =>
        (∃ desired, WorkflowSpec.ofManifest w data = .ok desired ∧
          desired.pipelines.contains p = true) ∨ s'.Records w p)) ∧
    (∀ key w, workflowName? key = some w →
      Minds agents s' (reconcileRemoval deadline key) (.of w fun p => s'.Records w p)) ∧
    Minds agents s' (reconcileOrphans deadline) s'.orphans ∧
    ∀ key data, workflowName? key = none →
      (reconcileManifest deadline key data).asked (answer agents) s' = [] ∧
        (reconcileRemoval deadline key).asked (answer agents) s' = [] := by
  intro s'
  have labelled : s.store.Labelled := by
    intro w t e hlive
    rw [blank] at hlive
    cases hlive
  have orderly : s'.Orderly agents := Orderly.after deadline ⟨labelled, proper⟩ doings
  exact ⟨orderly.labelled,
    fun key w data name => minds_of_asked (asked_reconcileManifest orderly name data),
    fun key w name => minds_of_asked (asked_reconcileRemoval deadline orderly name),
    minds_of_asked (asked_reconcileOrphans orderly),
    fun key data name => asked_of_unnamed deadline name data s'⟩

/-- After the manifest of one of two workflows was deleted, the callback for orphans takes its
pipeline from the agent, and leaves the other workflow as it was. -/
theorem orphan_removed_beside_another :
    let task : PipelineSpec := ⟨[.manual], [], .empty, []⟩
    let manifest (w : String) := (WorkflowSpec.ofPipelines w [("a", task)]).encode
    let s : Host Fleet := ⟨⟨⟨0, false⟩, by decide⟩, [], .table (.new defaultGrace),
      Fleet.ofNames ["agent-a"] [] [some "agent-a", some "agent-a"]⟩
    let doings : List Doing :=
      [.store (.set (workflowKey "wf1") (manifest "wf1"))
          (fun w h => workflowKey_ne_statusKey _ w (Option.some.inj h)),
        .manifest "workflows/wf1" (manifest "wf1"),
        .store (.set (workflowKey "wf2") (manifest "wf2"))
          (fun w h => workflowKey_ne_statusKey _ w (Option.some.inj h)),
        .manifest "workflows/wf2" (manifest "wf2"),
        .store (.delete (workflowKey "wf2"))
          (fun w h => workflowKey_ne_statusKey _ w (Option.some.inj h))]
    let s' := s.after Fleet.side .zero doings
    let s'' := ((reconcileOrphans .zero).exec (answer Fleet.side) s').2
    s'.side.Holds "agent-a" "wf1" "a" ∧ s'.side.Holds "agent-a" "wf2" "a" ∧
      ¬ s''.side.Holds "agent-a" "wf2" "a" ∧
      s''.side.held "agent-a" "wf1" "a" = s'.side.held "agent-a" "wf1" "a" ∧
      s'.Leaves s'' (statusKey "wf1") := by
  intro task manifest s doings s' s''
  have proper : Fleet.side.Proper s.side := Fleet.proper_ofNames _ _ (by simp)
  have horphans : Minds Fleet.side s' (reconcileOrphans .zero) s'.orphans :=
    (workflows_are_kept_apart Fleet.side .zero proper (fun _ _ => rfl) doings).2.2.2.1
  have present : ∀ t ∈ s'.clock, (s'.store.live? t.val (workflowKey "wf1")).isSome = true := by
    decide +kernel
  have hmanifest : ¬ s'.Orphaned "wf1" := by
    rintro ⟨t, ht, hdead⟩
    have hlive := present t ht
    rw [hdead] at hlive
    cases hlive
  have hbefore : (s'.side.held "agent-a" "wf1" "a").isSome = true ∧
      (s'.side.held "agent-a" "wf2" "a").isSome = true := by decide +kernel
  have hafter : (s''.side.held "agent-a" "wf2" "a").isSome = false := by decide +kernel
  -- Nothing more has to be computed.
  clear_value s'
  refine ⟨hbefore.1, hbefore.2, ne_true_of_eq_false hafter, ?_, ?_⟩
  · exact congrFun (horphans.held _ Fleet.holding "wf1" "a" fun h => hmanifest h.1) "agent-a"
  · refine horphans.keys _ ?_
    rintro w horphaned heq
    exact hmanifest (statusKey_inj heq ▸ horphaned)

end Host

end FleetControl
