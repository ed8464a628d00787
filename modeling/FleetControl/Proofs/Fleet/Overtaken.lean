import FleetControl.Proofs.Fleet.Overlap
import FleetControl.Reconcile.Callbacks

/-!
# What a removal loses of a pass that it overtakes

The callbacks about a manifest that is there and about one that is gone run in separate loops, and
nothing keeps them from working on the same workflow at the same time. Each keeps the invariant of
both callbacks up at every request, so the invariant holds for every order of their requests.

Every holder is on record again once both have ended, exactly unless the removal ended last although
the pass had ended after the removal started, and some agent holds a pipeline that the record at the
start does not name it for or whose removal was heard of. The removal then wrote what it knows, or
deleted the document, over what the pass had written.

* `Site.Overtaken` — the removal ended over a pass that had placed something;
* `Site.keeps_handleManifest`, `Site.keeps_handleRemoval` — each callback keeps the invariant up;
* `Site.recorded_iff_not_overtaken` — every holder is on record again, exactly unless the pass was
  overtaken.
-/

namespace FleetControl.Site

open Fleet (Carries Continues HeardRemoval)

/-! ## Reading and writing the document in turns -/

/-- An invariant about the callbacks of two parties stands the requests of one of them about the
document of a workflow. -/
structure Concludes (w : String) (turn : Turn)
    (J : Standing → List Turn → Standing → Site Fleet → Prop) : Prop where
  orderly : ∀ {g past other s}, J g past other s → s.Orderly w
  /-- The time is asked for. -/
  tick : ∀ {a past other s}, J (.working a) past other s → J (.working a) (turn :: past) other s.tick
  /-- The document is written or deleted, and it tells what the working copy told. -/
  ended : ∀ {a past other s s'}, J (.working a) past other s → s'.side = s.side → s'.Orderly w →
    (∀ p named, (a.slot p).Tells named → ((s'.copy w).slot p).Tells named) →
      J .finished (turn :: past) other s'

namespace Concludes

variable {w : String} {turn : Turn} {J : Standing → List Turn → Standing → Site Fleet → Prop}

/-- Reading the document. -/
theorem load (h : Concludes w turn J)
    {post : Except ControlError (Option WorkflowStatus) → Standing → Prop}
    (hread : ∀ {past other s s'}, J .waiting past other s → s'.side = s.side → s'.Orderly w →
      s'.document w = s.document w → ∃ g, J g (turn :: past) other s' ∧ post (.ok (s.document w)) g) :
    (loadStatus w).Keeps (answer Fleet.side) turn J post .waiting := by
  refine .of_exec (loadStatus_eq w) ?_
  intro past other s outcome s' hJ hrun
  obtain ⟨rfl, hside, horderly, hdoc⟩ := (h.orderly hJ).load hrun
  exact hread hJ hside horderly hdoc

/-- Writing a working copy, up to the description of the workflow. -/
theorem save (h : Concludes w turn J) {a b : Applied} (hname : a.spec.name = w)
    (hslots : ∀ p, a.slot p = b.slot p) (hdated : a.Dated)
    (hlegible : ∀ {past other s}, J (.working b) past other s → b.Legible s.side.directory) :
    (saveStatus a).Keeps (answer Fleet.side) turn J (fun _ g => g = .finished) (.working b) := by
  subst hname
  refine .bind ?_
  intro past other s now s' hJ hclock
  cases hclock
  refine ⟨.working b, h.tick hJ, .bind ?_⟩
  intro past' other' s' reply s'' hJ' hset
  have hlegible' : a.Legible s'.side.directory := fun p => by
    rw [hslots p]
    exact hlegible hJ' p
  obtain ⟨-, hside, horderly, hdoc⟩ := (h.orderly hJ').set rfl hdated hlegible' s.tick.now hset
  refine ⟨.finished, h.ended hJ' hside horderly fun p named htells => ?_, ?_⟩
  · rw [copy, hdoc]
    exact (hslots p ▸ htells : (a.slot p).Tells named).reread _
  · cases reply <;> exact .pure rfl

/-- Deleting the document when nothing is applied any more. -/
theorem delete (h : Concludes w turn J) {b : Applied} (hnone : ∀ p, (b.slot p).Tells none) :
    (deleteStatus w).Keeps (answer Fleet.side) turn J (fun _ g => g = .finished) (.working b) := by
  refine .bind ?_
  intro past other s reply s' hJ hdelete
  obtain ⟨hside, horderly, hdoc⟩ := (h.orderly hJ).delete hdelete
  refine ⟨.finished, h.ended hJ hside horderly fun p named htells => ?_, ?_⟩
  · obtain rfl := htells.unique (hnone p)
    rw [copy, hdoc]
    exact Applied.tells_empty w p
  · cases reply <;> exact .pure rfl

end Concludes

/-! ## The invariant of both callbacks -/

/-- The document is in order, the directory is that of the start, the calls since the start are
remembered, and the callbacks stand as they can. -/
structure Overlapping (w : String) (desired : WorkflowSpec) (s₀ : Site Fleet) (past : List Turn)
    (m r : Standing) (s : Site Fleet) : Prop where
  orderly : s.Orderly w
  directory : s.side.directory = s₀.side.directory
  continues : Continues s₀.side s.side
  joint : Joint w desired s₀ past s m r

section Callbacks

variable (w : String) (desired : WorkflowSpec) (s₀ : Site Fleet)

/-- The invariant as the pass sees it. -/
def PassSees : Standing → List Turn → Standing → Site Fleet → Prop :=
  fun m past r s => Overlapping w desired s₀ past m r s

/-- The invariant as the removal sees it. -/
def RemovalSees : Standing → List Turn → Standing → Site Fleet → Prop :=
  fun r past m s => Overlapping w desired s₀ past m r s

theorem carries_pass :
    Carries w desired s₀.side.directory .first (PassSees w desired s₀) where
  proper h := h.orderly.proper
  directory h := h.directory
  idle := by
    intro a past r s x h hx hidle
    obtain ⟨horderly, hdoc⟩ := h.orderly.of_side hx hidle.directory
    exact ⟨horderly, hidle.directory.trans h.directory, h.continues.idle hidle,
      h.joint.pass_idle hidle hdoc⟩
  moved := by
    intro a a' past r s x p spec named action h hneeds htells hx hmoved hothers
    obtain ⟨horderly, hdoc⟩ := h.orderly.of_side hx hmoved.directory
    exact ⟨horderly, hmoved.directory.trans h.directory, h.continues.moved hmoved,
      h.joint.pass_moved h.continues hneeds htells hmoved hothers hdoc⟩

theorem concludes_pass : Concludes w .first (PassSees w desired s₀) where
  orderly h := h.orderly
  tick := by
    intro a past r s h
    obtain ⟨horderly, hdoc⟩ := h.orderly.tick
    have hside := tick_side s
    exact ⟨horderly, hside ▸ h.directory, hside ▸ h.continues,
      h.joint.pass_idle (hside ▸ Fleet.Idle.refl s.side) hdoc⟩
  ended := by
    intro a past r s s' h hside horderly hdoc
    exact ⟨horderly, hside ▸ h.directory, hside ▸ h.continues, h.joint.pass_ended hside hdoc⟩

theorem carries_removal :
    Carries w (.empty w) s₀.side.directory .second (RemovalSees w desired s₀) where
  proper h := h.orderly.proper
  directory h := h.directory
  idle := by
    intro b past m s x h hx hidle
    obtain ⟨horderly, hdoc⟩ := h.orderly.of_side hx hidle.directory
    exact ⟨horderly, hidle.directory.trans h.directory, h.continues.idle hidle,
      h.joint.removal_idle hidle hdoc⟩
  moved := by
    intro b b' past m s x p spec named action h hneeds htells hx hmoved hothers
    obtain ⟨horderly, hdoc⟩ := h.orderly.of_side hx hmoved.directory
    -- Nothing else is needed for a manifest without pipelines.
    obtain rfl := Applied.remove_of_needs hneeds (KeyMap.get?_empty p)
    exact ⟨horderly, hmoved.directory.trans h.directory, h.continues.moved hmoved,
      h.joint.removal_moved h.continues htells hmoved hothers hdoc⟩

theorem concludes_removal : Concludes w .second (RemovalSees w desired s₀) where
  orderly h := h.orderly
  tick := by
    intro b past m s h
    obtain ⟨horderly, hdoc⟩ := h.orderly.tick
    have hside := tick_side s
    exact ⟨horderly, hside ▸ h.directory, hside ▸ h.continues,
      h.joint.removal_idle (hside ▸ Fleet.Idle.refl s.side) hdoc⟩
  ended := by
    intro b past m s s' h hside horderly hdoc
    exact ⟨horderly, hside ▸ h.directory, hside ▸ h.continues, h.joint.removal_ended hside hdoc⟩

variable {w desired s₀} (deadline : Span)

/-! ## The pass -/

/-- A pass that finds this has nothing to do, and leaves the document as it is. -/
def Quiet (desired : WorkflowSpec) (previous : Option WorkflowStatus) : Prop :=
  previous.isSome = true ∧ manifestActions desired (.ofStatus? desired.name previous) = [] ∧
    (Applied.ofStatus? desired.name previous).spec.description = desired.description

theorem keeps_reconcileWorkflow (hname : desired.name = w) {previous : Option WorkflowStatus}
    (hquiet : ¬ Quiet desired previous) (hsound : (Applied.ofStatus? w previous).Sound)
    (hown : (Applied.ofStatus? w previous).spec.name = w)
    (hlegible : (Applied.ofStatus? w previous).Legible s₀.side.directory) :
    (reconcileWorkflow deadline desired previous).Keeps (answer Fleet.side) .first
      (PassSees w desired s₀) (fun _ g => g = .finished)
      (.working (.ofStatus? w previous)) := by
  subst hname
  unfold reconcileWorkflow
  refine .bind (((carries_pass desired.name desired s₀).all deadline
    (nodup_manifestActions desired hsound.apart)
    (fun planned hplanned => (mem_manifestActions_iff desired _ planned).1 hplanned) hlegible
    hsound.dated).mono ?_)
  rintro attempt g ⟨rfl, houtcome, hlegible', hdated⟩
  have hwrites : attempt.quiet desired previous = false := by
    rw [Bool.eq_false_iff]
    intro hnone
    simp only [Attempt.quiet, Bool.and_eq_true, beq_iff_eq, decide_eq_true_eq] at hnone
    obtain ⟨⟨hsome, hcount⟩, hdescription⟩ := hnone
    exact hquiet ⟨hsome, List.length_eq_zero_iff.1 (houtcome.count.symm.trans hcount),
      houtcome.frame.2.symm.trans hdescription⟩
  change Program.Keeps _ _ _ _ (if attempt.quiet desired previous then _ else _) _
  rw [hwrites, if_neg (by simp)]
  have hsave := (concludes_pass desired.name desired s₀).save (a := attempt.settled desired)
    (b := attempt.state) (houtcome.frame.1.trans hown) (fun _ => rfl)
    ⟨hdated.pipelines, hdated.unconfirmed⟩ fun hJ => hJ.directory ▸ hlegible'
  refine .bind (hsave.mono fun outcome g hg => ?_)
  cases outcome <;> exact .pure hg

theorem keeps_quiet {previous : Option WorkflowStatus} (hquiet : Quiet desired previous) :
    (reconcileWorkflow deadline desired previous).Keeps (answer Fleet.side) .first
      (PassSees w desired s₀) (fun _ g => g = .finished) .finished := by
  obtain ⟨hsome, hnone, hdescription⟩ := hquiet
  unfold reconcileWorkflow
  simp only [hnone]
  refine .bind (.pure ?_)
  simp only [hsome, hdescription, List.length_nil, decide_true, Bool.and_true]
  exact .pure rfl

/-- **The callback about a manifest that is there** keeps the invariant up at every request. -/
theorem keeps_handleManifest {key : String} (name : workflowName? key = some w) {data : Bytes}
    (valid : WorkflowSpec.ofManifest w data = .ok desired) :
    (handleManifest deadline key data).Keeps (answer Fleet.side) .first (PassSees w desired s₀)
      (fun _ g => g = .finished) .waiting := by
  obtain rfl := WorkflowSpec.name_of_manifest valid
  have hpass : (reconcileManifest deadline key data).Keeps (answer Fleet.side) .first
      (PassSees desired.name desired s₀) (fun _ g => g = .finished) .waiting := by
    unfold reconcileManifest
    simp only [name, valid]
    refine .bind ((concludes_pass desired.name desired s₀).load ?_)
    intro past r s s' hJ hside horderly hdoc
    have hread := hJ.joint.pass_read
    have hlegible := hJ.orderly.legible
    rw [hJ.directory] at hlegible
    by_cases hquiet : Quiet desired (s.document desired.name)
    · refine ⟨.finished, ⟨horderly, hside ▸ hJ.directory, hside ▸ hJ.continues,
        hread.pass_ended hside fun p named htells => ?_⟩, keeps_quiet deadline hquiet⟩
      rw [Joint.copy_eq hdoc]
      exact htells
    · exact ⟨.working (s.copy desired.name), ⟨horderly, hside ▸ hJ.directory,
        hside ▸ hJ.continues, hread.pass_idle (hside ▸ Fleet.Idle.refl s.side) hdoc⟩,
        keeps_reconcileWorkflow deadline rfl hquiet hJ.orderly.sound hJ.orderly.own hlegible⟩
  refine .bind (hpass.mono fun outcome g hg => ?_)
  split <;> exact .pure hg

/-- Whatever the manifest is, there is a standing from which the callback keeps the invariant up: with
an invalid manifest there is nothing to do from the start. -/
theorem keeps_pass {key : String} (name : workflowName? key = some w) (data : Bytes) :
    ∃ desired m, (m = .waiting ∨ m = .finished) ∧
      (handleManifest deadline key data).Keeps (answer Fleet.side) .first (PassSees w desired s₀)
        (fun _ g => g = .finished) m := by
  cases valid : WorkflowSpec.ofManifest w data with
  | ok desired => exact ⟨desired, .waiting, .inl rfl, keeps_handleManifest deadline name valid⟩
  | error e =>
      have hidle : handleManifest deadline key data = pure (.ok ()) := by
        simp only [handleManifest, reconcileManifest, name, valid]
        rfl
      refine ⟨.empty w, .finished, .inr rfl, ?_⟩
      rw [hidle]
      exact .pure rfl

/-! ## The removal -/

/-- **The callback about a manifest that is gone** keeps the invariant up at every request. -/
theorem keeps_handleRemoval {key : String} (name : workflowName? key = some w) :
    (handleRemoval deadline key).Keeps (answer Fleet.side) .second (RemovalSees w desired s₀)
      (fun _ g => g = .finished) .waiting := by
  unfold handleRemoval reconcileRemoval
  simp only [name]
  refine .bind (.bind ((concludes_removal w desired s₀).load ?_))
  intro past m s s' hJ hside horderly hdoc
  cases hprevious : s.document w with
  | none =>
      exact ⟨.finished, ⟨horderly, hside ▸ hJ.directory, hside ▸ hJ.continues,
        hJ.joint.removal_unread hside hdoc⟩, .pure (.pure rfl)⟩
  | some doc =>
      have hsound := hJ.orderly.sound
      have hlegible := hJ.orderly.legible
      have hown := hJ.orderly.own
      rw [hJ.directory] at hlegible
      rw [copy, hprevious] at hsound hlegible hown
      refine ⟨.working (s.copy w), ⟨horderly, hside ▸ hJ.directory, hside ▸ hJ.continues,
        hJ.joint.removal_read hside hdoc⟩, ?_⟩
      rw [copy, hprevious]
      refine .bind (((carries_removal w desired s₀).all deadline
        (nodup_removalActions hsound.apart)
        (fun planned hplanned => needs_of_mem_removalActions hplanned w) hlegible
        hsound.dated).mono ?_)
      rintro attempt g ⟨rfl, houtcome, hlegible', hdated⟩
      cases hall : attempt.failures.isEmpty with
      | true =>
          have hcleared := houtcome.cleared (List.isEmpty_iff.1 hall)
          have hnone : ∀ p, (attempt.state.slot p).Tells none := by
            intro p
            obtain ⟨hspec, hunconfirmed⟩ := hcleared p
            obtain ⟨named, htells, -⟩ := hlegible' p
            obtain ⟨-, ⟨-, rfl⟩ | ⟨u, other, hu, -⟩⟩ := htells.of_none hspec
            · exact htells
            · rw [hunconfirmed] at hu
              cases hu
          refine .bind (((concludes_removal w desired s₀).delete hnone).mono fun outcome g hg => ?_)
          cases outcome <;> exact .pure (.pure hg)
      | false =>
          refine .bind (((concludes_removal w desired s₀).save (houtcome.frame.1.trans hown)
            (fun _ => rfl) hdated fun hJ => hJ.directory ▸ hlegible').mono fun outcome g hg => ?_)
          cases outcome <;> exact .pure (.pure hg)

end Callbacks

/-! ## Every order of the requests -/

/-- At the start, where every holder is on record, the callbacks stand as they can. -/
theorem overlapping_start {w : String} {s : Site Fleet} (orderly : s.Orderly w)
    (recorded : s.Recorded w) (desired : WorkflowSpec) {m : Standing}
    (hm : m = .waiting ∨ m = .finished) : Overlapping w desired s [] m .waiting s := by
  have hcovered := orderly.recorded_iff.1 recorded
  refine ⟨orderly, rfl, .refl s.side, ?_⟩
  rcases hm with rfl | rfl
  · refine .before (by simp) (by simp) rfl (fun p => .kept rfl fun hheard => ?_) hcovered
    exact absurd hheard (Fleet.not_heardRemoval_self s.side w p)
  · exact .unread (by simp) hcovered

/-- The removal ended over a pass that had placed something: it took a turn before some turn of the
pass and the last turn of all, and an agent holds a pipeline that the record at the start does not
name it for, or whose removal was heard of since. -/
def Overtaken (w : String) (turns : List Turn) (s s' : Site Fleet) : Prop :=
  [Turn.second, .first].Sublist turns ∧ turns.getLast? = some .second ∧
    ∃ name p, s'.side.Holds name w p ∧
      ((¬ ∃ doc, s.document w = some doc ∧ doc.Names name p) ∨ HeardRemoval s.side s'.side w p)

/-- Once both callbacks have ended, every holder is on record exactly unless the pass was
overtaken. -/
theorem Overlapping.recorded_iff {w : String} {desired : WorkflowSpec} {s s' : Site Fleet}
    {turns : List Turn}
    (h : Overlapping w desired s turns.reverse .finished .finished s')
    (legible : (s.copy w).Legible s.side.directory) :
    s'.Recorded w ↔ ¬ Overtaken w turns s s' := by
  have hcrossed : Turn.Crossed turns.reverse ↔ [Turn.second, .first].Sublist turns := by
    rw [← List.reverse_sublist]
    rfl
  rw [h.orderly.recorded_iff]
  cases h.joint with
  | alone hm _ => exact absurd rfl hm
  | settled hturns covered =>
      rw [hcrossed, List.head?_reverse] at hturns
      exact ⟨fun _ hover => hturns ⟨hover.1, hover.2.1⟩, fun _ => covered⟩
  | @overtaken b hturns last traced told =>
      rw [hcrossed] at hturns
      rw [List.head?_reverse] at last
      -- What the document tells at the end is what the removal's working copy told.
      have hkept : ∀ name p, s'.side.Holds name w p → (((s'.copy w).slot p).Tells (some name) ↔
          (∃ doc, s.document w = some doc ∧ doc.Names name p) ∧
            ¬ HeardRemoval s.side s'.side w p) := by
        intro name p hholds
        rw [names_iff_copy legible, ← (traced p).tells_iff hholds]
        refine ⟨fun htells => ?_, told p _⟩
        obtain ⟨named, hnamed⟩ : ∃ named, (b.slot p).Tells named := by
          cases traced p with
          | kept same _ =>
              obtain ⟨named, htells, -⟩ := legible p
              exact ⟨named, same ▸ htells⟩
          | gone lacks _ => exact ⟨none, lacks⟩
        rwa [← (told p _ hnamed).unique htells]
      constructor
      · rintro covered ⟨-, -, name, p, hholds, hlost⟩
        obtain ⟨hnamed, hunheard⟩ := (hkept name p hholds).1 (covered name p hholds)
        exact hlost.elim (fun hnot => hnot hnamed) hunheard
      · intro hover name p hholds
        refine (hkept name p hholds).2 ⟨?_, fun hheard => ?_⟩
        · by_contra hnot
          exact hover ⟨hturns, last, name, p, hholds, .inl hnot⟩
        · exact hover ⟨hturns, last, name, p, hholds, .inr hheard⟩

/-- **What a removal loses of a pass.** From a site where every holder of the workflow is on record, a
callback about its manifest and a callback about the manifest being gone run side by side, with their
requests in any order and with any outcomes of the calls. Once both have ended every holder is on
record again, exactly unless the pass was overtaken. -/
theorem recorded_iff_not_overtaken {s : Site Fleet} {key w : String}
    (name : workflowName? key = some w) (orderly : s.Orderly w) (recorded : s.Recorded w)
    (deadline : Span) (data : Bytes) {turns : List Turn} {there gone : Except Failure Unit}
    {s' : Site Fleet}
    (hrun : Program.interleave (answer Fleet.side) turns (handleManifest deadline key data)
      (handleRemoval deadline key) s = some ((there, gone), s')) :
    s'.Recorded w ↔ ¬ Overtaken w turns s s' := by
  obtain ⟨desired, m, hm, hkeeps⟩ := keeps_pass deadline name data
  obtain ⟨m', r, hend, rfl, rfl⟩ := Program.interleave_keeps
    (I := fun past m r s' => Overlapping w desired s past m r s') hkeeps
    (keeps_handleRemoval deadline name) (overlapping_start orderly recorded desired hm) hrun
  rw [List.append_nil] at hend
  exact hend.recorded_iff orderly.legible

/-- Where the pass ends last, the pipeline that it scheduled is on record. -/
theorem recorded_when_pass_ends_last :
    let manifest := fun names : List String => WorkflowSpec.ofPipelines "wf1"
      (names.map fun p => (p, ⟨[.manual], [], .empty, []⟩))
    let s := (start (Fleet.ofNames ["agent-a", "agent-b"] []
      [some "agent-a", some "agent-b"])).after .zero
        [.manifest "workflows/wf1" (manifest ["a"]).encode]
    let turns := List.replicate 3 Turn.second ++ List.replicate 5 Turn.first ++
      [.second, .first, .first]
    ∃ outcomes s', Program.interleave (answer Fleet.side) turns
        (handleManifest .zero "workflows/wf1" (manifest ["a", "b"]).encode)
        (handleRemoval .zero "workflows/wf1") s = some (outcomes, s') ∧
      s'.side.Holds "agent-b" "wf1" "b" ∧ s'.Recorded "wf1" := by
  intro manifest s turns
  have accounted : s.Accounted := (fresh_start (by simp) _ _).accounted.after .zero _
  have recorded : s.Recorded "wf1" := fun _ _ hholds => accounted.names hholds
  have name : workflowName? "workflows/wf1" = some "wf1" := by decide +kernel
  have hheld : ((Program.interleave (answer Fleet.side) turns
      (handleManifest .zero "workflows/wf1" (manifest ["a", "b"]).encode)
      (handleRemoval .zero "workflows/wf1") s).bind
        fun ended => ended.2.side.held "agent-b" "wf1" "b").isSome = true := by
    decide +kernel
  obtain ⟨held, hheld⟩ := Option.isSome_iff_exists.1 hheld
  obtain ⟨⟨outcomes, s'⟩, hrun, hheld⟩ := Option.bind_eq_some_iff.1 hheld
  refine ⟨outcomes, s', hrun, ?_, ?_⟩
  · exact Option.isSome_of_eq_some hheld
  · refine (recorded_iff_not_overtaken name (accounted.orderly "wf1") recorded .zero _ hrun).2 ?_
    rintro ⟨-, hlast, -⟩
    cases hlast

/-- A removal that has called every agent deletes the document after the pass has written it: the
pipeline that the pass scheduled runs on, and no document is left. -/
theorem scheduled_pipeline_lost :
    let manifest := fun names : List String => WorkflowSpec.ofPipelines "wf1"
      (names.map fun p => (p, ⟨[.manual], [], .empty, []⟩))
    let s := (start (Fleet.ofNames ["agent-a", "agent-b"] []
      [some "agent-a", some "agent-b"])).after .zero
        [.manifest "workflows/wf1" (manifest ["a"]).encode]
    let turns := List.replicate 3 Turn.second ++ List.replicate 7 Turn.first ++ [.second]
    s.Recorded "wf1" ∧
      ∃ s', Program.interleave (answer Fleet.side) turns
          (handleManifest .zero "workflows/wf1" (manifest ["a", "b"]).encode)
          (handleRemoval .zero "workflows/wf1") s = some ((.ok (), .ok ()), s') ∧
        s'.side.Holds "agent-b" "wf1" "b" ∧ s'.document "wf1" = none ∧ ¬ s'.Recorded "wf1" := by
  intro manifest s turns
  have accounted : s.Accounted := (fresh_start (by simp) _ _).accounted.after .zero _
  refine ⟨fun _ _ hholds => accounted.names hholds, ?_⟩
  have hends : (Program.interleave (answer Fleet.side) turns
      (handleManifest .zero "workflows/wf1" (manifest ["a", "b"]).encode)
      (handleRemoval .zero "workflows/wf1") s).map
        (fun ended => (ended.1, (ended.2.side.held "agent-b" "wf1" "b").isSome,
          ended.2.document "wf1")) = some ((.ok (), .ok ()), true, none) := by
    decide +kernel
  obtain ⟨⟨outcomes, s'⟩, hrun, hends⟩ := Option.map_eq_some_iff.1 hends
  obtain ⟨rfl, hheld, hnone⟩ : outcomes = (.ok (), .ok ()) ∧
      (s'.side.held "agent-b" "wf1" "b").isSome = true ∧ s'.document "wf1" = none := by
    simpa using hends
  refine ⟨s', hrun, hheld, hnone, fun recorded => ?_⟩
  obtain ⟨doc, hdoc, -⟩ := recorded _ _ hheld
  rw [hnone] at hdoc
  cases hdoc

end FleetControl.Site
