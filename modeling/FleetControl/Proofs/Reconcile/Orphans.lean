import FleetControl.Proofs.Reconcile.Removals
import Mathlib.Data.Set.List

/-!
# The walk over orphans

The callback for orphans goes through the status documents in the order of their keys and removes the
workflows whose manifest is not live. When every agent accepts, a removal deletes the document and the
walk goes on. But the first document without a manifest that cannot be read ends the walk: what comes
after it stays on its agents.

* `Host.Walk` — a walk, turn by turn; `Host.completes_removeOrphans` — the callback makes one;
* `Host.Walk.serves` — what a walk leaves alone;
* `Host.Walk.swept` — what it removes, up to the document that it ends at;
* `Host.orphans_removed_up_to_garbled` — the callback for orphans;
* `Host.orphan_behind_garbled_document` — an orphan that is never reached.
-/

namespace FleetControl

open Control (Calm Opens Sent)
open Simulation (Backend)

namespace Host

variable {τ : Type} {s s' s'' : Host τ} {W : String → Prop} {w : String}
variable {log more : List Exchange}

/-! ## Workflows of a walk -/

/-- A workflow has this live document and no live manifest, at every instant that the clock shows from
now on. -/
structure Orphan (s : Host τ) (w : String) (e : Entry) : Prop where
  live : ∀ t ∈ s.clock, s.store.live? t.val (statusKey w) = some e
  deserted : ∀ t ∈ s.clock, s.store.live? t.val (workflowKey w) = none

/-- At some instants, the manifest of a workflow is not live, and its document is live and can be
read. -/
def Removable (s : Host τ) (w : String) : Prop := s.Orphaned w ∧ ∃ doc, s.Reads w doc

/-- At some instants, the manifest of a workflow is not live, and its document is live and cannot be
read. -/
def Obstructs (s : Host τ) (w : String) : Prop :=
  s.Orphaned w ∧ ∃ t ∈ s.clock, ∃ e, s.store.live? t.val (statusKey w) = some e ∧
    WorkflowStatus.decode? e.data = none

/-- The manifest or the document of a workflow is dead, and the end of its grace has no date. -/
def Undated (s : Host τ) (w : String) : Prop :=
  ∃ t ∈ s.clock,
    ¬ (s.store.DatableAt t.val (workflowKey w) ∧ s.store.DatableAt t.val (statusKey w))

/-- If a workflow is an orphan, its document was read and it is removed. -/
def Cleared (s : Host τ) (log : List Exchange) (s' : Host τ) (w : String) : Prop :=
  ∀ e, s.Orphan w e → ∃ doc, WorkflowStatus.decode? e.data = some doc ∧ s'.Removed log w doc

/-- The document of a workflow is left alone, and no agent is called about the workflow. -/
structure Untouched (s : Host τ) (log : List Exchange) (s' : Host τ) (w : String) : Prop where
  kept : s.Leaves s' (statusKey w)
  quiet : ∀ agent action request reply,
    Sent log agent action request reply → request.workflow ≠ w

/-- An entry that cannot be read is not removed. -/
theorem not_removable {e : Entry} (hentry : s.store.entry? (statusKey w) = some e)
    (hgarbled : WorkflowStatus.decode? e.data = none) : ¬ s.Removable w := by
  rintro ⟨-, doc, t, -, e', hlive, hread⟩
  have hentry' := ((Backend.live?_eq_some_iff _ _ _ _).1 hlive).1
  obtain rfl := Option.some.inj (hentry.symm.trans hentry')
  rw [hgarbled] at hread
  cases hread

theorem Obstructs.not_removable (h : s.Obstructs w) : ¬ s.Removable w := by
  obtain ⟨-, t, -, e, hlive, hgarbled⟩ := h
  exact Host.not_removable ((Backend.live?_eq_some_iff _ _ _ _).1 hlive).1 hgarbled

/-! ## Before and after -/

namespace Spares

/-- The key of a document of another workflow. -/
private theorem ne_of_not (hw : ¬ W w) : ∀ v, W v → statusKey w ≠ statusKey v := by
  rintro v hv heq
  exact hw (statusKey_inj heq ▸ hv)

private theorem manifest_ne (v : String) (_ : W v) : workflowKey w ≠ statusKey v :=
  workflowKey_ne_statusKey w v

theorem orphaned_before (h : Spares W s s') (horphaned : s'.Orphaned w) : s.Orphaned w := by
  obtain ⟨t, ht, hdead⟩ := horphaned
  exact h.dead_before manifest_ne ht hdead

theorem reads_before (h : Spares W s s') (hw : ¬ W w) {doc : WorkflowStatus}
    (hreads : s'.Reads w doc) : s.Reads w doc := by
  obtain ⟨t, ht, e, hlive, hread⟩ := hreads
  exact ⟨t, h.clock ht, e, h.live?_before (ne_of_not hw) hlive, hread⟩

theorem removable_before (h : Spares W s s') (hw : ¬ W w) (hremovable : s'.Removable w) :
    s.Removable w :=
  ⟨h.orphaned_before hremovable.1, hremovable.2.imp fun _ hreads => h.reads_before hw hreads⟩

theorem obstructs_before (h : Spares W s s') (hw : ¬ W w) (hobstructs : s'.Obstructs w) :
    s.Obstructs w := by
  obtain ⟨horphaned, t, ht, e, hlive, hgarbled⟩ := hobstructs
  exact ⟨h.orphaned_before horphaned, t, h.clock ht, e, h.live?_before (ne_of_not hw) hlive,
    hgarbled⟩

/-- What has its dates keeps them. -/
theorem datableAt (h : Spares W s s') {key : String} (hkey : ∀ v, W v → key ≠ statusKey v)
    {now : Instant} (hdatable : s.store.DatableAt now key) : s'.store.DatableAt now key := by
  intro e he
  rw [h.grace]
  rcases h.entry key hkey with hsame | ⟨_, _, _, _, _, hnone⟩
  · exact hdatable e (hsame ▸ he)
  · rw [hnone] at he
    cases he

theorem undated_before (h : Spares W s s') (hw : ¬ W w) (hundated : s'.Undated w) :
    s.Undated w := by
  obtain ⟨t, ht, hnot⟩ := hundated
  refine ⟨t, h.clock ht, mt ?_ hnot⟩
  exact fun ⟨hmanifest, hdocument⟩ =>
    ⟨h.datableAt manifest_ne hmanifest, h.datableAt (ne_of_not hw) hdocument⟩

/-- An orphan stays one while nothing is done for it. -/
theorem orphan_after (h : Spares W s s') (hw : ¬ W w) {e : Entry} (horphan : s.Orphan w e) :
    s'.Orphan w e := by
  refine ⟨fun t ht => ?_, fun t ht => ?_⟩
  · have hlive := horphan.live t (h.clock ht)
    rcases h.entry _ (ne_of_not hw) with hsame | ⟨e', t', ht', hentry, hgone, -⟩
    · unfold Backend.live? at hlive ⊢
      rwa [hsame, h.grace]
    · -- What is live all the time is not gone at any.
      obtain ⟨hentry', hstage⟩ := (Backend.live?_eq_some_iff _ _ _ _).1 (horphan.live t' ht')
      obtain rfl := Option.some.inj (hentry.symm.trans hentry')
      rw [hgone] at hstage
      cases hstage
  · by_contra hlive
    obtain ⟨e', he'⟩ := Option.ne_none_iff_exists'.1 hlive
    cases (horphan.deserted t (h.clock ht)).symm.trans (h.live?_before manifest_ne he')

end Spares

/-- What is not served is left alone. -/
theorem Serves.untouched (h : Serves W s log s') (hw : ¬ W w) : s.Untouched log s' w :=
  ⟨h.spares.entry _ (Spares.ne_of_not hw), fun agent action request reply hsent hown =>
    hw (hown ▸ h.about agent action request reply hsent)⟩

/-- What was removed stays so, and its executors were told, while other workflows are served that can
be removed. -/
theorem Removed.after {doc : WorkflowStatus} (h : s'.Removed log w doc)
    (serves : Serves W s' more s'') (hremovable : ∀ v, W v → s'.Removable v) :
    s''.Removed (log ++ more) w doc := by
  have hw : ¬ W w := by
    intro hw
    obtain ⟨-, _, t, -, e, hlive, -⟩ := hremovable w hw
    rw [h.gone] at hlive
    cases hlive
  refine ⟨fun now => ?_, fun name p hname => ?_⟩
  · by_contra hlive
    obtain ⟨e, he⟩ := Option.ne_none_iff_exists'.1 hlive
    cases (h.gone now).symm.trans (serves.spares.live?_before (Spares.ne_of_not hw) he)
  · obtain ⟨spec, report, hsent⟩ := h.told name p hname
    exact ⟨spec, report, hsent.mono (List.prefix_append _ _).isInfix⟩

theorem Cleared.after (h : s.Cleared log s' w) (serves : Serves W s' more s'')
    (hremovable : ∀ v, W v → s'.Removable v) : s.Cleared (log ++ more) s'' w := fun e he =>
  (h e he).imp fun _ hdoc => ⟨hdoc.1, hdoc.2.after serves hremovable⟩

/-- A workflow that is cleared later on was not touched before. -/
theorem Cleared.before (serves : Serves W s log s') (hw : ¬ W w) (h : s'.Cleared more s'' w) :
    s.Cleared (log ++ more) s'' w := by
  intro e he
  obtain ⟨doc, hread, hremoved⟩ := h e (serves.spares.orphan_after hw he)
  refine ⟨doc, hread, hremoved.gone, fun name p hname => ?_⟩
  obtain ⟨spec, report, hsent⟩ := hremoved.told name p hname
  exact ⟨spec, report, hsent.mono (List.suffix_append _ _).isInfix⟩

/-! ## Walks -/

/-- A walk over workflows, turn by turn. -/
inductive Walk : Host τ → List String → List Exchange → Option (Except ControlError Unit) →
    Host τ → Prop
  | ended {s : Host τ} : Walk s [] [] (some (.ok ())) s
  /-- The turn of a workflow, and the rest of the walk. -/
  | passed {s s' s'' : Host τ} {w : String} {ws : List String} {log more : List Exchange}
      {outcome : Option (Except ControlError Unit)}
      (serves : Serves (fun v => v = w ∧ s.Removable v) s log s') (cleared : s.Cleared log s' w)
      (rest : Walk s' ws more outcome s'') : Walk s (w :: ws) (log ++ more) outcome s''
  /-- The document cannot be read. -/
  | stopped {s s' : Host τ} {w : String} {ws : List String} {log : List Exchange}
      (serves : Serves (fun v => v = w ∧ s.Removable v) s log s') (obstructs : s.Obstructs w) :
      Walk s (w :: ws) log (some (.error .json)) s'
  | broken {s s' : Host τ} {w : String} {ws : List String} {log : List Exchange}
      (serves : Serves (fun v => v = w ∧ s.Removable v) s log s') (undated : s.Undated w) :
      Walk s (w :: ws) log none s'

namespace Walk

variable {ws : List String} {outcome : Option (Except ControlError Unit)}

/-- **A walk serves only what can be removed.** -/
theorem serves (h : Walk s ws log outcome s') : Serves s.Removable s log s' := by
  induction h with
  | ended => exact .of_calm .nil (.refl _ _)
  | @passed s s' s'' w ws log more outcome serves _ _ ih =>
      refine (serves.mono fun v hv => hv.2).trans (ih.mono fun v hv => ?_)
      by_cases hw : v = w ∧ s.Removable v
      · exact hw.2
      · exact serves.spares.removable_before hw hv
  | stopped serves | broken serves => exact serves.mono fun v hv => hv.2

end Walk

/-- What a walk comes to: everything is cleared, or everything before the document that it ends at. -/
inductive Swept (s : Host τ) (ws : List String) (log : List Exchange) (s' : Host τ) :
    Option (Except ControlError Unit) → Prop
  | all (cleared : ∀ w ∈ ws, s.Cleared log s' w) : Swept s ws log s' (some (.ok ()))
  | part {w₀ : String} (walked : w₀ ∈ ws) (obstructs : s.Obstructs w₀)
      (cleared : ∀ w ∈ ws, statusKey w < statusKey w₀ → s.Cleared log s' w)
      (serves : Serves (fun v => statusKey v < statusKey w₀ ∧ s.Removable v) s log s') :
      Swept s ws log s' (some (.error .json))
  | broken {w₀ : String} (walked : w₀ ∈ ws) (undated : s.Undated w₀) : Swept s ws log s' none

/-- Nothing changes what a sweep comes to if the store is only looked at before. -/
theorem Swept.before {ws : List String} {outcome : Option (Except ControlError Unit)}
    (h : s'.Swept ws more s'' outcome) (hcalm : Calm log) (hspares : ∀ W, Spares W s s') :
    s.Swept ws (log ++ more) s'' outcome := by
  have hnobody := hspares fun _ => False
  have hlooked : Serves (fun _ => False) s log s' := .of_calm hcalm hnobody
  cases h with
  | all cleared => exact .all fun w hw => (cleared w hw).before hlooked id
  | part walked obstructs cleared serves =>
      refine .part walked (hnobody.obstructs_before id obstructs)
        (fun w hw hlt => (cleared w hw hlt).before hlooked id) ?_
      exact (Serves.of_calm hcalm (hspares _)).trans
        (serves.mono fun v hv => ⟨hv.1, hnobody.removable_before id hv.2⟩)
  | broken walked undated => exact .broken walked (hnobody.undated_before id undated)

namespace Walk

variable {ws : List String} {outcome : Option (Except ControlError Unit)}

/-- **A walk in the order of the keys** clears what comes before the document that it ends at. -/
theorem swept (h : Walk s ws log outcome s')
    (hsorted : (ws.map statusKey).Pairwise (· < ·)) : s.Swept ws log s' outcome := by
  induction h with
  | ended => exact .all fun w hw => by cases hw
  | @stopped s s' w ws log serves obstructs =>
      obtain ⟨hfirst, -⟩ := List.pairwise_cons.1 hsorted
      refine .part List.mem_cons_self obstructs (List.forall_mem_cons.2 ⟨?_, ?_⟩) (serves.mono ?_)
      · exact fun hlt => absurd hlt (String.lt_irrefl _)
      · exact fun v hv hlt => absurd hlt (String.lt_asymm (hfirst _ (List.mem_map_of_mem hv)))
      · rintro v ⟨rfl, hremovable⟩
        exact absurd hremovable obstructs.not_removable
  | broken _ undated => exact .broken List.mem_cons_self undated
  | @passed s s' s'' w ws log more outcome serves cleared rest ih =>
      obtain ⟨hfirst, hrest⟩ := List.pairwise_cons.1 hsorted
      -- The others have not had their turn before.
      have hlater : ∀ v ∈ ws, ¬ (v = w ∧ s.Removable v) := by
        rintro v hv ⟨rfl, -⟩
        exact String.lt_irrefl _ (hfirst _ (List.mem_map_of_mem hv))
      cases ih hrest with
      | all others =>
          refine .all (List.forall_mem_cons.2 ⟨?_, fun v hv => ?_⟩)
          · exact cleared.after rest.serves fun _ hv => hv
          · exact (others v hv).before serves (hlater v hv)
      | @part w₀ walked obstructs others after =>
          have hbefore := hfirst _ (List.mem_map_of_mem walked)
          refine .part (List.mem_cons_of_mem _ walked)
            (serves.spares.obstructs_before (hlater w₀ walked) obstructs)
            (List.forall_mem_cons.2 ⟨fun _ => ?_, fun v hv hlt => ?_⟩)
            ((serves.mono ?_).trans (after.mono ?_))
          · exact cleared.after after fun _ hv => hv.2
          · exact (others v hv hlt).before serves (hlater v hv)
          · rintro v ⟨rfl, hremovable⟩
            exact ⟨hbefore, hremovable⟩
          · rintro v ⟨hlt, hremovable⟩
            by_cases hw : v = w ∧ s.Removable v
            · exact ⟨hlt, hw.2⟩
            · exact ⟨hlt, serves.spares.removable_before hw hremovable⟩
      | broken walked undated =>
          exact .broken (List.mem_cons_of_mem _ walked)
            (serves.spares.undated_before (hlater _ walked) undated)

end Walk

/-! ## The callback for orphans -/

section

variable {agents : AgentSide τ} {known : String → Prop} {ready : τ → Prop} (deadline : Span)

variable (agents) in
/-- A program completes a walk over workflows from a state, after some exchanges. -/
def Completes (s : Host τ) (ws : List String) (log : List Exchange) (s₁ : Host τ)
    (p : Control (Except ControlError (List String))) : Prop :=
  ∃ outcome s', p.exec (answer agents) s₁ = (outcome, s') ∧
    Walk s ws (log ++ p.exchanges (answer agents) s₁)
      (outcome.map fun names => names.map fun _ => ()) s'

/-- **The turn of a workflow without a manifest**, and the rest of the walk. The store has been looked
at before. -/
theorem completes_from_turn (accepts : agents.Accepts known ready) {s₁ : Host τ}
    (hready : ready s₁.side) (hknown : ∀ doc name p, s.Reads w doc → doc.Names name p → known name)
    (horphaned : s.Orphaned w) (hcalm : Calm log) (hspares : ∀ W, Spares W s s₁)
    {rest : List Snapshot} {ws : List String}
    (hrest : ∀ log s₂, Serves (fun v => v = w ∧ s.Removable v) s log s₂ → ready s₂.side →
      Completes agents s₂ ws [] s₂ (removeOrphans deadline rest)) :
    Completes agents s (w :: ws) log s₁ (removeWorkflow deadline w >>= fun outcome =>
      match outcome with
      | .error e => pure (.error e)
      | .ok report => removeOrphans deadline rest >>= fun more =>
        pure (more.map fun names => if report.converged then w :: names else names)) := by
  have hnobody := hspares fun _ => False
  obtain ⟨removed, s₂, hexec, hremoval, hserves⟩ := removal (w := w) deadline accepts hready
    fun doc name p hreads => hknown doc name p (hnobody.reads_before id hreads)
  have hready₂ := accepts.exec (removeWorkflow deadline w) hready
  rw [hexec] at hready₂
  have hturn := (Serves.of_calm hcalm (hspares fun v => v = w ∧ s.Removable v)).trans
    (hserves.mono fun v hv => ⟨hv.1, hv.1 ▸ horphaned,
      hv.2.imp fun _ hreads => hnobody.reads_before id hreads⟩)
  unfold Completes
  rw [Program.exec_bind, Program.exchanges_bind, hexec, ← List.append_assoc]
  cases hremoval with
  | ended cleared =>
      simp only
      obtain ⟨outcome, s', hwalked, hwalk⟩ := hrest _ s₂ hturn hready₂
      rw [Program.exec_bind_pure, Program.exchanges_bind_pure, hwalked]
      refine ⟨_, s', rfl, ?_⟩
      have hsame : ∀ f : List String → List String, (outcome.map fun more => more.map f).map
          (fun names => names.map fun _ => ()) = outcome.map fun names => names.map fun _ => () := by
        intro f
        rcases outcome with _ | _ | _ <;> rfl
      rw [hsame]
      refine .passed hturn (Cleared.before (.of_calm hcalm hnobody) id ?_) hwalk
      exact fun e horphan => cleared e horphan.live
  | garbled shown live decoded =>
      exact ⟨_, _, rfl, .stopped (hturn.trans (.of_calm .nil (.refl _ _)))
        ⟨horphaned, _, hnobody.clock shown, _, hnobody.live?_before (fun _ h => h.elim) live,
          decoded⟩⟩
  | broken shown undatable =>
      exact ⟨_, _, rfl, .broken (hturn.trans (.of_calm .nil (.refl _ _)))
        (hnobody.undated_before id ⟨_, shown, fun hdated => undatable hdated.2⟩)⟩

/-- **The turn of a workflow** begins with a look for its manifest. -/
theorem completes_from_look (accepts : agents.Accepts known ready) (hready : ready s.side)
    (hknown : ∀ doc name p, s.Reads w doc → doc.Names name p → known name) {kv : Snapshot}
    (hkey : kv.key = statusKey w) (hdead : kv.dead = false) {rest : List Snapshot}
    {ws : List String}
    (hrest : ∀ log s₂, Serves (fun v => v = w ∧ s.Removable v) s log s₂ → ready s₂.side →
      Completes agents s₂ ws [] s₂ (removeOrphans deadline rest)) :
    Completes agents s (w :: ws) [] s (removeOrphans deadline (kv :: rest)) := by
  have hnow := s.now_tick_mem_clock
  obtain ⟨looked, b, hlook, hsheds, hfound⟩ := looks agents s (workflowKey w)
  have hcalm : Calm ((Control.contains (workflowKey w)).exchanges (answer agents) s) :=
    Control.calm_of_only (.request rfl) _ s
  have hspares : ∀ W, Spares W s { s.tick with store := b } := fun W => .of_sheds hsheds
  have hready₁ : ready ({ s.tick with store := b } : Host τ).side := by
    rw [tick_side]
    exact hready
  rw [removeOrphans_cons hkey hdead]
  unfold Completes
  rw [Program.exec_bind, Program.exchanges_bind, hlook, List.nil_append]
  rcases hfound with ⟨rfl, hundatable⟩ | rfl
  · exact ⟨_, _, rfl, .broken (.of_calm (hcalm.append .nil) (hspares _))
      ⟨_, hnow, fun hdated => hundatable hdated.1⟩⟩
  · cases hmanifest : s.store.live? s.tick.now (workflowKey w) with
    | some e =>
        have hlooked : Serves (fun v => v = w ∧ s.Removable v) s _ _ := .of_calm hcalm (hspares _)
        obtain ⟨outcome, s', hexec, hwalk⟩ := hrest _ _ hlooked hready₁
        refine ⟨outcome, s', hexec, .passed hlooked (fun e' horphan => ?_) hwalk⟩
        cases (horphan.deserted _ hnow).symm.trans hmanifest
    | none =>
        exact completes_from_turn deadline accepts hready₁ hknown ⟨_, hnow, hmanifest⟩ hcalm hspares
          hrest

/-- **The walk over documents** whose agents accept every removal. -/
theorem completes_removeOrphans (accepts : agents.Accepts known ready) {found : List Snapshot}
    {ws : List String} (hws : (found.filter fun kv => !kv.dead).map (·.key) = ws.map statusKey)
    (hnodup : ws.Nodup) (hready : ready s.side)
    (hknown : ∀ w ∈ ws, ∀ doc name p, s.Reads w doc → doc.Names name p → known name) :
    Completes agents s ws [] s (removeOrphans deadline found) := by
  induction found generalizing s ws with
  | nil =>
      obtain rfl : ws = [] := List.map_eq_nil_iff.1 hws.symm
      exact ⟨_, _, rfl, .ended⟩
  | cons kv rest ih =>
      cases hdead : kv.dead with
      | true =>
          rw [List.filter_cons_of_neg (by simp [hdead])] at hws
          rw [removeOrphans, if_pos hdead]
          exact ih hws hnodup hready hknown
      | false =>
          rw [List.filter_cons_of_pos (by simp [hdead]), List.map_cons] at hws
          cases ws with
          | nil => cases hws
          | cons w ws =>
              obtain ⟨hkey, hothers⟩ := List.cons.inj hws
              obtain ⟨hturn, hdistinct⟩ := List.nodup_cons.1 hnodup
              obtain ⟨hown, hlater⟩ := List.forall_mem_cons.1 hknown
              refine completes_from_look deadline accepts hready hown hkey hdead ?_
              intro log s₂ serves hready₂
              refine ih hothers hdistinct hready₂ fun v hv doc name p hreads => ?_
              -- What is read later on was there before.
              refine hlater v hv doc name p (serves.spares.reads_before ?_ hreads)
              rintro ⟨rfl, -⟩
              exact hturn hv

/-- The documents that a scan shows, in their order: every orphan is among them. -/
theorem listed {found : List Snapshot} {b : Backend}
    (hlist : s.store.apply s.tick.now (.list statusScope) = (.answer found, b)) :
    ∃ ws : List String, (found.filter fun kv => !kv.dead).map (·.key) = ws.map statusKey ∧
      (ws.map statusKey).Pairwise (· < ·) ∧ ∀ w e, s.Orphan w e → w ∈ ws := by
  have hmem := Backend.mem_list_iff hlist
  have hkeys : (found.filter fun kv => !kv.dead).map (·.key) ∈ Set.range (List.map statusKey) := by
    rw [Set.range_list_map]
    intro key hkey
    obtain ⟨kv, hkv, rfl⟩ := List.mem_map.1 hkey
    obtain ⟨w, hw⟩ := exists_statusKey ((hmem kv).1 (List.mem_filter.1 hkv).1).2.1
    exact ⟨w, hw.symm⟩
  obtain ⟨ws, hws⟩ := hkeys
  refine ⟨ws, hws.symm, ?_, fun w e horphan => ?_⟩
  · rw [hws]
    exact (Backend.pairwise_list hlist).sublist (List.filter_sublist.map _)
  · have hlive := horphan.live _ s.now_tick_mem_clock
    obtain ⟨-, hshown⟩ := (Backend.live?_eq_some_iff_shown _ _ _ _).1 hlive
    have hunder : under statusScope (statusKey w) = true := by
      rw [under, List.isPrefixOf_iff_prefix, statusKey, String.toList_append]
      exact List.prefix_append _ _
    have hscans : s.store.scans statusScope = true := by
      cases s.store with
      | memory m => rfl
      | table t =>
          have hnul : statusScope.toList.contains (Char.ofNat 0) = false := by decide
          simp only [Backend.scans, hnul, Bool.not_false]
    have hfound : e.snapshot (statusKey w) .live ∈ found := (hmem _).2 ⟨hscans, hunder, hshown⟩
    have hkey : statusKey w ∈ ws.map statusKey := by
      rw [hws]
      exact List.mem_map.2 ⟨_, List.mem_filter.2 ⟨hfound, rfl⟩, rfl⟩
    obtain ⟨v, hv, heq⟩ := List.mem_map.1 hkey
    exact statusKey_inj heq ▸ hv

/-- A scan breaks off only at a workflow that is dead without a date. -/
theorem undated_of_list {b : Backend}
    (hlist : s.store.apply s.tick.now (.list statusScope) = (.undatable, b)) :
    ∃ w, s.Undated w := by
  by_contra hdated
  have hdatable : ∀ key, under statusScope key = true → s.store.DatableAt s.tick.now key := by
    intro key hunder
    obtain ⟨w, rfl⟩ := exists_statusKey hunder
    by_contra hnot
    exact hdated ⟨w, _, s.now_tick_mem_clock, fun h => hnot h.2⟩
  obtain ⟨found, hfound⟩ :=
    (Backend.list_answers_iff _ _ _).2 fun _ key hunder => hdatable key hunder
  rw [hlist] at hfound
  cases hfound

/-- **Orphans are removed up to the first document that cannot be read.** Take any store in either
backend, and agents of which every call is accepted and every executor that a document names is known.
The callback for orphans leaves alone, with no call about it, every workflow whose manifest is there
all the time or whose document cannot be read. Unless it breaks off for want of a date, it ends with
names, and every orphan could be read and is removed, after its executors were sent the removal of
its pipelines and accepted it; or it ends with an error at an orphan whose document cannot be read,
every orphan before that one could be read and is removed, and everything from there on is left
alone. -/
theorem orphans_removed_up_to_garbled (accepts : agents.Accepts known ready) (hready : ready s.side)
    (hknown : ∀ w doc name p, s.Reads w doc → doc.Names name p → known name) :
    let log := (reconcileOrphans deadline).exchanges (answer agents) s
    ∃ outcome s', (reconcileOrphans deadline).exec (answer agents) s = (outcome, s') ∧
      (∀ w, ¬ s.Removable w → s.Untouched log s' w) ∧
      ((outcome = none ∧ ∃ w, s.Undated w) ∨
        (∃ names, outcome = some (.ok names) ∧ ∀ w, s.Cleared log s' w) ∨
        (outcome = some (.error .json) ∧ ∃ w₀, s.Obstructs w₀ ∧
          (∀ w, statusKey w < statusKey w₀ → s.Cleared log s' w) ∧
          ∀ w, ¬ statusKey w < statusKey w₀ → s.Untouched log s' w)) := by
  intro log
  have hcalm : Calm ((Control.list statusScope).exchanges (answer agents) s) :=
    Control.calm_of_only (.request rfl) _ s
  have hsheds := s.store.sheds_list s.tick.now statusScope
  simp only [log]
  unfold reconcileOrphans
  rw [Program.exec_bind, Program.exchanges_bind, exec_list]
  cases hlist : s.store.apply s.tick.now (.list statusScope) with
  | mk reply b =>
      rw [hlist] at hsheds
      have hspares : ∀ W, Spares W s { s.tick with store := b } := fun W => .of_sheds hsheds
      cases reply with
      | refused e => exact absurd hlist (Backend.list_not_refused _ _ _ _ _)
      | undatable =>
          refine ⟨none, _, rfl, fun w hw => ?_, .inl ⟨rfl, undated_of_list hlist⟩⟩
          exact (Serves.of_calm (hcalm.append .nil) (hspares s.Removable)).untouched hw
      | answer found =>
          obtain ⟨ws, hws, hsorted, horphans⟩ := listed hlist
          have hnodup : ws.Nodup := by
            refine List.Nodup.of_map statusKey (hsorted.imp ?_)
            rintro a b hlt rfl
            exact String.lt_irrefl a hlt
          have hnobody := hspares fun _ => False
          have hready₁ : ready ({ s.tick with store := b } : Host τ).side := by
            rw [tick_side]
            exact hready
          obtain ⟨outcome, s', hexec, hwalk⟩ := completes_removeOrphans deadline accepts hws hnodup
            hready₁ fun w _ doc name p hreads => hknown w doc name p (hnobody.reads_before id hreads)
          have hserves := (Serves.of_calm hcalm (hspares s.Removable)).trans
            (hwalk.serves.mono fun v hv => hnobody.removable_before id hv)
          refine ⟨outcome, s', hexec, fun w hw => hserves.untouched hw, ?_⟩
          have hswept := (hwalk.swept hsorted).before hcalm hspares
          rcases outcome with _ | e | names
          · cases hswept with
            | broken walked undated => exact .inl ⟨rfl, _, undated⟩
          · cases hswept with
            | @part w₀ walked obstructs cleared serves =>
                refine .inr (.inr ⟨rfl, w₀, obstructs, fun w hlt e horphan => ?_, fun w hnot => ?_⟩)
                · exact cleared w (horphans w e horphan) hlt e horphan
                · exact serves.untouched fun hw => hnot hw.1
          · cases hswept with
            | all cleared =>
                exact .inr (.inl ⟨names, rfl, fun w e horphan =>
                  cleared w (horphans w e horphan) e horphan⟩)

end

/-- The only document is that of an orphan: its pipeline is removed from its agent, and it is gone. -/
theorem lone_orphan_removed :
    let doc := WorkflowStatus.ofParts (.ofPipelines "wf1" [("a", .empty)])
      (.ofList [("a", ⟨some "agent-a", "scheduled", none⟩)]) .empty none
    let s : Host Fleet := ⟨⟨⟨0, false⟩, by decide⟩, [],
      .table ⟨KeyMap.empty.insert (statusKey "wf1") ⟨doc.encode, 1, none, none⟩, 1,
        defaultGrace.forDates⟩, Fleet.ofNames ["agent-a"] [] []⟩
    let log := (reconcileOrphans .zero).exchanges (answer Fleet.side) s
    ∃ s', (reconcileOrphans .zero).exec (answer Fleet.side) s = (some (.ok ["wf1"]), s') ∧
      (∀ now, s'.store.live? now (statusKey "wf1") = none) ∧ ∃ spec report,
        Sent log "agent-a" .remove (Scheduler.request "wf1" "a" spec) (some (.ok report)) := by
  intro doc s log
  have hread : WorkflowStatus.decode? doc.encode = some doc := by decide +kernel
  have hpass : ((reconcileOrphans .zero).exec (answer Fleet.side) s).1 = some (.ok ["wf1"]) := by
    decide +kernel
  have hready : s.side.Proper ∧ s.side.fates = [] ∧ s.side.directory = s.side.directory :=
    ⟨Fleet.proper_ofNames _ _ (by simp), rfl, rfl⟩
  have hknown : ∀ w doc' name p, s.Reads w doc' → doc'.Names name p →
      s.side.directory.contains name = true := by
    rintro w doc' name p ⟨t, -, e, hlive, hdoc⟩ hname
    -- There is only one document, and it names only one agent.
    have hentry : (KeyMap.empty.insert (statusKey "wf1")
        (⟨doc.encode, 1, none, none⟩ : Entry)).get? (statusKey w) = some e :=
      ((Backend.live?_eq_some_iff _ _ _ _).1 hlive).1
    rw [KeyMap.get?_insert] at hentry
    split at hentry
    · obtain rfl := Option.some.inj hentry
      obtain rfl := Option.some.inj (hread.symm.trans hdoc)
      rcases hname with ⟨-, status, hstatus, hexecutor⟩ | ⟨u, hu, -⟩
      · have hlisted := KeyMap.mem_of_get?_ofList
          (Option.filter_eq_some_iff.1 ((KeyMap.get?_filter _ _ _).symm.trans hstatus)).1
        obtain ⟨-, rfl⟩ := Prod.mk.inj (List.mem_singleton.1 hlisted)
        obtain rfl := Option.some.inj hexecutor
        decide +kernel
      · cases hu
    · cases hentry
  obtain ⟨outcome, s', hexec, -, hcleared⟩ :=
    orphans_removed_up_to_garbled .zero (Fleet.accepts s.side.directory) hready hknown
  rw [hexec] at hpass
  obtain rfl : outcome = _ := hpass
  obtain ⟨hnone, -⟩ | ⟨names, -, hall⟩ | ⟨herror, -⟩ := hcleared
  · cases hnone
  · obtain ⟨doc', hread', hremoved⟩ := hall "wf1" ⟨doc.encode, 1, none, none⟩
      ⟨by decide +kernel, by decide +kernel⟩
    obtain rfl := Option.some.inj (hread.symm.trans hread')
    exact ⟨s', hexec, hremoved.gone, hremoved.told "agent-a" "a" (.inl ⟨rfl, _, rfl, rfl⟩)⟩
  · cases herror

/-- **An orphan that is never reached**: a document without a manifest that cannot be read comes
first, and the walk ends there, before the removal of an orphan that names its executor. -/
theorem orphan_behind_garbled_document :
    let doc := WorkflowStatus.ofParts (.ofPipelines "wf2" [("a", .empty)])
      (.ofList [("a", ⟨some "agent-a", "scheduled", none⟩)]) .empty none
    let s : Host Fleet := ⟨⟨⟨0, false⟩, by decide⟩, [],
      .table ⟨(KeyMap.empty.insert (statusKey "wf1") ⟨[0], 1, none, none⟩).insert (statusKey "wf2")
        ⟨doc.encode, 2, none, none⟩, 2, defaultGrace.forDates⟩, Fleet.ofNames ["agent-a"] [] []⟩
    s.Orphan "wf2" ⟨doc.encode, 2, none, none⟩ ∧
      WorkflowStatus.decode? doc.encode = some doc ∧ doc.Names "agent-a" "a" ∧
      ∃ s', (reconcileOrphans .zero).exec (answer Fleet.side) s = (some (.error .json), s') ∧
        s'.store.live? s'.now (statusKey "wf2") = some ⟨doc.encode, 2, none, none⟩ ∧
        ∀ agent action request reply, ¬ Sent ((reconcileOrphans .zero).exchanges (answer Fleet.side) s)
          agent action request reply := by
  intro doc s
  have hpass : ((reconcileOrphans .zero).exec (answer Fleet.side) s).1 = some (.error .json) := by
    decide +kernel
  have hsent : Control.deliveries ((reconcileOrphans .zero).exchanges (answer Fleet.side) s) = [] := by
    decide +kernel
  refine ⟨⟨by decide +kernel, by decide +kernel⟩, by decide +kernel, .inl ⟨rfl, _, rfl, rfl⟩, _,
    Prod.ext hpass rfl, by decide +kernel, ?_⟩
  intro agent action request reply h
  have hmem := Control.mem_deliveries_iff.2 h
  rw [hsent] at hmem
  cases hmem

end Host

end FleetControl
