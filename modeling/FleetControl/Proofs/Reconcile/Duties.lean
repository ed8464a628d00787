import FleetControl.Proofs.Asked
import FleetControl.Proofs.Site.Documents

/-!
# Duties of callbacks

A callback of the reconciler is for certain workflows, and for each of them about certain pipelines.
It has no business with anything else: the only keys that it writes or deletes are those of the
status documents of its workflows, it writes no document under a key that belongs to another
workflow, and its calls to agents are about its pipelines. All that is a matter of the requests that
it asks. What follows for the store and for the agents holds of any program that asks nothing else,
however it ends.

* `Duty` and `Request.Within` — what a program has to do with, and the requests that stay within it;
* `Backend.Labelled` — every live status document is about the workflow whose key it is at;
* `Host.Leaves` — a key that is left alone, apart from an entry that is gone and may be dropped;
* `AgentSide.Holding` — what agents hold of a pipeline changes by calls about the pipeline only;
* `Host.Orderly.exec`, `Host.minds_of_asked` — what a program does that stays within its duty.
-/

namespace FleetControl

open Simulation (Backend)

/-! ## Requests within a duty -/

/-- What a program has to do with. -/
structure Duty where
  /-- The workflows whose status documents it may write or delete. -/
  workflow : String → Prop
  /-- The pipelines of a workflow about which it may call agents. -/
  pipeline : String → String → Prop

/-- The duty of a callback for one workflow. -/
def Duty.of (w : String) (pipelines : String → Prop) : Duty := ⟨(· = w), fun _ p => pipelines p⟩

/-- An operation deletes the status document of a workflow, or writes one that is about it. -/
def StoreOp.Documents (w : String) : StoreOp → Prop
  | .delete key => key = statusKey w
  | .set key data =>
    key = statusKey w ∧ ∃ doc, WorkflowStatus.decode? data = some doc ∧ doc.name = w
  | _ => False

/-- A request that stays within a duty. -/
def Request.Within (D : Duty) : Request → Prop
  | .store op => op.target? = none ∨ ∃ w, D.workflow w ∧ op.Documents w
  | .call _ _ _ request =>
    D.workflow request.workflow ∧ D.pipeline request.workflow request.pipeline
  | _ => True

theorem StoreOp.Documents.target {w : String} {op : StoreOp} (h : op.Documents w) :
    op.target? = some (statusKey w) := by
  cases op with
  | delete key => exact congrArg some h
  | set key data => exact congrArg some h.1
  | _ => cases h

theorem Request.Within.mono {D D' : Duty} (hworkflow : ∀ w, D.workflow w → D'.workflow w)
    (hpipeline : ∀ w p, D.workflow w → D.pipeline w p → D'.pipeline w p) {r : Request}
    (h : r.Within D) : r.Within D' := by
  cases r with
  | store op => exact h.imp id fun ⟨w, hw, hdocuments⟩ => ⟨w, hworkflow w hw, hdocuments⟩
  | call connection deadline action request =>
      exact ⟨hworkflow _ h.1, hpipeline _ _ h.1 h.2⟩
  | _ => trivial

/-! ## Documents under their own keys -/

namespace Simulation.Backend

variable {b b' : Backend} {now : Instant}

/-- Every live entry at a status key is a document about the workflow of the key. -/
def Labelled (b : Backend) : Prop :=
  ∀ w t e, b.live? t (statusKey w) = some e →
    ∃ doc, WorkflowStatus.decode? e.data = some doc ∧ doc.name = w

/-- Dropping what is gone brings no document up. -/
theorem Labelled.sheds (h : b.Labelled) (hsheds : Sheds now b b') : b'.Labelled := by
  intro w t e hlive
  obtain ⟨hentry, hstage⟩ := (live?_eq_some_iff _ _ _ _).1 hlive
  rw [hsheds.grace] at hstage
  exact h w t e ((live?_eq_some_iff _ _ _ _).2 ⟨hsheds.before hentry, hstage⟩)

/-- A single entry is looked at where one is put in place. -/
theorem Labelled.puts (h : b.Labelled) {key : String} {e : Entry} (hputs : Puts b b' key e)
    (hentry : ∀ w, key = statusKey w → e.deletedAt = none →
      ∃ doc, WorkflowStatus.decode? e.data = some doc ∧ doc.name = w) : b'.Labelled := by
  intro w t e' hlive
  obtain ⟨hfound, hstage⟩ := (live?_eq_some_iff _ _ _ _).1 hlive
  rw [hputs.entry] at hfound
  rw [hputs.grace] at hstage
  split at hfound
  · next hkey =>
    obtain rfl := Option.some.inj hfound
    refine hentry w hkey.symm ?_
    by_contra hdeleted
    exact Entry.stage_ne_live hdeleted _ _ hstage
  · exact h w t e' ((live?_eq_some_iff _ _ _ _).2 ⟨hfound, hstage⟩)

/-- **Reading, and operations on documents,** leave documents under their own keys. -/
theorem Labelled.apply (h : b.Labelled) {op : StoreOp}
    (hop : op.target? = none ∨ ∃ w, op.Documents w) : (b.apply now op).2.Labelled := by
  cases b.effect_apply now op with
  | kept _ sheds => exact h.sheds sheds
  | changed target _ entered _ _ puts =>
      refine h.puts puts fun w hkey hdeleted => ?_
      rcases hop with hread | ⟨w', hdocuments⟩
      · rw [hread] at target
        cases target
      · have hown := Option.some.inj (target.symm.trans hdocuments.target)
        obtain rfl := statusKey_inj (hkey.symm.trans hown)
        cases op with
        | set key data =>
            cases entered
            exact hdocuments.2
        | delete key =>
            obtain ⟨before, -, rfl⟩ := Option.map_eq_some_iff.1 entered
            cases hdeleted
        | _ => cases hdocuments

/-- **Operations on other keys** leave documents as they are. -/
theorem Labelled.apply_elsewhere (h : b.Labelled) {op : StoreOp}
    (hop : ∀ w, op.target? ≠ some (statusKey w)) : (b.apply now op).2.Labelled := by
  cases b.effect_apply now op with
  | kept _ sheds => exact h.sheds sheds
  | changed target _ _ _ _ puts =>
      refine h.puts puts fun w hkey => ?_
      rw [hkey] at target
      exact absurd target (hop w)

end Simulation.Backend

/-! ## What agents hold -/

/-- What agents hold of a pipeline, or know of it, changes by calls about the pipeline only. -/
structure AgentSide.Holding {τ γ : Type} (agents : AgentSide τ) (held : τ → String → String → γ) :
    Prop where
  idle : ∀ r x, (∀ c d action request, r ≠ .call c d action request) →
    held (agents.answer r x).2 = held x
  call : ∀ c d action request x w p, ¬ (w = request.workflow ∧ p = request.pipeline) →
    held (agents.answer (.call c d action request) x).2 w p = held x w p

namespace Host

variable {τ α : Type} {agents : AgentSide τ} {D : Duty} {s s' s'' : Host τ}

/-! ## What is left alone -/

/-- The instants that the clock shows from now on. -/
def clock (s : Host τ) : List Moment := s.now :: s.later

theorem now_tick_mem_clock (s : Host τ) : s.tick.now ∈ s.clock := by
  unfold tick clock
  split <;> simp_all

theorem clock_tick_subset (s : Host τ) : s.tick.clock ⊆ s.clock := by
  unfold tick clock
  split
  · exact fun t ht => ht
  · next t rest hlater =>
    intro t' ht'
    rw [hlater]
    exact List.mem_cons_of_mem _ ht'

/-- A key has the entry that it had, or that was dropped because it was gone. -/
def Leaves (s s' : Host τ) (key : String) : Prop :=
  s'.store.entry? key = s.store.entry? key ∨
    ∃ e, ∃ t ∈ s.clock, s.store.entry? key = some e ∧ e.stage s.store.grace t.val = .gone ∧
      s'.store.entry? key = none

/-- A later state of a host, in which nothing was changed but the documents of some workflows. -/
structure Spares (W : String → Prop) (s s' : Host τ) : Prop where
  grace : s'.store.grace = s.store.grace
  clock : s'.clock ⊆ s.clock
  entry : ∀ key, (∀ w, W w → key ≠ statusKey w) → s.Leaves s' key

namespace Spares

variable {W : String → Prop}

theorem refl (W : String → Prop) (s : Host τ) : Spares W s s :=
  ⟨rfl, fun _ h => h, fun _ _ => .inl rfl⟩

theorem trans (h : Spares W s s') (h' : Spares W s' s'') : Spares W s s'' := by
  refine ⟨h'.grace.trans h.grace, fun t ht => h.clock (h'.clock ht), fun key hkey => ?_⟩
  rcases h'.entry key hkey with hsame' | ⟨e, t, ht, hentry, hgone, hnone⟩
  · unfold Leaves
    rw [hsame']
    exact h.entry key hkey
  · rcases h.entry key hkey with hsame | ⟨_, _, _, _, _, hnone'⟩
    · rw [h.grace] at hgone
      exact .inr ⟨e, t, h.clock ht, hsame ▸ hentry, hgone, hnone⟩
    · rw [hnone'] at hentry
      cases hentry

theorem mono {W' : String → Prop} (h : Spares W s s') (hmore : ∀ w, W w → W' w) :
    Spares W' s s' :=
  ⟨h.grace, h.clock, fun key hkey => h.entry key fun w hw => hkey w (hmore w hw)⟩

theorem tick (W : String → Prop) (s : Host τ) : Spares W s s.tick := by
  refine ⟨?_, s.clock_tick_subset, fun key _ => .inl ?_⟩ <;> rw [tick_store]

/-- A read that drops what is gone spares everything. -/
theorem of_sheds {b : Backend} (h : Backend.Sheds s.tick.now s.store b) :
    Spares W s { s.tick with store := b } := by
  refine ⟨h.grace, s.clock_tick_subset, fun key _ => (h.entry key).imp id ?_⟩
  rintro ⟨e, hentry, hgone, hnone⟩
  exact ⟨e, s.tick.now, s.now_tick_mem_clock, hentry, hgone, hnone⟩

/-- Putting an entry in place of a document spares the rest. -/
theorem of_puts {b : Backend} {w : String} {e : Entry} (hw : W w)
    (h : Backend.Puts s.store b (statusKey w) e) : Spares W s { s.tick with store := b } :=
  ⟨h.grace, s.clock_tick_subset, fun key hkey =>
    .inl ((h.entry key).trans (if_neg (hkey w hw)))⟩

/-- What agents do is no matter of the store. -/
theorem of_side (x : τ) : Spares W s { s with side := x } :=
  ⟨rfl, fun _ ht => ht, fun _ _ => .inl rfl⟩

/-- What is live later was live before. -/
theorem live?_before (h : Spares W s s') {key : String}
    (hkey : ∀ w, W w → key ≠ statusKey w) {t : Instant} {e : Entry}
    (hlive : s'.store.live? t key = some e) : s.store.live? t key = some e := by
  obtain ⟨hentry, hstage⟩ := (Backend.live?_eq_some_iff _ _ _ _).1 hlive
  rw [h.grace] at hstage
  rcases h.entry key hkey with hsame | ⟨_, _, _, _, _, hnone⟩
  · exact (Backend.live?_eq_some_iff _ _ _ _).2 ⟨hsame ▸ hentry, hstage⟩
  · rw [hnone] at hentry
    cases hentry

/-- What is not live at some instant later was not live before, at some instant. -/
theorem dead_before (h : Spares W s s') {key : String}
    (hkey : ∀ w, W w → key ≠ statusKey w) {t : Moment} (ht : t ∈ s'.clock)
    (hdead : s'.store.live? t.val key = none) : ∃ t ∈ s.clock, s.store.live? t.val key = none := by
  rcases h.entry key hkey with hsame | ⟨e, t', ht', hentry, hgone, -⟩
  · refine ⟨t, h.clock ht, ?_⟩
    unfold Backend.live? at hdead ⊢
    rwa [hsame, h.grace] at hdead
  · refine ⟨t', ht', ?_⟩
    unfold Backend.live?
    simp [hentry, hgone, Option.filter_some]

end Spares

/-! ## Replies to requests within a duty -/

theorem answer_store (agents : AgentSide τ) (op : StoreOp) (s : Host τ) :
    (answer agents (.store op) s).2 =
      { s.tick with store := (s.store.apply s.tick.now op).2 } := by
  change (s.tick.stored (s.tick.store.apply s.tick.now op)).2 = _
  rw [tick_store]
  rcases s.store.apply s.tick.now op with ⟨_ | _ | _, b⟩ <;> rfl

/-- **A reply spares what is outside the duty.** -/
theorem spares_answer {r : Request} (hr : r.Within D) :
    Spares D.workflow s (answer agents r s).2 := by
  cases r with
  | store op =>
      rw [answer_store]
      cases s.store.effect_apply s.tick.now op with
      | kept _ sheds => exact .of_sheds sheds
      | changed target _ _ _ _ puts =>
          rcases hr with hread | ⟨w, hw, hdocuments⟩
          · rw [hread] at target
            cases target
          · obtain rfl := Option.some.inj (target.symm.trans hdocuments.target)
            exact .of_puts hw puts
  | clock => exact .tick D.workflow s
  | _ => exact .of_side _

/-- **A reply leaves alone what agents hold** of a pipeline outside the duty. -/
theorem held_answer {γ : Type} {held : τ → String → String → γ} (hholding : agents.Holding held)
    {r : Request} (hr : r.Within D) {w p : String} (hkey : ¬ (D.workflow w ∧ D.pipeline w p)) :
    held (answer agents r s).2.side w p = held s.side w p := by
  cases r with
  | store op =>
      rw [answer_store]
      exact congrArg (held · w p) s.tick_side
  | clock => exact congrArg (held · w p) s.tick_side
  | call connection deadline action request =>
      refine hholding.call connection deadline action request s.side w p ?_
      rintro ⟨rfl, rfl⟩
      exact hkey hr
  | _ => exact congrFun (congrFun (hholding.idle _ s.side (by simp)) w) p

/-! ## Programs within a duty -/

/-- Documents are under their own keys, and the agents' side is one that can come about. -/
structure Orderly (agents : AgentSide τ) (s : Host τ) : Prop where
  labelled : s.store.Labelled
  proper : agents.Proper s.side

/-- **A reply within a duty** keeps a host orderly. -/
theorem Orderly.answer (h : s.Orderly agents) {r : Request} (hr : r.Within D) :
    (answer agents r s).2.Orderly agents := by
  cases r with
  | clock => exact ⟨s.tick_store.symm ▸ h.labelled, s.tick_side.symm ▸ h.proper⟩
  | store op =>
      rw [answer_store]
      refine ⟨h.labelled.apply ?_, s.tick_side.symm ▸ h.proper⟩
      exact hr.imp id fun ⟨w, _, hdocuments⟩ => ⟨w, hdocuments⟩
  | _ => exact ⟨h.labelled, agents.proper _ _ h.proper⟩

/-- What a program minds: it calls agents about its own pipelines only, it changes no key but those
of its documents, and what agents hold of other pipelines stays as it is. -/
structure Minds (agents : AgentSide τ) (s : Host τ) (p : Control α) (D : Duty) : Prop where
  calls : ∀ connection deadline action request,
    Request.call connection deadline action request ∈ p.asked (answer agents) s →
      D.workflow request.workflow ∧ D.pipeline request.workflow request.pipeline
  keys : ∀ key, (∀ w, D.workflow w → key ≠ statusKey w) →
    s.Leaves (p.exec (answer agents) s).2 key
  held : ∀ {γ : Type} (held : τ → String → String → γ), agents.Holding held →
    ∀ w p', ¬ (D.workflow w ∧ D.pipeline w p') →
      held (p.exec (answer agents) s).2.side w p' = held s.side w p'

variable {p : Control α}

/-- A program within a duty keeps a host orderly. -/
theorem Orderly.exec (h : s.Orderly agents)
    (hasked : ∀ r ∈ p.asked (Host.answer agents) s, r.Within D) :
    (p.exec (Host.answer agents) s).2.Orderly agents := by
  have hstep : ∀ r (s : Host τ), r.Within D → s.Orderly agents →
      (Host.answer agents r s).2.Orderly agents := fun r s hr h => h.answer hr
  exact Program.exec_of_asked (J := fun s : Host τ => s.Orderly agents) hstep h hasked

/-- A program within a duty spares the rest. -/
theorem spares_of_asked (hasked : ∀ r ∈ p.asked (answer agents) s, r.Within D) :
    Spares D.workflow s (p.exec (answer agents) s).2 := by
  have hstep : ∀ r (s' : Host τ), r.Within D → Spares D.workflow s s' →
      Spares D.workflow s (answer agents r s').2 := fun r s' hr h => h.trans (spares_answer hr)
  exact Program.exec_of_asked (J := fun s' => Spares D.workflow s s') hstep (.refl _ s) hasked

/-- **A program that stays within its duty** minds it. -/
theorem minds_of_asked (hasked : ∀ r ∈ p.asked (answer agents) s, r.Within D) :
    Minds agents s p D := by
  refine ⟨fun connection deadline action request hcall => hasked _ hcall,
    (spares_of_asked hasked).entry, ?_⟩
  intro γ held hholding w p' hkey
  have hstep : ∀ r (s' : Host τ), r.Within D → held s'.side w p' = held s.side w p' →
      held (answer agents r s').2.side w p' = held s.side w p' :=
    fun r s' hr h => (held_answer hholding hr hkey).trans h
  exact Program.exec_of_asked (J := fun s' => held s'.side w p' = held s.side w p') hstep rfl hasked

end Host

end FleetControl
