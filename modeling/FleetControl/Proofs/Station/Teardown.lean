import FleetControl.Proofs.Station.Turn

/-!
# Taking deleted workflows down

An informer pass deals with every key of its scan and a sweep with every cached key, so a workflow
whose manifest is gone leaves the cache with its document, as soon as the agents accept the calls.
That is all that is done about it. A workflow whose first manifests all ended in a failed callback is
not in the cache, but some of its pipelines may run; nothing takes it down once its manifest is gone.

* `Station.Sound.informerPass`, `Station.Sound.sweep` — complete rounds;
* `Station.run` — what happens to a control plane, one event after the other;
* `Station.torn_down_iff_not_failedAdd` — a deleted workflow is taken down unless the last callback
  about it was a failed one about a new key.
-/

namespace FleetControl

open Fleet (SameAt)

/-- A key was deleted or purged, and not written again. -/
def Memory.RemovedAt (m : Memory) (key : String) : Prop :=
  ∀ e, m.entries.get? key = some e → e.deletedAt ≠ none

namespace Station

variable {handler : HandlerId} {deadline : Span} {s s' : Station}

/-! ## Complete rounds -/

/-- No round is asked to stop. -/
private theorem exec_cancelled {stop : Bool}
    (h : Watching.cancelled.exec (answer deadline handler) s = (some stop, s')) : stop = false ∧ s = s' := by
  obtain ⟨hstop, hsame⟩ := Prod.mk.inj h
  exact ⟨(Option.some.inj hstop).symm, hsame⟩

/-- **The keys of a scan are dealt with.** One that is not shown live wanes, and where every call is
answered it leaves the cache if it is shown at all. -/
theorem Sound.observeAll (h : s.Sound handler) {found : List Snapshot}
    (hrun : (FleetControl.observeAll handler found).exec (answer deadline handler) s = (some (), s')) :
    Goes handler s s' ∧ ∀ key w, workflowName? key = some w →
      (∀ kv ∈ found, kv.key = key → kv.dead = true) →
        Wanes key w s s' ∧ (s.site.side.fates = [] → (∃ kv ∈ found, kv.key = key) →
          s'.cache.version key = none) := by
  induction found generalizing s with
  | nil =>
      obtain rfl : s = s' := congrArg Prod.snd hrun
      refine ⟨h.goes, fun key w _ _ => ⟨.refl key w s, ?_⟩⟩
      rintro - ⟨kv, hkv, -⟩
      cases hkv
  | cons kv rest ih =>
      obtain ⟨stop, s₀, hcancelled, hrun⟩ := Program.exec_bind_eq_some hrun
      obtain ⟨rfl, rfl⟩ := exec_cancelled hcancelled
      obtain ⟨_, s₁, hobserve, hrun⟩ := Program.exec_bind_eq_some hrun
      have hminds : Minds handler kv.key s s₁ := by
        unfold observe at hobserve
        split at hobserve
        · exact (h.observeTombstone hobserve).1
        · exact h.observeLive hobserve
      obtain ⟨hgoes, hrest⟩ := ih hminds.sound hrun
      refine ⟨hminds.toGoes.trans hgoes, fun key w name hdead => ?_⟩
      obtain ⟨hwanes, hgone⟩ := hrest key w name fun kv' hmem => hdead kv' (by simp [hmem])
      by_cases hkey : kv.key = key
      · subst hkey
        rw [observe, if_pos (hdead kv (by simp) rfl)] at hobserve
        obtain ⟨hfirst, hforgotten⟩ := (h.observeTombstone hobserve).2 w name
        exact ⟨hfirst.trans hwanes, fun hcalm _ => (hwanes.settled (hforgotten hcalm)).1⟩
      · refine ⟨(hminds.wanes (Ne.symm hkey) name).trans hwanes, ?_⟩
        rintro hcalm ⟨kv', hmem, hkv'⟩
        rcases List.mem_cons.1 hmem with rfl | hmem
        · exact absurd hkv' hkey
        · exact hgone (hminds.calm hcalm) ⟨kv', hmem, hkv'⟩

/-- **Cached keys are dealt with.** Each wanes, and where every call is answered those that have no
entry in the store leave the cache. -/
theorem Sound.sweepKeys (h : s.Sound handler) {keys : List String} (hnodup : keys.Nodup)
    (hknown : ∀ k ∈ keys, s.cache.version k ≠ none) {failed : Nat}
    (hrun : (FleetControl.sweepKeys keys).exec (answer deadline handler) s = (some failed, s')) :
    Goes handler s s' ∧ ∀ key w, workflowName? key = some w →
      Wanes key w s s' ∧ (s.site.side.fates = [] → s.site.store.entries.get? key = none →
        key ∈ keys → s'.cache.version key = none) := by
  induction keys generalizing s failed with
  | nil =>
      obtain rfl : s = s' := congrArg Prod.snd hrun
      refine ⟨h.goes, fun key w _ => ⟨.refl key w s, ?_⟩⟩
      intro _ _ hmem
      cases hmem
  | cons k rest ih =>
      obtain ⟨hk, hnodup⟩ := List.nodup_cons.1 hnodup
      obtain ⟨stop, s₀, hcancelled, hrun⟩ := Program.exec_bind_eq_some hrun
      obtain ⟨rfl, rfl⟩ := exec_cancelled hcancelled
      obtain ⟨failed, s₁, hsweep, hrun⟩ := Program.exec_bind_eq_some hrun
      obtain ⟨more, s₂, hmore, hrun⟩ := Program.exec_bind_eq_some hrun
      obtain rfl : s₂ = s' := congrArg Prod.snd hrun
      obtain ⟨hminds, hown⟩ := h.sweepKey (hknown k (by simp)) hsweep
      have hstill : ∀ k' ∈ rest, s₁.cache.version k' ≠ none := by
        intro k' hmem
        rw [hminds.version k' fun heq => hk (heq ▸ hmem)]
        exact hknown k' (by simp [hmem])
      obtain ⟨hgoes, hrest⟩ := ih hminds.sound hnodup hstill hmore
      refine ⟨hminds.toGoes.trans hgoes, fun key w name => ?_⟩
      obtain ⟨hwanes, hgone⟩ := hrest key w name
      by_cases hkey : key = k
      · subst hkey
        obtain ⟨hfirst, hforgotten⟩ := hown w name
        exact ⟨hfirst.trans hwanes,
          fun hcalm hnone _ => (hwanes.settled (hforgotten hcalm hnone)).1⟩
      · refine ⟨(hminds.wanes hkey name).trans hwanes, fun hcalm hnone hmem => ?_⟩
        refine hgone (hminds.calm hcalm) ?_ ((List.mem_cons.1 hmem).resolve_left hkey)
        rw [eq_workflowKey name, Option.eq_none_iff_forall_ne_some] at hnone ⊢
        exact fun e he => hnone e (hminds.manifests w e he)

/-- A scan leaves a sound station with the same cache. It shows nothing live at a key that was
removed, and what it does not show of such a key is not there afterwards. -/
theorem Sound.scan (h : s.Sound handler) {reply : Except StoreError (List Snapshot)}
    (hrun : (Watching.scan workflowScope).exec (answer deadline handler) s = (some reply, s')) :
    ∃ found, reply = .ok found ∧ Goes handler s s' ∧ (∀ key w, Wanes key w s s') ∧
      ∀ key w, workflowName? key = some w → s.site.store.RemovedAt key →
        (∀ kv ∈ found, kv.key = key → kv.dead = true) ∧
          ((∃ kv ∈ found, kv.key = key) ∨ s'.site.store.entries.get? key = none) := by
  have hanswer := (Program.exec_ask (answer deadline handler) (.scan workflowScope) s).symm.trans hrun
  obtain ⟨hreply, rfl⟩ := Prod.mk.inj hanswer
  obtain ⟨⟨found, rfl, hlist⟩, haccounted, hdocument, hside, hmanifests⟩ :=
    h.accounted.list (Prod.ext hreply rfl)
  have hreads := h.reads haccounted hdocument hside fun v e he => hmanifests _ e he
  refine ⟨found, rfl, (hreads "").toGoes, fun key w => ?_, fun key w name hremoved => ⟨?_, ?_⟩⟩
  · exact ⟨fun hnone => ⟨hnone, hdocument w⟩, fun hsome hnone => absurd hnone hsome⟩
  · rintro kv hkv rfl
    obtain ⟨e, hget, -, hkept, heq⟩ := (Memory.mem_list_iff hlist kv).1 hkv
    have hdead := Entry.stage_ne_live (hremoved e hget) s.site.store.grace s.site.tick.now
    rw [heq, Entry.snapshot]
    cases hstage : e.stage s.site.store.grace s.site.tick.now with
    | live => exact absurd hstage hdead
    | tombstone => rfl
    | gone => exact absurd hstage hkept
  · rw [or_iff_not_imp_right]
    intro hthere
    obtain ⟨e, he⟩ := Option.ne_none_iff_exists'.1 hthere
    have hunder : workflowScope.toList <+: key.toList := by
      rw [eq_workflowKey name, workflowKey, String.toList_append]
      exact List.prefix_append _ _
    have hkept := (Memory.get?_list hlist key).symm.trans he
    obtain ⟨hget, hkept⟩ := Option.filter_eq_some_iff.1 hkept
    refine ⟨e.snapshot key (e.stage s.site.store.grace s.site.tick.now), ?_, rfl⟩
    refine (Memory.mem_list_iff hlist _).2 ⟨e, hget, hunder, ?_, rfl⟩
    simpa [List.isPrefixOf_iff_prefix.2 hunder] using hkept

/-- **A complete pass** takes a workflow with a tombstone down where every call is answered. -/
theorem Sound.informerPass (h : s.Sound handler) {outcome : Except Failure Unit}
    (hrun : (FleetControl.informerPass workflowScope handler).exec (answer deadline handler) s =
      (some outcome, s')) :
    Goes handler s s' ∧ ∀ key w, workflowName? key = some w → s.site.store.RemovedAt key →
      Wanes key w s s' ∧ (s.site.side.fates = [] →
        s'.cache.version key = none ∨ s'.site.store.entries.get? key = none) := by
  obtain ⟨reply, s₀, hscan, hrun⟩ := Program.exec_bind_eq_some hrun
  obtain ⟨found, rfl, hscanned, hstays, hshown⟩ := h.scan hscan
  obtain ⟨_, s₁, hobserve, hrun⟩ := Program.exec_bind_eq_some hrun
  obtain rfl : s₁ = s' := congrArg Prod.snd hrun
  obtain ⟨hgoes, hdealt⟩ := hscanned.sound.observeAll hobserve
  refine ⟨hscanned.trans hgoes, fun key w name hremoved => ?_⟩
  obtain ⟨hdead, hfound⟩ := hshown key w name hremoved
  obtain ⟨hwanes, hgone⟩ := hdealt key w name hdead
  refine ⟨(hstays key w).trans hwanes, fun hcalm => ?_⟩
  rcases hfound with hin | hnone
  · exact .inl (hgone (hscanned.calm hcalm) hin)
  · refine .inr ?_
    rw [eq_workflowKey name, Option.eq_none_iff_forall_ne_some] at hnone ⊢
    exact fun e he => hnone e (hgoes.manifests w e he)

/-- **A complete sweep** takes a workflow without an entry down where every call is answered. -/
theorem Sound.sweep (h : s.Sound handler) {outcome : Except Failure Unit}
    (hrun : FleetControl.sweep.exec (answer deadline handler) s = (some outcome, s')) :
    Goes handler s s' ∧ ∀ key w, workflowName? key = some w →
      Wanes key w s s' ∧ (s.site.side.fates = [] → s.site.store.entries.get? key = none →
        s'.cache.version key = none) := by
  obtain ⟨keys, s₀, hasked, hrun⟩ := Program.exec_bind_eq_some hrun
  obtain ⟨hkeys, rfl⟩ := Prod.mk.inj hasked
  obtain rfl : s.cache.entries.keys = keys := Option.some.inj hkeys
  obtain ⟨failed, s₁, hsweep, hrun⟩ := Program.exec_bind_eq_some hrun
  obtain rfl : s₁ = s' := by
    split at hrun
    · exact congrArg Prod.snd hrun
    · exact congrArg Prod.snd hrun
  have hcached : ∀ k, k ∈ s.cache.entries.keys ↔ s.cache.version k ≠ none := by
    intro k
    rw [KeyMap.mem_keys_iff, KeyMap.contains, Option.isSome_iff_ne_none]
    rfl
  obtain ⟨hgoes, hswept⟩ := h.sweepKeys (KeyMap.nodup_keys _) (fun k hk => (hcached k).1 hk) hsweep
  refine ⟨hgoes, fun key w name => ?_⟩
  obtain ⟨hwanes, hgone⟩ := hswept key w name
  refine ⟨hwanes, fun hcalm hnone => ?_⟩
  by_cases hversion : s.cache.version key = none
  · exact (hwanes.settled hversion).1
  · exact hgone hcalm hnone ((hcached key).2 hversion)

end Station

/-! ## Events -/

/-- What happens to a control plane. -/
inductive Event where
  /-- A manifest is written, to expire if a time to live is given. -/
  | write (name : String) (data : Bytes) (ttl : Option Span)
  | delete (name : String)
  | purge (name : String)
  /-- A complete informer pass. -/
  | pass
  /-- A complete sweep. -/
  | sweep

namespace Station

variable (deadline : Span) (handler : HandlerId)

/-- The station after a store operation that ends. -/
def store (s : Station) (op : StoreOp) : Option Station :=
  match Site.answer Fleet.side (.store op) s.site with
  | (some _, site) => some { s with site }
  | (none, _) => none

/-- The station after a round that ends. -/
def round {α : Type} (s : Station) (p : Watching α) : Option Station :=
  match p.exec (answer deadline handler) s with
  | (some _, s) => some s
  | (none, _) => none

/-- The station after an event, if that ends. -/
def step (s : Station) : Event → Option Station
  | .write name data none => s.store (.set (workflowKey name) data)
  | .write name data (some ttl) => s.store (.setFor (workflowKey name) data ttl)
  | .delete name => s.store (.delete (workflowKey name))
  | .purge name =>
    some { s with site := { s.site with store := (s.site.store.purge (workflowKey name)).2 } }
  | .pass => s.round deadline handler (informerPass workflowScope handler)
  | .sweep => s.round deadline handler FleetControl.sweep

/-- The station after events, one after the other. -/
def run (s : Station) (events : List Event) : Option Station :=
  events.foldlM (step deadline handler) s

variable {deadline handler} {s s' : Station}

/-- What is done to a manifest leaves a sound station. -/
theorem Sound.manifests (h : s.Sound handler) {site : Site Fleet} (name : String)
    (hside : site.side = s.site.side)
    (hothers : ∀ k, k ≠ workflowKey name →
      site.store.entries.get? k = s.site.store.entries.get? k ∧
        site.store.grace = s.site.store.grace) :
    Sound handler { s with site } := by
  have hstatus := fun w => hothers (statusKey w) (workflowKey_ne_statusKey name w).symm
  obtain ⟨haccounted, hdocument⟩ := h.accounted.congr hside
    (fun w => (h.accounted.lasting w).congr (hstatus w).1)
    fun w t => Memory.live?_congr (hstatus w).1 (hstatus w).2 t
  refine ⟨haccounted, h.watched, fun key w name => ?_⟩
  change s.failedAdd key = true ↔ s.cache.version key = none ∧ site.document w ≠ none
  rw [hdocument]
  exact h.failedAdd_iff key w name

/-- A store operation on a manifest leaves a sound station. -/
theorem Sound.store (h : s.Sound handler) (name : String) (op : StoreOp)
    (hothers : ∀ k, k ≠ workflowKey name →
      (s.site.store.apply s.site.tick.now op).2.entries.get? k =
          s.site.store.entries.get? k ∧
        (s.site.store.apply s.site.tick.now op).2.grace = s.site.store.grace)
    (hstore : s.store op = some s') : s'.Sound handler := by
  unfold Station.store at hstore
  split at hstore
  · next reply site hanswer =>
    obtain rfl := Option.some.inj hstore
    have hsite := congrArg Prod.snd hanswer
    simp only [Site.answer, Site.tick_store] at hsite
    have hshape : site.side = s.site.side ∧
        site.store = (s.site.store.apply s.site.tick.now op).2 := by
      rw [← hsite]
      rcases s.site.store.apply s.site.tick.now op with ⟨_ | _ | _, m⟩ <;>
        exact ⟨Site.tick_side _, rfl⟩
    refine h.manifests name hshape.1 fun k hk => ?_
    rw [hshape.2]
    exact hothers k hk
  · cases hstore

private theorem exec_of_round {α : Type} {p : Watching α}
    (h : s.round deadline handler p = some s') : ∃ a, p.exec (answer deadline handler) s = (some a, s') := by
  unfold round at h
  split at h
  · next a t hexec =>
    obtain rfl := Option.some.inj h
    exact ⟨a, hexec⟩
  · cases h

/-- **An event leaves a sound station.** -/
theorem Sound.step (h : s.Sound handler) {event : Event}
    (hstep : s.step deadline handler event = some s') : s'.Sound handler := by
  cases event with
  | write name data ttl =>
      cases ttl with
      | none =>
          exact h.store name (.set (workflowKey name) data)
            (fun k hk => Memory.write_frame _ _ _ _ _ hk) hstep
      | some ttl =>
          exact h.store name (.setFor (workflowKey name) data ttl)
            (fun k hk => Memory.write_frame _ _ _ _ _ hk) hstep
  | delete name =>
      exact h.store name (.delete (workflowKey name)) (fun k hk => Memory.delete_frame _ _ hk)
        hstep
  | purge name =>
      obtain rfl := Option.some.inj hstep
      exact h.manifests name rfl fun k hk => ⟨KeyMap.get?_erase_of_ne _ hk, rfl⟩
  | pass =>
      obtain ⟨_, hpass⟩ := exec_of_round hstep
      exact (h.informerPass hpass).1.sound
  | sweep =>
      obtain ⟨_, hsweep⟩ := exec_of_round hstep
      exact (h.sweep hsweep).1.sound

/-- So do events one after the other. -/
theorem Sound.run (h : s.Sound handler) {events : List Event}
    (hrun : s.run deadline handler events = some s') : s'.Sound handler := by
  induction events generalizing s with
  | nil =>
      obtain rfl := Option.some.inj hrun
      exact h
  | cons event rest ih =>
      obtain ⟨s₀, hstep, hrest⟩ := Option.bind_eq_some_iff.1 hrun
      exact ih (h.step hstep) hrest

/-! ## Deleted workflows -/

/-- Nothing has happened yet: the handler of workflows watches, nothing is cached or held, and there
are no documents. -/
structure Fresh (handler : HandlerId) (s : Station) : Prop where
  site : s.site.Fresh
  watched : s.cache.watchers = [⟨workflowScope, handler⟩]
  uncached : s.cache.entries = .empty
  silent : s.callbacks = []

theorem Fresh.sound (h : s.Fresh handler) : s.Sound handler := by
  refine ⟨h.site.accounted, h.watched, fun key w _ => ?_⟩
  have hnothing : s.site.document w = none := by
    simp [Site.document, Memory.live?, h.site.blank w]
  simp [failedAdd, latest?, h.silent, hnothing]

/-- From now on every agent accepts every call. -/
def calm (s : Station) : Station :=
  { s with site := { s.site with side := { s.site.side with fates := [] } } }

/-- That agents will accept calls changes no document. -/
theorem Sound.document_calm (h : s.Sound handler) (w : String) :
    s.calm.site.document w = s.site.document w :=
  Site.document_congr (h.accounted.lasting w) fun _ => rfl

theorem Sound.calm (h : s.Sound handler) : s.calm.Sound handler := by
  have hsame : ∀ w p, SameAt s.site.side s.calm.site.side w p := fun w p =>
    ⟨rfl, fun _ => rfl, rfl⟩
  refine ⟨⟨⟨h.accounted.proper.honest, h.accounted.proper.dated⟩, h.accounted.lasting,
    h.accounted.readable, ?_, ?_⟩, h.watched, ?_⟩
  · intro w doc hdoc
    rw [h.document_calm] at hdoc
    exact h.accounted.own w doc hdoc
  · intro w
    rw [h.document_calm]
    exact (h.accounted.faithful w).congr (hsame w)
  · intro key w name
    rw [h.document_calm]
    exact h.failedAdd_iff key w name

/-- **A deleted workflow is taken down** unless the last callback about it was a failed one about a
new key. Whatever manifests were written, deleted and purged, whatever passes and sweeps were made and
whatever the agents did meanwhile: once the manifest is gone, one further pass and one further sweep
in which every agent accepts every call leave no pipeline of the workflow on any agent and no
document, except after such a failure, when they leave the document. -/
theorem torn_down_iff_not_failedAdd {s s₁ s₂ : Station} {events : List Event} {key w : String}
    (fresh : s.Fresh handler) (hrun : s.run deadline handler events = some s₁)
    (name : workflowName? key = some w) (hremoved : s₁.site.store.RemovedAt key)
    (hlast : s₁.calm.run deadline handler [.pass, .sweep] = some s₂) :
    ((∀ agent p, ¬ s₂.site.side.Holds agent w p) ∧ s₂.site.document w = none) ↔
      s₁.failedAdd key = false := by
  have hsound := fresh.sound.run hrun
  obtain ⟨sp, hpass, hlast⟩ := Option.bind_eq_some_iff.1 hlast
  obtain ⟨s₂, hsweep, hlast⟩ := Option.bind_eq_some_iff.1 hlast
  obtain rfl := Option.some.inj hlast
  obtain ⟨_, hpass⟩ := exec_of_round hpass
  obtain ⟨_, hsweep⟩ := exec_of_round hsweep
  obtain ⟨hgoes, hpassed⟩ := hsound.calm.informerPass hpass
  obtain ⟨hwanes, hmissing⟩ := hpassed key w name hremoved
  obtain ⟨hends, hswept⟩ := hgoes.sound.sweep hsweep
  obtain ⟨hwanes', hforgotten⟩ := hswept key w name
  have hwhole := hwanes.trans hwanes'
  -- The key leaves the cache in the pass, or else in the sweep.
  have hnone : s₂.cache.version key = none := by
    rcases hmissing rfl with hversion | hentry
    · exact (hwanes'.settled hversion).1
    · exact hforgotten (hgoes.calm rfl) hentry
  have hdocument : s₂.site.document w = none ↔ s₁.failedAdd key = false := by
    rw [← Bool.not_eq_true, hsound.failedAdd_iff key w name]
    by_cases hversion : s₁.cache.version key = none
    · rw [(hwhole.settled hversion).2, hsound.document_calm]
      simp [hversion]
    · simp [hversion, hwhole.cleared hversion hnone]
  rw [← hdocument]
  constructor
  · exact fun hdown => hdown.2
  · exact fun hgone => ⟨hends.sound.accounted.not_holds_of_no_document hgone, hgone⟩

/-- A control plane at which nothing has happened yet. -/
def start (x : Fleet) : Station :=
  ⟨{ Cache.new "control-plane" defaultSweepInterval with watchers := [⟨workflowScope, 0⟩] }, .start x, []⟩

theorem fresh_start {x : Fleet} (h : (Site.start x).Fresh) : (start x).Fresh 0 := ⟨h, rfl, rfl, rfl⟩

/-- A workflow that was placed is taken down once it is deleted. -/
theorem deleted_workflow_torn_down :
    let manifest := WorkflowSpec.ofPipelines "wf1" [("a", ⟨[.manual], [], .empty, []⟩)]
    let s := start (Fleet.ofNames ["agent-a"] [] [some "agent-a"])
    ∃ s₁ s₂, s.run .zero 0 [.write "wf1" manifest.encode none, .pass, .delete "wf1"] = some s₁ ∧
      s₁.calm.run .zero 0 [.pass, .sweep] = some s₂ ∧
      (∀ agent p, ¬ s₂.site.side.Holds agent "wf1" p) ∧ s₂.site.document "wf1" = none := by
  intro manifest s
  have fresh : s.Fresh 0 := fresh_start (Site.fresh_start (by simp) _ _)
  have name : workflowName? "workflows/wf1" = some "wf1" := by decide +kernel
  have hall : (s.run .zero 0 [.write "wf1" manifest.encode none, .pass, .delete "wf1"]).bind
      (fun s₁ => (s₁.calm.run .zero 0 [.pass, .sweep]).map fun _ =>
        (s₁.failedAdd "workflows/wf1",
          (s₁.site.store.entries.get? "workflows/wf1").map fun e => e.deletedAt.isSome)) =
        some (false, some true) := by
    decide +kernel
  obtain ⟨s₁, hrun, hrest⟩ := Option.bind_eq_some_iff.1 hall
  obtain ⟨s₂, hlast, hthere⟩ := Option.map_eq_some_iff.1 hrest
  obtain ⟨hsucceeded, hdeleted⟩ := Prod.mk.inj hthere
  have hremoved : s₁.site.store.RemovedAt "workflows/wf1" := by
    intro e he
    rw [he, Option.map_some] at hdeleted
    exact Option.isSome_iff_ne_none.1 (Option.some.inj hdeleted)
  exact ⟨s₁, s₂, hrun, hlast,
    (torn_down_iff_not_failedAdd fresh hrun name hremoved hlast).2 hsucceeded⟩

/-- A workflow of which only a part could be placed stays when it is deleted right away. -/
theorem partly_placed_workflow_stays :
    let manifest := WorkflowSpec.ofPipelines "wf1"
      [("a", ⟨[.manual], [], .empty, []⟩), ("b", ⟨[.manual], [], .empty, []⟩)]
    let s := start (Fleet.ofNames ["agent-a"] [.refused] [some "agent-a", some "agent-a"])
    ∃ s₁ s₂, s.run .zero 0 [.write "wf1" manifest.encode none, .pass, .delete "wf1"] = some s₁ ∧
      s₁.site.store.RemovedAt "workflows/wf1" ∧
      s₁.calm.run .zero 0 [.pass, .sweep] = some s₂ ∧
      s₂.site.side.Holds "agent-a" "wf1" "b" ∧ s₂.site.document "wf1" ≠ none := by
  intro manifest s
  have hall : (s.run .zero 0 [.write "wf1" manifest.encode none, .pass, .delete "wf1"]).bind
      (fun s₁ => (s₁.calm.run .zero 0 [.pass, .sweep]).map fun s₂ =>
        ((s₁.site.store.entries.get? "workflows/wf1").map (fun e => e.deletedAt.isSome),
          (s₂.site.side.held "agent-a" "wf1" "b").isSome,
          (s₂.site.document "wf1").isSome)) = some (some true, true, true) := by
    decide +kernel
  obtain ⟨s₁, hrun, hrest⟩ := Option.bind_eq_some_iff.1 hall
  obtain ⟨s₂, hlast, hthere⟩ := Option.map_eq_some_iff.1 hrest
  simp only [Prod.mk.injEq] at hthere
  obtain ⟨hdeleted, hheld, hdocument⟩ := hthere
  refine ⟨s₁, s₂, hrun, ?_, hlast, hheld, Option.isSome_iff_ne_none.1 hdocument⟩
  intro e he
  rw [he, Option.map_some] at hdeleted
  exact Option.isSome_iff_ne_none.1 (Option.some.inj hdeleted)

end Station

end FleetControl
