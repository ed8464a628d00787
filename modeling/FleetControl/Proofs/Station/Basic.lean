import FleetControl.Proofs.Fleet.Calls
import FleetControl.Proofs.Store.Scan
import FleetControl.Cache.Sweep
import FleetControl.Informer.Pass
import FleetControl.Reconcile.Callbacks

/-!
# A control plane at work

The informer pass and the cache sweep ask for the same few things: the store, the cache, and a
callback of the handler of workflows. A station is where they run, a cache and a site, and it keeps a
record of the callbacks. The replies at a station are those of the simulated world when one pass runs
at a time and none is asked to stop.

* `Station.answer` — the replies at a station;
* `Site.Accounted.manifest_heard`, `Site.Accounted.removal_heard` — what a callback leaves;
* `Station.failedAdd` — whether the last callback about a key was a failed one about a new key.
-/

namespace FleetControl

/-- The key that an event is about. -/
def WatchEvent.key : WatchEvent → String
  | added kv => kv.key
  | updated kv _ => kv.key
  | deleted key => key

/-- Whether an event tells of a new key. -/
def WatchEvent.isAdded : WatchEvent → Bool
  | added _ => true
  | _ => false

/-- A callback that has been made. -/
structure Callback where
  event : WatchEvent
  failed : Bool
  deriving DecidableEq

/-- A control plane at work. -/
structure Station where
  cache : Cache
  site : Site Fleet
  /-- The callbacks so far, the latest first. -/
  callbacks : List Callback

namespace Station

/-- The last callback about a key. -/
def latest? (s : Station) (key : String) : Option Callback :=
  s.callbacks.find? fun c => decide (c.event.key = key)

/-- Whether the last callback about a key told of a new key and failed. -/
def failedAdd (s : Station) (key : String) : Bool :=
  (s.latest? key).any fun c => c.event.isAdded && c.failed

/-- The station after a callback that ended at a site. -/
def called (s : Station) (event : WatchEvent) (outcome : Except Failure Unit) (site : Site Fleet) :
    Station :=
  { s with site, callbacks := ⟨event, !outcome.isOk⟩ :: s.callbacks }

/-- The replies at a station, given the number of the handler of workflows. No other handler is
there, so nobody hears what another is told. -/
def answer (deadline : Span) (handler : HandlerId) :
    (r : WatchRequest) → Station → Option r.Reply × Station
  | .cancelled, s => (some false, s)
  | .scan scope, s =>
    let r := Site.answer Fleet.side (.store (.list scope)) s.site
    (r.1, { s with site := r.2 })
  | .present key, s =>
    let r := Site.answer Fleet.side (.store (.getAny key)) s.site
    (r.1.map fun found => found.map Option.isSome, { s with site := r.2 })
  | .cached key, s => (some (s.cache.version key), s)
  | .record key version, s => (some (), { s with cache := s.cache.record key version })
  | .forget key, s => (some (), { s with cache := s.cache.forget key })
  | .cachedKeys, s => (some s.cache.entries.keys, s)
  | .handlerFor key, s => (some (s.cache.handlerFor (fun _ => true) key), s)
  | .notify watcher event, s =>
    if watcher = handler then
      match (handleWorkflowEvent deadline event).exec (Site.answer Fleet.side) s.site with
      | (some outcome, site) => (some outcome, s.called event outcome site)
      | (none, site) => (none, { s with site })
    else (some (.ok ()), s)

@[simp] theorem called_cache (s : Station) (event : WatchEvent) (outcome : Except Failure Unit)
    (site : Site Fleet) : (s.called event outcome site).cache = s.cache := rfl

@[simp] theorem called_site (s : Station) (event : WatchEvent) (outcome : Except Failure Unit)
    (site : Site Fleet) : (s.called event outcome site).site = site := rfl

/-- A callback is the last one about its key. -/
theorem latest?_called_self (s : Station) (event : WatchEvent) (outcome : Except Failure Unit)
    (site : Site Fleet) :
    (s.called event outcome site).latest? event.key = some ⟨event, !outcome.isOk⟩ := by
  simp [latest?, called]

/-- A callback is not one about another key. -/
theorem latest?_called_of_ne (s : Station) {event : WatchEvent} {key : String}
    (h : key ≠ event.key) (outcome : Except Failure Unit) (site : Site Fleet) :
    (s.called event outcome site).latest? key = s.latest? key := by
  simp [latest?, called, h.symm]

end Station

namespace Site.Accounted

variable {s : Site Fleet}

/-! ## Reads -/

/-- Looking for a key, live or as a tombstone, changes no document and writes no manifest. A key
without an entry is not found. -/
theorem getAny (h : s.Accounted) (key : String) :
    let r := answer Fleet.side (.store (.getAny key)) s
    r.2.Accounted ∧ (∀ w, r.2.document w = s.document w) ∧ r.2.side = s.side ∧
      (∀ k e, r.2.store.entries.get? k = some e → s.store.entries.get? k = some e) ∧
      (s.store.entries.get? key = none → r.1 = some (.ok none)) := by
  have hleft : (answer Fleet.side (.store (.getAny key)) s).2 =
      { s.tick with store := (s.tick.store.find s.tick.now key).2 } := by
    simp only [answer, Memory.apply, Memory.getAny]
    rcases s.tick.store.find s.tick.now key with ⟨_ | ⟨e, stage⟩ | _, m⟩ <;> rfl
  obtain ⟨haccounted, hdocument⟩ := h.tick.1.find s.tick.now key
  simp only [hleft]
  refine ⟨haccounted, fun w => (hdocument w).trans (h.tick.2 w), tick_side s, ?_, ?_⟩
  · intro k e he
    rw [tick_store] at he
    rcases Memory.find_entries s.store s.tick.now key with heq | ⟨-, heq⟩
    · rwa [heq] at he
    · rw [heq] at he
      exact KeyMap.get?_of_erase he
  · intro hnone
    simp only [answer, Memory.apply, Memory.getAny, Memory.find, tick_store, hnone, stored]
    rfl

/-- A scan changes no document and writes no manifest. -/
theorem list (h : s.Accounted) {scope : String} {reply : Except StoreError (List Snapshot)}
    {s' : Site Fleet} (hrun : answer Fleet.side (.store (.list scope)) s = (some reply, s')) :
    (∃ found, reply = .ok found ∧ s.store.list s.tick.now scope = (.answer found, s'.store)) ∧
      s'.Accounted ∧ (∀ w, s'.document w = s.document w) ∧ s'.side = s.side ∧
      (∀ k e, s'.store.entries.get? k = some e → s.store.entries.get? k = some e) := by
  simp only [answer, Memory.apply, tick_store] at hrun
  cases hlist : s.store.list s.tick.now scope with
  | mk outcome m =>
      rw [hlist] at hrun
      cases outcome with
      | undatable => cases hrun
      | refused e =>
          exfalso
          simp only [Memory.list] at hlist
          split at hlist <;> cases hlist
      | answer found =>
          obtain ⟨hreply, rfl⟩ := Prod.mk.inj hrun
          obtain rfl := Option.some.inj hreply
          obtain ⟨haccounted, hdocument⟩ := h.congr
            (show ({ s.tick with store := m } : Site Fleet).side = s.side from tick_side s)
            (fun w => Memory.timelessAt_list hlist (h.lasting w))
            fun w t => Memory.live?_list hlist (h.lasting w) t
          refine ⟨⟨found, rfl, rfl⟩, haccounted, hdocument, tick_side s, ?_⟩
          intro k e he
          rw [Memory.get?_list hlist] at he
          exact (Option.filter_eq_some_iff.1 he).1

/-! ## Callbacks -/

/-- **The callback of a manifest** is about its workflow only, and where it fails it leaves a
document. -/
theorem manifest_heard (h : s.Accounted) (deadline : Span) (key : String) (data : Bytes) :
    let r := (handleManifest deadline key data).exec (answer Fleet.side) s
    (r.2 = s ∨ ∃ w, workflowName? key = some w ∧ Follows w s r.2) ∧
      ∀ w failure, workflowName? key = some w → r.1 = some (.error failure) →
        r.2.document w ≠ none := by
  simp only [handleManifest, Program.exec_bind]
  cases name : workflowName? key with
  | none =>
      simp only [FleetControl.reconcileManifest, name]
      exact ⟨.inl rfl, fun w failure hw => by cases hw⟩
  | some w =>
      have hcall := h.reconcileManifest deadline name data
      generalize (FleetControl.reconcileManifest deadline key data).exec (answer Fleet.side) s = r
        at hcall ⊢
      obtain ⟨outcome, s'⟩ := r
      obtain ⟨hfollows, rfl | ⟨e, rfl, rfl⟩ | ⟨report, rfl, hdoc⟩⟩ := hcall
      · exact ⟨.inr ⟨w, rfl, hfollows⟩, fun w' failure _ hnone => by cases hnone⟩
      · refine ⟨.inl rfl, fun w' failure _ hok => ?_⟩
        simp [Program.exec_pure] at hok
      · refine ⟨.inr ⟨w, rfl, hfollows⟩, fun w' failure hw _ => ?_⟩
        obtain rfl := Option.some.inj hw
        exact hdoc

/-- **The callback of a removal** is about its workflow only. Where it succeeds it leaves no
document, and it does succeed where every call is answered. -/
theorem removal_heard (h : s.Accounted) (deadline : Span) (key : String) :
    let r := (handleRemoval deadline key).exec (answer Fleet.side) s
    (r.2 = s ∨ ∃ w, workflowName? key = some w ∧ Follows w s r.2) ∧
      ∀ w outcome, workflowName? key = some w → r.1 = some outcome →
        (outcome = .ok () → r.2.document w = none) ∧ (s.side.fates = [] → outcome = .ok ()) := by
  simp only [handleRemoval, Program.exec_bind]
  cases name : workflowName? key with
  | none =>
      simp only [FleetControl.reconcileRemoval, name]
      exact ⟨.inl rfl, fun w outcome hw => by cases hw⟩
  | some w =>
      have hcall := h.removeWorkflow deadline w
      simp only [FleetControl.reconcileRemoval, name]
      generalize (FleetControl.removeWorkflow deadline w).exec (answer Fleet.side) s = r at hcall ⊢
      obtain ⟨outcome, s'⟩ := r
      obtain ⟨hfollows, rfl | ⟨report, rfl, hgone, hfailures⟩⟩ := hcall
      · exact ⟨.inr ⟨w, rfl, hfollows⟩, fun w' outcome _ hnone => by cases hnone⟩
      · refine ⟨.inr ⟨w, rfl, hfollows⟩, fun w' outcome hw houtcome => ?_⟩
        obtain rfl := Option.some.inj hw
        obtain rfl := Option.some.inj houtcome
        have hok : callbackOutcome (.ok report) = .ok () ↔ report.failures = [] := by
          simp only [callbackOutcome, ReconcileReport.result, ReconcileReport.converged,
            List.isEmpty_iff]
          split
          · next hall => split at hall <;> simp_all
          · next hall => split at hall <;> simp_all
        refine ⟨fun heq => hgone (hok.1 heq), fun hcalm => hok.2 ?_⟩
        rcases hfailures with hnone | ⟨s₀, doc, hbefore, hdoc, hsame⟩
        · exact hnone
        · rw [hsame]
          have hsound := hbefore.accounted.sound w
          have hfaithful := hbefore.accounted.faithful w
          rw [hdoc] at hsound hfaithful
          exact hfaithful.removal_succeeds hbefore.accounted.proper (hbefore.calm hcalm)
            hsound.apart deadline

end Site.Accounted

end FleetControl
