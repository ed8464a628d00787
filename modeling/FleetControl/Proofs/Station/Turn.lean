import FleetControl.Proofs.Station.Basic

/-!
# What is done about one key

The informer pass deals with the keys of a scan one by one, and the cache sweep with those that are
cached. What is done about a key changes nothing about another. At every station that can come about
the last callback about a workflow was a failed one about a new key exactly if the workflow has a
document and is not cached, and that is also so after each key has been dealt with.

* `Station.Sound` — what is so at every station that can come about;
* `Station.Minds` — a step about one key;
* `Station.Sound.observe`, `Station.Sound.sweepKey` — dealing with a key is such a step, and it takes
  a key that is dead out of the cache only when its document is gone.
-/

namespace FleetControl

/-! ## The cache -/

namespace Cache

/-- What is recorded is cached. -/
theorem version_record_self (c : Cache) (key : String) (version : Nat) :
    (c.record key version).version key ≠ none := by
  simp [Cache.version, record]

/-- A record is about one key. -/
theorem version_record_of_ne (c : Cache) {key other : String} (h : other ≠ key) (version : Nat) :
    (c.record key version).version other = c.version other :=
  KeyMap.get?_insert_of_ne _ h _

theorem version_forget_self (c : Cache) (key : String) : (c.forget key).version key = none :=
  KeyMap.get?_erase_self _ _

theorem version_forget_of_ne (c : Cache) {key other : String} (h : other ≠ key) :
    (c.forget key).version other = c.version other :=
  KeyMap.get?_erase_of_ne _ h

end Cache

namespace Station

/-! ## Steps about one key -/

/-- What is so at every station that can come about. -/
structure Sound (handler : HandlerId) (s : Station) : Prop where
  accounted : s.site.Accounted
  /-- The handler of workflows is the only watcher. -/
  watched : s.cache.watchers = [⟨workflowScope, handler⟩]
  failedAdd_iff : ∀ key w, workflowName? key = some w →
    (s.failedAdd key = true ↔ s.cache.version key = none ∧ s.site.document w ≠ none)

/-- A stretch of work: it leaves a sound station, it writes no manifest, and calls that are answered
stay answered. -/
structure Goes (handler : HandlerId) (s s' : Station) : Prop where
  sound : s'.Sound handler
  manifests : ∀ v e, s'.site.store.entries.get? (workflowKey v) = some e →
    s.site.store.entries.get? (workflowKey v) = some e
  calm : s.site.side.fates = [] → s'.site.side.fates = []

/-- A step about one key. -/
structure Minds (handler : HandlerId) (key : String) (s s' : Station) : Prop
    extends Goes handler s s' where
  version : ∀ k, k ≠ key → s'.cache.version k = s.cache.version k
  document : ∀ k w, k ≠ key → workflowName? k = some w →
    s'.site.document w = s.site.document w

/-- A stretch of work in which no new manifest of a workflow shows up: it keeps its document if it is
not cached, and leaves the cache only when the document is gone. -/
structure Wanes (key w : String) (s s' : Station) : Prop where
  settled : s.cache.version key = none →
    s'.cache.version key = none ∧ s'.site.document w = s.site.document w
  cleared : s.cache.version key ≠ none → s'.cache.version key = none → s'.site.document w = none

variable {handler : HandlerId} {key w : String} {s s' s'' : Station}

theorem Sound.goes (h : s.Sound handler) : Goes handler s s := ⟨h, fun _ _ he => he, id⟩

theorem Sound.minds (h : s.Sound handler) (key : String) : Minds handler key s s :=
  ⟨h.goes, fun _ _ => rfl, fun _ _ _ _ => rfl⟩

theorem Goes.trans (h : Goes handler s s') (h' : Goes handler s' s'') : Goes handler s s'' :=
  ⟨h'.sound, fun v e he => h.manifests v e (h'.manifests v e he), fun hcalm => h'.calm (h.calm hcalm)⟩

theorem Minds.trans (h : Minds handler key s s') (h' : Minds handler key s' s'') :
    Minds handler key s s'' :=
  ⟨h.toGoes.trans h'.toGoes, fun k hk => (h'.version k hk).trans (h.version k hk),
    fun k w hk name => (h'.document k w hk name).trans (h.document k w hk name)⟩

theorem Wanes.refl (key w : String) (s : Station) : Wanes key w s s :=
  ⟨fun hnone => ⟨hnone, rfl⟩, fun hsome hnone => absurd hnone hsome⟩

theorem Wanes.trans (h : Wanes key w s s') (h' : Wanes key w s' s'') : Wanes key w s s'' where
  settled hnone := by
    obtain ⟨hnone', hsame⟩ := h.settled hnone
    obtain ⟨hnone'', hsame'⟩ := h'.settled hnone'
    exact ⟨hnone'', hsame'.trans hsame⟩
  cleared hsome hnone'' := by
    by_cases hnone' : s'.cache.version key = none
    · rw [(h'.settled hnone').2]
      exact h.cleared hsome hnone'
    · exact h'.cleared hnone' hnone''

/-- A step about another key does nothing about this one. -/
theorem Minds.wanes {other : String} (h : Minds handler other s s') (hkey : key ≠ other)
    (name : workflowName? key = some w) : Wanes key w s s' where
  settled hnone := ⟨(h.version key hkey).trans hnone, h.document key w hkey name⟩
  cleared hsome hnone := absurd ((h.version key hkey).symm.trans hnone) hsome

/-! ## What leaves a sound station -/

/-- Reading the store leaves a sound station. -/
theorem Sound.reads (h : s.Sound handler) {site : Site Fleet} (haccounted : site.Accounted)
    (hdocument : ∀ w, site.document w = s.site.document w) (hside : site.side = s.site.side)
    (hmanifests : ∀ v e, site.store.entries.get? (workflowKey v) = some e →
      s.site.store.entries.get? (workflowKey v) = some e) (key : String) :
    Minds handler key s { s with site } := by
  refine ⟨⟨⟨haccounted, h.watched, ?_⟩, hmanifests, ?_⟩, fun _ _ => rfl, fun _ w _ _ => hdocument w⟩
  · intro k w name
    change s.failedAdd k = true ↔ s.cache.version k = none ∧ site.document w ≠ none
    rw [hdocument]
    exact h.failedAdd_iff k w name
  · intro hcalm
    exact (congrArg Fleet.fates hside).trans hcalm

/-- Changing what is cached of a key leaves a sound station if the key stays in the cache or out of
it. -/
theorem Sound.caches (h : s.Sound handler) (cache : Cache)
    (hwatched : cache.watchers = s.cache.watchers)
    (hversion : ∀ k, k ≠ key → cache.version k = s.cache.version k)
    (hown : ∀ w, workflowName? key = some w →
      (cache.version key = none ↔ s.cache.version key = none)) :
    Minds handler key s { s with cache } := by
  refine ⟨⟨⟨h.accounted, hwatched.trans h.watched, ?_⟩, fun _ _ he => he, id⟩, hversion,
    fun _ _ _ _ => rfl⟩
  intro k w name
  change s.failedAdd k = true ↔ cache.version k = none ∧ s.site.document w ≠ none
  rw [h.failedAdd_iff k w name]
  by_cases hk : k = key
  · subst hk
    rw [hown w name]
  · rw [hversion k hk]

/-- A callback leaves a sound station if the cache is changed as the outcome says. -/
theorem Sound.calls (h : s.Sound handler) (event : WatchEvent) (cache : Cache)
    {outcome : Except Failure Unit} {site : Site Fleet}
    (hsite : site = s.site ∨ ∃ w, workflowName? event.key = some w ∧ s.site.Follows w site)
    (hwatched : cache.watchers = s.cache.watchers)
    (hversion : ∀ k, k ≠ event.key → cache.version k = s.cache.version k)
    (hown : ∀ w, workflowName? event.key = some w →
      ((event.isAdded && !outcome.isOk) = true ↔
        cache.version event.key = none ∧ site.document w ≠ none)) :
    Minds handler event.key s { s.called event outcome site with cache } := by
  have hframe : site.Accounted ∧
      (∀ k w, k ≠ event.key → workflowName? k = some w → site.document w = s.site.document w) ∧
      (∀ v e, site.store.entries.get? (workflowKey v) = some e →
        s.site.store.entries.get? (workflowKey v) = some e) ∧
      (s.site.side.fates = [] → site.side.fates = []) := by
    rcases hsite with rfl | ⟨v, hv, hfollows⟩
    · exact ⟨h.accounted, fun _ _ _ _ => rfl, fun _ _ he => he, id⟩
    · refine ⟨hfollows.accounted, ?_, ?_, hfollows.calm⟩
      · intro k w hk name
        apply hfollows.others
        rintro rfl
        exact hk ((eq_workflowKey name).trans (eq_workflowKey hv).symm)
      · intro v' e he
        rw [← hfollows.manifests v']
        exact he
  obtain ⟨haccounted, hdocument, hmanifests, hcalm⟩ := hframe
  refine ⟨⟨⟨haccounted, hwatched.trans h.watched, ?_⟩, hmanifests, hcalm⟩, hversion, hdocument⟩
  intro k w name
  change (((s.called event outcome site).latest? k).any fun c => c.event.isAdded && c.failed) = true ↔
    cache.version k = none ∧ site.document w ≠ none
  by_cases hk : k = event.key
  · subst hk
    rw [latest?_called_self]
    exact hown w name
  · rw [latest?_called_of_ne s hk, hversion k hk, hdocument k w hk name]
    exact h.failedAdd_iff k w name

/-! ## Callbacks -/

variable {deadline : Span}

/-- The station after a request. -/
private theorem exec_ask {r : WatchRequest} {reply : r.Reply}
    (h : (Watching.ask r).exec (answer deadline handler) s = (some reply, s')) :
    answer deadline handler r s = (some reply, s') :=
  (Program.exec_ask (answer deadline handler) r s).symm.trans h

/-- The cache is asked for a version. -/
private theorem exec_cached {version : Option Nat}
    (h : (Watching.cached key).exec (answer deadline handler) s = (some version, s')) :
    s.cache.version key = version ∧ s = s' := by
  obtain ⟨hversion, hsame⟩ := Prod.mk.inj (exec_ask h)
  exact ⟨Option.some.inj hversion, hsame⟩

/-- The station after a callback. -/
private theorem exec_notify {event : WatchEvent} {outcome : Except Failure Unit}
    (h : (Watching.notify handler event).exec (answer deadline handler) s = (some outcome, s')) :
    ∃ site, (handleWorkflowEvent deadline event).exec (Site.answer Fleet.side) s.site =
      (some outcome, site) ∧ s' = s.called event outcome site := by
  have hask := exec_ask h
  simp only [answer, if_true] at hask
  split at hask
  · next outcome' site hexec =>
    obtain ⟨heq, rfl⟩ := Prod.mk.inj hask
    obtain rfl := Option.some.inj heq
    exact ⟨site, hexec, rfl⟩
  · cases hask

/-- The station once the cache is changed as the outcome of a callback says. -/
def noted (s : Station) (outcome : Except Failure Unit) (change : Cache → Cache) : Station :=
  match outcome with
  | .ok _ => { s with cache := change s.cache }
  | .error _ => s

/-- **A manifest is handed over**: what succeeds is recorded. -/
theorem Sound.manifest (h : s.Sound handler) (event : WatchEvent) (data : Bytes)
    (hevent : handleWorkflowEvent deadline event = handleManifest deadline event.key data)
    (hnew : event.isAdded = true ↔ s.cache.version event.key = none)
    {outcome : Except Failure Unit}
    (hrun : (Watching.notify handler event).exec (answer deadline handler) s = (some outcome, s'))
    (version : Nat) :
    Minds handler event.key s (s'.noted outcome fun c => c.record event.key version) := by
  obtain ⟨site, hexec, rfl⟩ := exec_notify hrun
  have hheard := h.accounted.manifest_heard deadline event.key data
  rw [← hevent, hexec] at hheard
  obtain ⟨hsite, hfailed⟩ := hheard
  cases outcome with
  | ok _ =>
      refine h.calls event (s.cache.record event.key version) hsite rfl
        (fun k hk => Cache.version_record_of_ne _ hk version) fun w _ => ?_
      simp [Except.isOk, Except.toBool, Cache.version_record_self]
  | error failure =>
      refine h.calls event s.cache hsite rfl (fun _ _ => rfl) fun w name => ?_
      simpa [Except.isOk, Except.toBool, hfailed w failure name rfl] using hnew

/-- **A removal is handed over**: what succeeds is forgotten. Then there is no document any more, and
it does succeed where every call is answered. -/
theorem Sound.removal (h : s.Sound handler) (hknown : s.cache.version key ≠ none)
    {outcome : Except Failure Unit}
    (hrun : (Watching.notify handler (.deleted key)).exec (answer deadline handler) s =
      (some outcome, s')) :
    let last := s'.noted outcome fun c => c.forget key
    Minds handler key s last ∧ ∀ w, workflowName? key = some w →
      Wanes key w s last ∧ (s.site.side.fates = [] → last.cache.version key = none) := by
  obtain ⟨site, hexec, rfl⟩ := exec_notify hrun
  have hheard := h.accounted.removal_heard deadline key
  rw [show handleRemoval deadline key = handleWorkflowEvent deadline (.deleted key) from rfl,
    hexec] at hheard
  obtain ⟨hsite, houtcome⟩ := hheard
  cases outcome with
  | ok _ =>
      refine ⟨h.calls (.deleted key) (s.cache.forget key) hsite rfl
        (fun k hk => Cache.version_forget_of_ne _ hk) fun w name => ?_, fun w name => ?_⟩
      · simp [WatchEvent.isAdded, (houtcome w _ name rfl).1 rfl]
      · exact ⟨⟨fun hnone => absurd hnone hknown, fun _ _ => (houtcome w _ name rfl).1 rfl⟩,
          fun _ => Cache.version_forget_self _ _⟩
  | error failure =>
      refine ⟨h.calls (.deleted key) s.cache hsite rfl (fun _ _ => rfl)
        fun w name => ?_, fun w name => ?_⟩
      · simp [WatchEvent.isAdded, WatchEvent.key, hknown]
      · refine ⟨⟨fun hnone => absurd hnone hknown, fun _ hnone => absurd hnone hknown⟩, ?_⟩
        intro hcalm
        cases (houtcome w _ name rfl).2 hcalm

/-! ## Keys of a scan -/

/-- **A tombstone is dealt with.** -/
theorem Sound.observeTombstone (h : s.Sound handler)
    (hrun : (FleetControl.observeTombstone handler key).exec (answer deadline handler) s =
      (some (), s')) :
    Minds handler key s s' ∧ ∀ w, workflowName? key = some w →
      Wanes key w s s' ∧ (s.site.side.fates = [] → s'.cache.version key = none) := by
  obtain ⟨cached, s₀, hcached, hrun⟩ := Program.exec_bind_eq_some hrun
  obtain ⟨rfl, rfl⟩ := exec_cached hcached
  cases hversion : s.cache.version key with
  | none =>
      rw [hversion] at hrun
      obtain rfl : s = s' := congrArg Prod.snd hrun
      exact ⟨h.minds key, fun w _ => ⟨.refl key w s, fun _ => hversion⟩⟩
  | some previous =>
      rw [hversion] at hrun
      obtain ⟨outcome, s₁, hnotify, hrun⟩ := Program.exec_bind_eq_some hrun
      obtain rfl : s₁.noted outcome (fun c => c.forget key) = s' := by
        cases outcome with
        | ok _ => exact congrArg Prod.snd hrun
        | error _ => exact congrArg Prod.snd hrun
      exact h.removal (by simp [hversion]) hnotify

/-- What succeeded is recorded. -/
private theorem exec_record {outcome : Except Failure Unit} {version : Nat}
    (h : (match outcome with
      | .ok () => Watching.record key version
      | .error _ => pure () : Watching Unit).exec (answer deadline handler) s = (some (), s')) :
    s.noted outcome (fun c => c.record key version) = s' := by
  cases outcome with
  | ok _ => exact congrArg Prod.snd h
  | error _ => exact congrArg Prod.snd h

/-- **A live key is dealt with.** -/
theorem Sound.observeLive (h : s.Sound handler) {kv : Snapshot}
    (hrun : (FleetControl.observeLive handler kv).exec (answer deadline handler) s = (some (), s')) :
    Minds handler kv.key s s' := by
  obtain ⟨cached, s₀, hcached, hrun⟩ := Program.exec_bind_eq_some hrun
  obtain ⟨rfl, rfl⟩ := exec_cached hcached
  cases hversion : s.cache.version kv.key with
  | none =>
      rw [hversion] at hrun
      obtain ⟨outcome, s₁, hnotify, hrun⟩ := Program.exec_bind_eq_some hrun
      obtain rfl := exec_record hrun
      exact h.manifest (.added kv) kv.data rfl
        (by simp [WatchEvent.isAdded, WatchEvent.key, hversion]) hnotify kv.version
  | some previous =>
      simp only [hversion] at hrun
      split at hrun
      · obtain ⟨outcome, s₁, hnotify, hrun⟩ := Program.exec_bind_eq_some hrun
        obtain rfl := exec_record hrun
        exact h.manifest (.updated kv previous) kv.data rfl
          (by simp [WatchEvent.isAdded, WatchEvent.key, hversion]) hnotify kv.version
      · obtain rfl : { s with cache := s.cache.record kv.key kv.version } = s' :=
          congrArg Prod.snd hrun
        refine h.caches (s.cache.record kv.key kv.version) rfl
          (fun k hk => Cache.version_record_of_ne _ hk _) fun w _ => ?_
        simp [Cache.version_record_self, hversion]

/-! ## Cached keys -/

/-- Asking for a key leaves a sound station with the same cache. A key without an entry is not
there. -/
theorem Sound.present (h : s.Sound handler) {found : Except StoreError Bool}
    (hrun : (Watching.present key).exec (answer deadline handler) s = (some found, s')) :
    Minds handler key s s' ∧ s'.cache = s.cache ∧
      (s.site.store.entries.get? key = none → found = .ok false) := by
  obtain ⟨haccounted, hdocument, hside, hmanifests, hmissing⟩ := h.accounted.getAny key
  obtain ⟨hfound, rfl⟩ := Prod.mk.inj (exec_ask hrun)
  refine ⟨h.reads haccounted hdocument hside (fun v e he => hmanifests _ e he) key, rfl, ?_⟩
  intro hnone
  simp only [hmissing hnone] at hfound
  exact (Option.some.inj hfound).symm

/-- The cache is asked for a handler. -/
private theorem exec_handlerFor {watcher : Option HandlerId}
    (h : (Watching.handlerFor key).exec (answer deadline handler) s = (some watcher, s')) :
    s.cache.handlerFor (fun _ => true) key = watcher ∧ s = s' := by
  obtain ⟨hwatcher, hsame⟩ := Prod.mk.inj (exec_ask h)
  exact ⟨Option.some.inj hwatcher, hsame⟩

/-- The handler of workflows watches every manifest. -/
theorem Sound.handlerFor (h : s.Sound handler) (name : workflowName? key = some w) :
    s.cache.handlerFor (fun _ => true) key = some handler := by
  rw [eq_workflowKey name]
  simp [Cache.handlerFor, Cache.living, h.watched, under, workflowKey, String.toList_append,
    List.isPrefixOf_iff_prefix, Cache.closer]

/-- Nobody else watches anything. -/
theorem Sound.eq_of_handlerFor (h : s.Sound handler) {watcher : HandlerId}
    (hwatcher : s.cache.handlerFor (fun _ => true) key = some watcher) : watcher = handler := by
  simp only [Cache.handlerFor, Cache.living, h.watched, List.filter_cons, List.filter_nil, if_true]
    at hwatcher
  split at hwatcher
  · exact (Option.some.inj hwatcher).symm
  · cases hwatcher

/-- **A cached key is dealt with.** Where every call is answered, one that has no entry in the store
leaves the cache. -/
theorem Sound.sweepKey (h : s.Sound handler) (hknown : s.cache.version key ≠ none) {failed : Bool}
    (hrun : (FleetControl.sweepKey key).exec (answer deadline handler) s = (some failed, s')) :
    Minds handler key s s' ∧ ∀ w, workflowName? key = some w →
      Wanes key w s s' ∧ (s.site.side.fates = [] → s.site.store.entries.get? key = none →
        s'.cache.version key = none) := by
  obtain ⟨found, s₀, hpresent, hrun⟩ := Program.exec_bind_eq_some hrun
  obtain ⟨hreads, hcache, hmissing⟩ := h.present hpresent
  have hknown₀ : s₀.cache.version key ≠ none := by rwa [hcache]
  have hstays : ∀ w, Wanes key w s s₀ := fun w =>
    ⟨fun hnone => absurd hnone hknown, fun _ hnone => absurd hnone hknown₀⟩
  by_cases hfound : found = .ok false
  · subst hfound
    obtain ⟨watcher, s₁, hhandler, hrun⟩ := Program.exec_bind_eq_some hrun
    obtain ⟨hwatcher, rfl⟩ := exec_handlerFor hhandler
    cases watcher with
    | none =>
        -- Only a key that is no manifest's has no watcher.
        have hunnamed : ∀ w, workflowName? key ≠ some w := by
          intro w name
          rw [hreads.sound.handlerFor name] at hwatcher
          cases hwatcher
        obtain rfl : { s₀ with cache := s₀.cache.forget key } = s' := congrArg Prod.snd hrun
        refine ⟨hreads.trans (hreads.sound.caches (s₀.cache.forget key) rfl
          (fun k hk => Cache.version_forget_of_ne _ hk) ?_), ?_⟩
        · exact fun w name => absurd name (hunnamed w)
        · exact fun w name => absurd name (hunnamed w)
    | some watcher =>
        obtain rfl := hreads.sound.eq_of_handlerFor hwatcher
        obtain ⟨outcome, s₁, hnotify, hrun⟩ := Program.exec_bind_eq_some hrun
        obtain rfl : s₁.noted outcome (fun c => c.forget key) = s' := by
          cases outcome with
          | ok _ => exact congrArg Prod.snd hrun
          | error _ => exact congrArg Prod.snd hrun
        obtain ⟨hminds, hgone⟩ := hreads.sound.removal hknown₀ hnotify
        refine ⟨hreads.trans hminds, fun w name => ?_⟩
        obtain ⟨hwanes, hforgotten⟩ := hgone w name
        exact ⟨(hstays w).trans hwanes, fun hcalm _ => hforgotten (hreads.calm hcalm)⟩
  · obtain rfl : s₀ = s' := by
      rcases found with e | (_ | _)
      · exact congrArg Prod.snd hrun
      · exact absurd rfl hfound
      · exact congrArg Prod.snd hrun
    exact ⟨hreads, fun w _ => ⟨hstays w, fun _ hnone => absurd (hmissing hnone) hfound⟩⟩

end Station

end FleetControl
