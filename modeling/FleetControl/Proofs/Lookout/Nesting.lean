import FleetControl.Proofs.Lookout.Truth

/-!
# Scopes inside scopes

The scope of one informer may lie inside that of another, and both may use one cache. The cache
remembers of a key that it was told, but not to whom. So the first pass that finds a live key tells
its handler of it, and to all later passes the key is nothing new: their handlers never hear that it
is there, although it lies under their scopes too. Which handler that is depends on nothing but the
order of the passes. The cache itself takes the handler with the longest scope for the one that the
key belongs to.

The passes come one after the other, each at its own instant, and nobody interferes. A key that is
live in the end was live all the time.

* `Lookout.tidings` — the callbacks about a key with the handlers that they were made to;
* `Lookout.Calm.tidings_pass` — what a pass adds to them;
* `Lookout.Informed` — a live key was told to the first handler that found it, or to nobody yet;
* `Lookout.Informed.visit`, `Lookout.Informed.visitAll` — a pass keeps that, and so do passes;
* `Lookout.first_finder_is_told` — who is told of the live keys.
-/

namespace FleetControl

open Simulation (Backend)

namespace Simulation.Backend

variable {now later : Instant} {b b' : Backend} {key : String} {e : Entry}

/-- Whether a scan of a scope comes across a key that the store shows. -/
def finds (b : Backend) (key scope : String) : Bool := under scope key && b.scans scope

/-- No operation changes which scopes can be scanned. -/
theorem finds_apply (b : Backend) (now : Instant) (op : StoreOp) (key scope : String) :
    (b.apply now op).2.finds key scope = b.finds key scope := by
  cases b <;> rfl

/-- What is live later is live now. -/
theorem live?_of_later (hle : now.nanos ≤ later.nanos) (h : b.live? later key = some e) :
    b.live? now key = some e := by
  obtain ⟨hentry, hlive⟩ := (live?_eq_some_iff _ _ _ _).1 h
  refine (live?_eq_some_iff _ _ _ _).2 ⟨hentry, ?_⟩
  unfold Entry.stage at hlive ⊢
  cases hdead : e.deadSince now with
  | none => rfl
  | some d =>
      rw [Entry.deadSince_of_le hle hdead] at hlive
      dsimp only at hlive
      split at hlive <;> cases hlive

/-- What is live later was not dropped. -/
theorem Sheds.live?_later (h : Sheds now b b') (hle : now.nanos ≤ later.nanos)
    (hlive : b.live? later key = some e) : b'.live? later key = some e := by
  obtain ⟨hentry, hstage⟩ := (live?_eq_some_iff _ _ _ _).1 hlive
  have hkept := h.live? key
  rw [live?_of_later hle hlive] at hkept
  refine (live?_eq_some_iff _ _ _ _).2 ⟨((live?_eq_some_iff _ _ _ _).1 hkept).1, ?_⟩
  rw [h.grace]
  exact hstage

end Simulation.Backend

namespace Lookout

variable {L L' : Lookout} {scope key : String} {handler : HandlerId}

/-! ## Who is told -/

/-- The callbacks about a key with the handlers that they were made to, the latest first. -/
def tidings (log : List Notice) (key : String) : List (HandlerId × WatchEvent) :=
  (log.filter fun n => decide (key = n.event.key)).map fun n => (n.handler, n.event)

theorem tidings_append (log log' : List Notice) (key : String) :
    tidings (log ++ log') key = tidings log key ++ tidings log' key := by
  unfold tidings
  rw [List.filter_append, List.map_append]

/-- If all callbacks were made to one handler, the handlers tell nothing more. -/
theorem tidings_of_one {log : List Notice} (h : ∀ n ∈ log, n.handler = handler) (key : String) :
    tidings log key = (callbacks log key).map fun event => (handler, event) := by
  unfold tidings callbacks
  rw [List.map_map]
  exact List.map_congr_left fun n hn => Prod.ext (h n (List.mem_filter.1 hn).1) rfl

/-- Dealing with the keys of a scan makes callbacks to one handler. -/
theorem log_observedAll (handler : HandlerId) (found : List Snapshot) (L : Lookout) :
    ∃ new, (found.foldl (observed handler) L).log = new ++ L.log ∧ ∀ n ∈ new, n.handler = handler := by
  induction found generalizing L with
  | nil => exact ⟨[], rfl, nofun⟩
  | cons kv rest ih =>
      obtain ⟨new, hlog, hnew⟩ := ih (L.observed handler kv)
      have hfirst : ∃ first, (L.observed handler kv).log = first ++ L.log ∧
          ∀ n ∈ first, n.handler = handler := by
        unfold observed
        split
        · exact ⟨[], rfl, nofun⟩
        · next event _ =>
          refine ⟨[⟨handler, event, !L.reaction.outcome.isOk, L.cache.entries, L.store⟩],
            L.log_dealt handler event, fun n hn => ?_⟩
          rw [List.mem_singleton.1 hn]
      obtain ⟨first, hlog', hfirst⟩ := hfirst
      refine ⟨new ++ first, ?_, fun n hn => (List.mem_append.1 hn).elim (hnew n) (hfirst n)⟩
      rw [List.foldl_cons, hlog, hlog', List.append_assoc]

namespace Calm

/-- Dealing with the keys of a scan leaves the store alone. -/
theorem store_observedAll (h : L.Calm) (handler : HandlerId) (found : List Snapshot) :
    (found.foldl (observed handler) L).store = L.store := by
  induction found generalizing L with
  | nil => rfl
  | cons kv rest ih =>
      rw [List.foldl_cons, ih (h.quiet_observed handler kv).calm]
      unfold observed
      split
      · rfl
      · rw [h.dealt_eq]

/-- A pass that is completed deals with the keys of a scan. -/
theorem pass_parts (h : L.Calm) {outcome : Except Failure Unit}
    (hpass : (informerPass scope handler).exec answer L = (some outcome, L')) :
    ∃ (found : List Snapshot) (store : Backend),
      L.store.apply L.now (.list scope) = (.answer found, store) ∧
      L' = found.foldl (observed handler) { L with store } := by
  rw [exec_informerPass, h.read_eq] at hpass
  rcases hlist : L.store.apply L.now (.list scope) with ⟨found | e | _, store⟩
  · rw [hlist] at hpass
    exact ⟨found, store, rfl, (congrArg Prod.snd hpass).symm⟩
  · exact absurd hlist (L.store.list_not_refused L.now scope e store)
  · rw [hlist] at hpass
    cases hpass

/-- A pass does not change what scans come across. -/
theorem finds_pass (h : L.Calm) {outcome : Except Failure Unit}
    (hpass : (informerPass scope handler).exec answer L = (some outcome, L')) (k other : String) :
    L'.store.finds k other = L.store.finds k other := by
  obtain ⟨found, store, hlist, rfl⟩ := h.pass_parts hpass
  have hread : ({ L with store } : Lookout).Calm := ⟨h.readings, h.reactions⟩
  rw [hread.store_observedAll, ← L.store.finds_apply L.now (.list scope), hlist]

/-- **What a pass tells of a key**, and to whom. -/
theorem tidings_pass (h : L.Calm) {outcome : Except Failure Unit}
    (hpass : (informerPass scope handler).exec answer L = (some outcome, L')) (k : String) :
    let news := if L.store.finds k scope then
        (L.store.shown? L.now k).bind fun kv => kv.news (L.cache.version k)
      else none
    L'.cache.version k = (heardOf (L.account k) news).1 ∧
      tidings L'.log k = (news.map fun event => (handler, event)).toList ++ tidings L.log k := by
  intro news
  obtain ⟨found, store, hlist, rfl⟩ := h.pass_parts hpass
  have haccount : (found.foldl (observed handler) { L with store }).account k =
      heardOf (L.account k) news := by
    by_cases hunder : under scope k = true
    · have hnews : news = if L.store.scans scope then
          (L.store.shown? L.now k).bind fun kv => kv.news (L.cache.version k) else none := by
        simp only [news, Backend.finds, hunder, Bool.true_and]
      rw [hnews]
      exact (h.account_pass hpass).2 k hunder
    · have hnews : news = none := by
        simp [news, Backend.finds, hunder]
      have hread : ({ L with store } : Lookout).Calm := ⟨h.readings, h.reactions⟩
      rw [hnews]
      refine hread.account_observedAll_of_notMem fun hmem => ?_
      obtain ⟨kv, hkv, rfl⟩ := List.mem_map.1 hmem
      exact hunder ((Backend.mem_list_iff hlist kv).1 hkv).2.1
  refine ⟨congrArg Prod.fst haccount, ?_⟩
  obtain ⟨new, hlog, hnew⟩ := log_observedAll handler found { L with store }
  have hcallbacks := congrArg Prod.snd haccount
  have hsplit : callbacks (new ++ L.log) k = callbacks new k ++ callbacks L.log k := by
    unfold callbacks
    rw [List.filter_append, List.map_append]
  have htold : (heardOf (L.account k) news).2 = news.toList ++ callbacks L.log k := by
    cases news <;> rfl
  simp only [account] at hcallbacks
  rw [hlog, hsplit] at hcallbacks
  rw [hlog, tidings_append, tidings_of_one hnew,
    List.append_cancel_right (hcallbacks.trans htold)]
  cases news <;> rfl

end Calm

/-! ## Passes one after the other -/

/-- A pass of a watcher at an instant. -/
structure Visit where
  now : Instant
  watcher : Watcher

/-- The lookout after a pass, if that does not break off. -/
def visit (L : Lookout) (v : Visit) : Option Lookout :=
  let r := (informerPass v.watcher.scope v.watcher.handler).exec answer { L with now := v.now }
  r.1.map fun _ => r.2

/-- The lookout after passes one after the other. -/
def visitAll (L : Lookout) (visits : List Visit) : Option Lookout := visits.foldlM visit L

/-- A key that will be live for some time was told to one handler, or to nobody yet, and the cache
knows its version once it was told. -/
structure Informed (stop : Instant) (key : String) (e : Entry) (told : Option HandlerId)
    (L : Lookout) : Prop where
  calm : L.Calm
  live : L.store.live? stop key = some e
  version : L.cache.version key = told.map fun _ => e.version
  tidings : tidings L.log key =
    (told.map fun handler => (handler, .added (e.snapshot key .live))).toList

namespace Informed

variable {stop : Instant} {e : Entry} {told : Option HandlerId}

/-- Nobody is told of anything while time passes. -/
theorem waited (h : L.Informed stop key e told) (now : Instant) :
    ({ L with now } : Lookout).Informed stop key e told :=
  ⟨⟨h.calm.readings, h.calm.reactions⟩, h.live, h.version, h.tidings⟩

/-- **A pass** tells its handler of a key that it finds, if nobody was told before. -/
theorem pass (h : L.Informed stop key e told) (hle : L.now.nanos ≤ stop.nanos)
    {outcome : Except Failure Unit}
    (hpass : (informerPass scope handler).exec answer L = (some outcome, L')) :
    L'.Informed stop key e (told.or (if L.store.finds key scope then some handler else none)) := by
  obtain ⟨hquiet, -⟩ := h.calm.account_pass hpass
  obtain ⟨hversion, htidings⟩ := h.calm.tidings_pass hpass key
  have hshown : L.store.shown? L.now key = some (e.snapshot key .live) :=
    ((Backend.live?_eq_some_iff_shown _ _ _ _).1 (Backend.live?_of_later hle h.live)).2
  -- The key is news as long as nobody was told of it.
  have hnews : (e.snapshot key .live).news (L.cache.version key) =
      told.elim (some (.added (e.snapshot key .live))) fun _ => none := by
    rw [h.version]
    cases told <;> simp [Snapshot.news, Entry.snapshot]
  simp only [hshown, Option.bind_some, hnews] at hversion htidings
  refine ⟨hquiet.calm, hquiet.store.live?_later hle h.live, ?_, ?_⟩
  · rw [hversion]
    cases told <;> split <;> simp [heardOf, account, h.version, WatchEvent.version?, Entry.snapshot]
  · rw [htidings, h.tidings]
    cases told <;> split <;> rfl

/-- **Passes one after the other** tell the first handler whose pass finds the key. -/
theorem visitAll (h : L.Informed stop key e told) {visits : List Visit}
    (hle : ∀ v ∈ visits, v.now.nanos ≤ stop.nanos) (hrun : L.visitAll visits = some L') :
    L'.Informed stop key e
      (told.or ((visits.find? fun v => L.store.finds key v.watcher.scope).map (·.watcher.handler))) := by
  induction visits generalizing L told with
  | nil =>
      obtain rfl := Option.some.inj hrun
      simpa using h
  | cons v rest ih =>
      obtain ⟨hfirst, hothers⟩ := List.forall_mem_cons.1 hle
      obtain ⟨L₁, hvisit, hrest⟩ := Option.bind_eq_some_iff.1 hrun
      obtain ⟨outcome, houtcome, rfl⟩ := Option.map_eq_some_iff.1 hvisit
      have hpass := Prod.ext (y := (_, _)) houtcome rfl
      have hnext := ih ((h.waited v.now).pass hfirst hpass) hothers hrest
      simp only [(h.waited v.now).calm.finds_pass hpass] at hnext
      rw [Option.or_assoc] at hnext
      rw [List.find?_cons]
      cases hfinds : L.store.finds key v.watcher.scope <;> simpa [hfinds] using hnext

end Informed

/-- **The first to find a live key is the only one who is told of it.** Nobody interferes with
passes that come one after the other and share a cache, which is empty at first. Then there is one
callback about a key that is live in the end, if any pass finds it: the handler of the first pass
that does is told that it was added. So the handler of a scope hears of all live keys under it
exactly if none of them is found before by the pass of another one. -/
theorem first_finder_is_told {L L' : Lookout} (calm : L.Calm) (fresh : L.cache.entries = .empty)
    (unheard : L.log = []) {visits : List Visit} {stop : Instant}
    (past : ∀ v ∈ visits, v.now.nanos ≤ stop.nanos) (run : L.visitAll visits = some L') :
    (∀ key e, L.store.live? stop key = some e → tidings L'.log key =
      ((visits.find? fun v => L.store.finds key v.watcher.scope).map fun v =>
        (v.watcher.handler, .added (e.snapshot key .live))).toList) ∧
    ∀ handler,
      (∀ key e v, L.store.live? stop key = some e → v ∈ visits → v.watcher.handler = handler →
        under v.watcher.scope key = true →
          (handler, .added (e.snapshot key .live)) ∈ tidings L'.log key) ↔
      ∀ key e v, L.store.live? stop key = some e → v ∈ visits → v.watcher.handler = handler →
        under v.watcher.scope key = true →
          ∃ before first after, visits = before ++ first :: after ∧
            L.store.finds key first.watcher.scope = true ∧ first.watcher.handler = handler ∧
            ∀ earlier ∈ before, L.store.finds key earlier.watcher.scope = false := by
  have htold : ∀ key e, L.store.live? stop key = some e → tidings L'.log key =
      ((visits.find? fun v => L.store.finds key v.watcher.scope).map fun v =>
        (v.watcher.handler, .added (e.snapshot key .live))).toList := by
    intro key e hlive
    have hversion : L.cache.version key = none := by simp [Cache.version, fresh]
    have hunheard : tidings L.log key = [] := by rw [unheard]; rfl
    have hbegun : L.Informed stop key e none := ⟨calm, hlive, hversion, hunheard⟩
    rw [(hbegun.visitAll past run).tidings, Option.none_or, Option.map_map]
    rfl
  -- The handler is told of a key exactly if the pass that finds it first is one of its own.
  have hmem : ∀ handler key e, L.store.live? stop key = some e →
      ((handler, .added (e.snapshot key .live)) ∈ tidings L'.log key ↔
        ∃ before first after, visits = before ++ first :: after ∧
          L.store.finds key first.watcher.scope = true ∧ first.watcher.handler = handler ∧
          ∀ earlier ∈ before, L.store.finds key earlier.watcher.scope = false) := by
    intro handler key e hlive
    rw [htold key e hlive]
    simp only [Option.mem_toList, Option.map_eq_some_iff, List.find?_eq_some_iff_append,
      Prod.mk.injEq, and_true, Bool.not_eq_true']
    constructor
    · rintro ⟨first, ⟨hfinds, before, after, hvisits, hbefore⟩, hhandler⟩
      exact ⟨before, first, after, hvisits, hfinds, hhandler, hbefore⟩
    · rintro ⟨before, first, after, hvisits, hfinds, hhandler, hbefore⟩
      exact ⟨first, ⟨hfinds, before, after, hvisits, hbefore⟩, hhandler⟩
  refine ⟨htold, fun handler => ⟨fun h key e v hlive hv hhandler hunder => ?_,
    fun h key e v hlive hv hhandler hunder => ?_⟩⟩
  · exact (hmem handler key e hlive).1 (h key e v hlive hv hhandler hunder)
  · exact (hmem handler key e hlive).2 (h key e v hlive hv hhandler hunder)

/-- The pass of the inner scope comes first: its handler is told of the key there, and the handler
of the outer scope of the other key only. -/
theorem inner_scope_told_first :
    let store := ([.ask default (.set "a/x" [1]), .ask default (.set "a/b/y" [2])] :
      List StoreMove).foldl Backend.moved (.memory (.new defaultGrace))
    let cache := { Cache.new "c" defaultSweepInterval with watchers := [⟨"a/", 1⟩, ⟨"a/b/", 2⟩] }
    let L : Lookout := ⟨cache, fun _ => true, store, default, [], [], []⟩
    let visits : List Visit := [⟨default, ⟨"a/b/", 2⟩⟩, ⟨default, ⟨"a/", 1⟩⟩]
    L.Calm ∧ L.cache.entries = .empty ∧ L.log = [] ∧
      ∃ L', L.visitAll visits = some L' ∧
        tidings L'.log "a/b/y" = [(2, .added ⟨"a/b/y", [2], 2, none, false⟩)] ∧
        tidings L'.log "a/x" = [(1, .added ⟨"a/x", [1], 1, none, false⟩)] := by
  intro store cache L visits
  have hends : (L.visitAll visits).isSome = true := by decide +kernel
  obtain ⟨L', hrun⟩ := Option.isSome_iff_exists.1 hends
  have hpast : ∀ v ∈ visits, v.now.nanos ≤ (default : Instant).nanos := by decide
  obtain ⟨htold, -⟩ := first_finder_is_told (L := L) ⟨rfl, rfl⟩ rfl rfl hpast hrun
  have hinner : L.store.live? default "a/b/y" = some ⟨[2], 2, none, none⟩ := by decide +kernel
  have houter : L.store.live? default "a/x" = some ⟨[1], 1, none, none⟩ := by decide +kernel
  exact ⟨⟨rfl, rfl⟩, rfl, rfl, L', hrun, (htold _ _ hinner).trans (by decide +kernel),
    (htold _ _ houter).trans (by decide +kernel)⟩

/-- The pass of the outer scope comes first: the handler of the inner one, which the cache takes for
the key's own, is never told of the live key under its scope. -/
theorem inner_scope_never_told :
    let store := (Backend.memory (.new defaultGrace)).moved (.ask default (.set "a/b/x" [49]))
    let cache := { Cache.new "c" defaultSweepInterval with watchers := [⟨"a/", 1⟩, ⟨"a/b/", 2⟩] }
    let L : Lookout := ⟨cache, fun _ => true, store, default, [], [], []⟩
    ∃ L', L.visitAll [⟨default, ⟨"a/", 1⟩⟩, ⟨default, ⟨"a/b/", 2⟩⟩] = some L' ∧
      (L'.store.live? L'.now "a/b/x").isSome = true ∧ under "a/b/" "a/b/x" = true ∧
      L'.cache.handlerFor L'.alive "a/b/x" = some 2 ∧
      tidings L'.log "a/b/x" = [(1, .added ⟨"a/b/x", [49], 1, none, false⟩)] := by
  intro store cache L
  have hall : (L.visitAll [⟨default, ⟨"a/", 1⟩⟩, ⟨default, ⟨"a/b/", 2⟩⟩]).map (fun L' =>
      ((L'.store.live? L'.now "a/b/x").isSome, L'.cache.handlerFor L'.alive "a/b/x",
        tidings L'.log "a/b/x")) =
      some (true, some 2, [(1, .added ⟨"a/b/x", [49], 1, none, false⟩)]) := by
    decide +kernel
  obtain ⟨L', hrun, hfacts⟩ := Option.map_eq_some_iff.1 hall
  obtain ⟨hlive, hrest⟩ := Prod.mk.inj hfacts
  obtain ⟨howner, htold⟩ := Prod.mk.inj hrest
  exact ⟨L', hrun, hlive, by decide, howner, htold⟩

end Lookout

end FleetControl
