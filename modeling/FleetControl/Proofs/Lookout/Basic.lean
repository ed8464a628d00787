import FleetControl.Proofs.Station.Basic
import FleetControl.Proofs.Store.Revision

/-!
# Where observers look out for changes

The informer pass and the cache sweep ask for the store, for the cache and for callbacks. A lookout is
where they run: a cache, a store in either backend, and a record of the callbacks. Nothing is assumed
of the handlers, and others work on the store whenever an observer waits: before each read of it and
during each callback. What comes of reads and callbacks is written down in two lists. Beyond their
ends a read sees the store as it is and a callback succeeds, so a lookout where both lists are empty is
one where nobody interferes.

An observer breaks off only when a read of the store does. What it does about a key is told by the
news about the key, which is the event that the store and the cache give rise to.

* `Lookout.answer` — the replies at a lookout;
* `Snapshot.news` — the event that a key gives rise to, given the version that is known of it;
* `Lookout.exec_observeAll`, `Lookout.exec_informerPass`, `Lookout.exec_sweepKey` — what the observers
  do, in these terms.
-/

namespace FleetControl

open Simulation (Backend)

/-! ## Events and the cache -/

namespace WatchEvent

/-- The version that an event tells of its key. A deleted key has none. -/
def version? : WatchEvent → Option Nat
  | added kv => some kv.version
  | updated kv _ => some kv.version
  | deleted _ => none

/-- Whether an event fits what is known of its key. -/
def Fits : WatchEvent → Option Nat → Prop
  | added _, known => known = none
  | updated kv previous, known => known = some previous ∧ previous < kv.version
  | deleted _, known => known ≠ none

end WatchEvent

/-- The event that a key in a scan gives rise to, given the version that is known of it. -/
def Snapshot.news (kv : Snapshot) : Option Nat → Option WatchEvent
  | none => if kv.dead then none else some (.added kv)
  | some previous =>
    if kv.dead then some (.deleted kv.key)
    else if previous < kv.version then some (.updated kv previous)
    else none

/-- News are about the key and fit what is known of it. -/
theorem Snapshot.key_fits_of_news {kv : Snapshot} {known : Option Nat} {event : WatchEvent}
    (h : kv.news known = some event) : event.key = kv.key ∧ event.Fits known := by
  cases known with
  | none =>
      simp only [news] at h
      split at h <;> cases h
      exact ⟨rfl, rfl⟩
  | some previous =>
      simp only [news] at h
      split at h
      · cases h
        exact ⟨rfl, Option.some_ne_none _⟩
      · split at h <;> cases h
        next hless => exact ⟨rfl, rfl, hless⟩

/-- News that tell a version tell that of the key. -/
theorem Snapshot.version_of_news {kv : Snapshot} {known : Option Nat} {event : WatchEvent}
    (h : kv.news known = some event) {version : Nat} (hversion : event.version? = some version) :
    version = kv.version := by
  cases known with
  | none =>
      simp only [news] at h
      split at h <;> cases h
      exact (Option.some.inj hversion).symm
  | some previous =>
      simp only [news] at h
      split at h
      · cases h
        cases hversion
      · split at h <;> cases h
        exact (Option.some.inj hversion).symm

namespace Cache

variable (c : Cache) (key : String)

theorem version_record (version : Nat) (k : String) :
    (c.record key version).version k =
      if k = key then some (max version ((c.version key).getD version)) else c.version k :=
  KeyMap.get?_insert _ _ _ _

theorem version_forget (k : String) :
    (c.forget key).version k = if k = key then none else c.version k :=
  KeyMap.get?_erase _ _ _

/-- Recording a version that is not above the one that is there changes nothing. -/
theorem record_of_le {c : Cache} {key : String} {version previous : Nat}
    (h : c.version key = some previous) (hle : version ≤ previous) :
    c.record key version = c := by
  have hentries : (c.record key version).entries = c.entries := by
    refine KeyMap.ext_get? fun k => ?_
    change (c.record key version).version k = c.version k
    rw [version_record]
    split
    · next heq =>
      subst heq
      rw [h, Option.getD_some, Nat.max_eq_right hle]
    · rfl
  exact congrArg (fun entries => { c with entries }) hentries

/-- The cache once a handler has dealt with an event. -/
def noted (event : WatchEvent) : Cache :=
  match event.version? with
  | some version => c.record event.key version
  | none => c.forget event.key

@[simp] theorem handlerFor_noted (event : WatchEvent) (alive : HandlerId → Bool) (k : String) :
    (c.noted event).handlerFor alive k = c.handlerFor alive k := by
  unfold noted
  split <;> rfl

/-- **An event that fits is what is known afterwards.** -/
theorem version_noted {c : Cache} {event : WatchEvent} (h : event.Fits (c.version event.key))
    (k : String) :
    (c.noted event).version k = if k = event.key then event.version? else c.version k := by
  cases event with
  | added kv =>
      have hnone : c.version kv.key = none := h
      change (c.record kv.key kv.version).version k = _
      rw [version_record, hnone, Option.getD_none, Nat.max_self]
      rfl
  | updated kv previous =>
      obtain ⟨hsome, hless⟩ := h
      change (c.record kv.key kv.version).version k = _
      rw [version_record, show c.version kv.key = some previous from hsome, Option.getD_some,
        Nat.max_eq_left (Nat.le_of_lt hless)]
      rfl
  | deleted key => exact c.version_forget key k

/-- The only watcher is the handler of every key under its scope. -/
theorem handlerFor_of_only {c : Cache} {scope key : String} {handler : HandlerId}
    {alive : HandlerId → Bool} (h : c.watchers = [⟨scope, handler⟩]) (halive : alive handler = true)
    (hunder : under scope key = true) : c.handlerFor alive key = some handler := by
  simp [handlerFor, living, h, halive, hunder, closer]

/-- Every key under the scope of a watcher that is alive has a handler. -/
theorem handlerFor_ne_none {c : Cache} {scope key : String} {handler : HandlerId}
    {alive : HandlerId → Bool} (h : ⟨scope, handler⟩ ∈ c.watchers) (halive : alive handler = true)
    (hunder : under scope key = true) : c.handlerFor alive key ≠ none := by
  have hfold : ∀ (l : List Watcher) (best : Option Watcher), (best ≠ none ∨ l ≠ []) →
      l.foldl closer best ≠ none := by
    intro l
    induction l with
    | nil => simp
    | cons w rest ih =>
        intro best _
        refine ih _ (.inl ?_)
        unfold closer
        split
        · simp
        · split <;> simp
  have hmem : (⟨scope, handler⟩ : Watcher) ∈
      (c.living alive).filter fun w => under w.scope key := by
    simp [living, h, halive, hunder]
  unfold handlerFor
  rw [Ne, Option.map_eq_none_iff]
  exact hfold _ none (.inr (List.ne_nil_of_mem hmem))

/-- The handler of a key is that of a living watcher whose scope the key lies under. -/
theorem watcher_of_handlerFor {c : Cache} {key : String} {handler : HandlerId}
    {alive : HandlerId → Bool} (h : c.handlerFor alive key = some handler) :
    ∃ w ∈ c.watchers, alive w.handler = true ∧ under w.scope key = true ∧ w.handler = handler := by
  have hfold : ∀ (l : List Watcher) (best : Option Watcher) (w : Watcher),
      l.foldl closer best = some w → best = some w ∨ w ∈ l := by
    intro l
    induction l with
    | nil => exact fun best w h => .inl h
    | cons x rest ih =>
        intro best w h
        rcases ih _ w h with hcloser | hrest
        · unfold closer at hcloser
          split at hcloser
          · exact .inr (by simp [Option.some.inj hcloser])
          · split at hcloser
            · exact .inr (by simp [Option.some.inj hcloser])
            · exact .inl hcloser
        · exact .inr (List.mem_cons_of_mem _ hrest)
  obtain ⟨w, hw, hhandler⟩ := Option.map_eq_some_iff.1 h
  rcases hfold _ _ w hw with hnone | hmem
  · cases hnone
  · obtain ⟨hliving, hunder⟩ := List.mem_filter.1 hmem
    obtain ⟨hwatches, halive⟩ := List.mem_filter.1 hliving
    exact ⟨w, hwatches, halive, hunder, hhandler⟩

end Cache

/-! ## Lookouts -/

/-- A callback that has been made. -/
structure Notice where
  handler : HandlerId
  event : WatchEvent
  failed : Bool
  /-- What was cached when it was made. -/
  cached : KeyMap Nat
  /-- The store when it was made. -/
  store : Backend

/-- What becomes of a read of the store. -/
structure Reading where
  /-- What others do with the store before the read. -/
  before : List StoreMove
  /-- The instant of the read. -/
  now : Instant
  /-- The error that it fails with, if it does not come through to the store. -/
  fault : Option StoreError

/-- What becomes of a callback. -/
structure Reaction where
  /-- What the handler and others do with the store meanwhile. -/
  meanwhile : List StoreMove
  outcome : Except Failure Unit

/-- Where observers run. -/
structure Lookout where
  cache : Cache
  /-- Whether somebody keeps a handler. -/
  alive : HandlerId → Bool
  store : Backend
  /-- The present instant. -/
  now : Instant
  /-- What will become of the reads of the store. -/
  readings : List Reading
  /-- What will become of the callbacks. -/
  reactions : List Reaction
  /-- The callbacks so far, the latest first. -/
  log : List Notice

namespace Lookout

/-- What becomes of the next read. -/
def reading (L : Lookout) : Reading := L.readings.headD ⟨[], L.now, none⟩

/-- What becomes of the next callback. -/
def reaction (L : Lookout) : Reaction := L.reactions.headD ⟨[], .ok ()⟩

/-- The lookout when the next read comes. -/
def awaited (L : Lookout) : Lookout :=
  { L with
    now := L.reading.now
    store := L.reading.before.foldl Backend.moved L.store
    readings := L.readings.tail }

/-- The lookout after a read of the store. -/
def stored {ω : Type} (L : Lookout) :
    Outcome ω × Backend → Option (Except StoreError ω) × Lookout
  | (.answer a, store) => (some (.ok a), { L with store })
  | (.refused e, store) => (some (.error e), { L with store })
  | (.undatable, store) => (none, { L with store })

/-- Read the store. -/
def read (L : Lookout) (op : StoreOp) : Option (Except StoreError op.Reply) × Lookout :=
  match L.reading.fault with
  | some e => (some (.error e), L.awaited)
  | none => L.awaited.stored (L.awaited.store.apply L.awaited.now op)

/-- The lookout after the next callback. -/
def told (L : Lookout) (handler : HandlerId) (event : WatchEvent) : Lookout :=
  { L with
    store := L.reaction.meanwhile.foldl Backend.moved L.store
    reactions := L.reactions.tail
    log := ⟨handler, event, !L.reaction.outcome.isOk, L.cache.entries, L.store⟩ :: L.log }

/-- The replies at a lookout. Nobody asks an observer to stop. -/
def answer : (r : WatchRequest) → Lookout → Option r.Reply × Lookout
  | .cancelled, L => (some false, L)
  | .scan scope, L => L.read (.list scope)
  | .present key, L =>
    let r := L.read (.getAny key)
    (r.1.map fun found => found.map Option.isSome, r.2)
  | .cached key, L => (some (L.cache.version key), L)
  | .record key version, L => (some (), { L with cache := L.cache.record key version })
  | .forget key, L => (some (), { L with cache := L.cache.forget key })
  | .cachedKeys, L => (some L.cache.entries.keys, L)
  | .handlerFor key, L => (some (L.cache.handlerFor L.alive key), L)
  | .notify handler event, L => (some L.reaction.outcome, L.told handler event)

/-- The lookout once a handler was told of an event: what succeeds is noted in the cache. -/
def dealt (L : Lookout) (handler : HandlerId) (event : WatchEvent) : Lookout :=
  if L.reaction.outcome.isOk then { L.told handler event with cache := L.cache.noted event }
  else L.told handler event

/-- The lookout once a key of a scan was dealt with. -/
def observed (handler : HandlerId) (L : Lookout) (kv : Snapshot) : Lookout :=
  match kv.news (L.cache.version kv.key) with
  | none => L
  | some event => L.dealt handler event

/-- The lookout once a key of the cache was dealt with, and whether that failed. -/
def swept (L : Lookout) (key : String) : Option Bool × Lookout :=
  match L.read (.getAny key) with
  | (none, L) => (none, L)
  | (some (.error _), L) => (some true, L)
  | (some (.ok (some _)), L) => (some false, L)
  | (some (.ok none), L) =>
    match L.cache.handlerFor L.alive key with
    | none => (some false, { L with cache := L.cache.forget key })
    | some handler => (some (!L.reaction.outcome.isOk), L.dealt handler (.deleted key))

/-! ## Reads and callbacks -/

section

variable {L L' : Lookout}

/-- Waiting for a read changes nothing but the store. -/
theorem advances_awaited (L : Lookout) : Backend.Advances L.store L.awaited.store :=
  Backend.advances_foldl_moved _ _

/-- Where nobody interferes a read comes at once. -/
theorem awaited_of_calm (h : L.readings = []) : L.awaited = L := by
  obtain ⟨cache, alive, store, now, readings, reactions, log⟩ := L
  obtain rfl : readings = [] := h
  rfl

/-- What a read changes: the store, the present instant and what is to come. -/
structure SameBut (L L' : Lookout) : Prop where
  cache : L'.cache = L.cache
  alive : L'.alive = L.alive
  log : L'.log = L.log
  store : Backend.Advances L.store L'.store

theorem sameBut_read (L : Lookout) (op : StoreOp) : SameBut L (L.read op).2 := by
  unfold read
  split
  · exact ⟨rfl, rfl, rfl, L.advances_awaited⟩
  · have hstore := L.awaited.store.advances_apply L.awaited.now op
    generalize L.awaited.store.apply L.awaited.now op = result at hstore ⊢
    obtain ⟨_ | _ | _, store⟩ := result <;> exact ⟨rfl, rfl, rfl, L.advances_awaited.trans hstore⟩

/-- **A read that succeeds** is an operation on the store as it is when the read comes. -/
theorem read_eq_ok {op : StoreOp} {a : op.Reply} (h : L.read op = (some (.ok a), L')) :
    L.awaited.store.apply L.awaited.now op = (.answer a, L'.store) ∧
      L' = { L.awaited with store := L'.store } := by
  unfold read at h
  split at h
  · cases h
  · generalize L.awaited.store.apply L.awaited.now op = result at h ⊢
    obtain ⟨_ | _ | _, store⟩ := result <;> cases h
    exact ⟨rfl, rfl⟩

/-- A callback is about one key of the cache. -/
theorem version_dealt_of_ne (L : Lookout) (handler : HandlerId) {event : WatchEvent} {k : String}
    (h : k ≠ event.key) : (L.dealt handler event).cache.version k = L.cache.version k := by
  unfold dealt
  split
  · change (L.cache.noted event).version k = _
    unfold Cache.noted
    split
    · rw [Cache.version_record, if_neg h]
    · rw [Cache.version_forget, if_neg h]
  · rfl

/-- A key of which a callback was heard is known at the version of the event, the others as they
were. -/
theorem version_dealt (L : Lookout) (handler : HandlerId) {event : WatchEvent}
    (hfits : event.Fits (L.cache.version event.key)) (k : String) :
    (L.dealt handler event).cache.version k =
      if L.reaction.outcome.isOk = true ∧ k = event.key then event.version?
      else L.cache.version k := by
  unfold dealt
  split
  · next hok =>
    simp only [hok, true_and]
    exact Cache.version_noted hfits k
  · next hfailed =>
    rw [if_neg fun hk => hfailed hk.1]
    rfl

/-- Every callback is in the log, with what was cached and stored before it. -/
theorem log_dealt (L : Lookout) (handler : HandlerId) (event : WatchEvent) :
    (L.dealt handler event).log =
      ⟨handler, event, !L.reaction.outcome.isOk, L.cache.entries, L.store⟩ :: L.log := by
  unfold dealt
  split <;> rfl

theorem handlerFor_dealt (L : Lookout) (handler : HandlerId) (event : WatchEvent) (k : String) :
    (L.dealt handler event).cache.handlerFor (L.dealt handler event).alive k =
      L.cache.handlerFor L.alive k := by
  unfold dealt
  split
  · exact L.cache.handlerFor_noted event L.alive k
  · rfl

/-- Others work on the store during a callback. -/
theorem advances_dealt (L : Lookout) (handler : HandlerId) (event : WatchEvent) :
    Backend.Advances L.store (L.dealt handler event).store := by
  unfold dealt
  split <;> exact Backend.advances_foldl_moved _ _

end

/-! ## What the observers do -/

variable (handler : HandlerId) (L : Lookout)

theorem exec_cached (key : String) :
    (Watching.cached key).exec answer L = (some (L.cache.version key), L) := rfl

theorem exec_notify (event : WatchEvent) :
    (Watching.notify handler event).exec answer L =
      (some L.reaction.outcome, L.told handler event) := rfl

/-- **A tombstone**: a key that is known is handed over as deleted. -/
theorem exec_observeTombstone (key : String) :
    (observeTombstone handler key).exec answer L =
      (some (), match L.cache.version key with
        | none => L
        | some _ => L.dealt handler (.deleted key)) := by
  unfold observeTombstone
  rw [Program.exec_bind, exec_cached]
  cases L.cache.version key with
  | none => rfl
  | some previous =>
      simp only [Program.exec_bind, exec_notify, dealt]
      cases L.reaction.outcome <;> rfl

/-- **A live key**: it is handed over if it is new or has a higher version. -/
theorem exec_observeLive (kv : Snapshot) :
    (observeLive handler kv).exec answer L =
      (some (), match L.cache.version kv.key with
        | none => L.dealt handler (.added kv)
        | some previous =>
          if previous < kv.version then L.dealt handler (.updated kv previous) else L) := by
  unfold observeLive
  rw [Program.exec_bind, exec_cached]
  cases hknown : L.cache.version kv.key with
  | none =>
      simp only [Program.exec_bind, exec_notify, dealt]
      cases L.reaction.outcome <;> rfl
  | some previous =>
      dsimp only
      split
      · simp only [Program.exec_bind, exec_notify, dealt]
        cases L.reaction.outcome <;> rfl
      · next hle =>
        -- The version that is there is recorded once more.
        change (some (), { L with cache := L.cache.record kv.key kv.version }) = (some (), L)
        rw [Cache.record_of_le hknown (Nat.not_lt.1 hle)]

/-- **A key of a scan**: what is news is told. -/
theorem exec_observe (kv : Snapshot) :
    (observe handler kv).exec answer L = (some (), L.observed handler kv) := by
  unfold observe observed Snapshot.news
  by_cases hdead : kv.dead = true
  · rw [if_pos hdead, exec_observeTombstone]
    cases L.cache.version kv.key <;> simp only [hdead, if_true]
  · rw [if_neg hdead, exec_observeLive]
    cases L.cache.version kv.key with
    | none => rw [if_neg hdead]
    | some previous =>
        by_cases hless : previous < kv.version <;>
          simp only [hdead, hless, Bool.false_eq_true, if_true, if_false]

/-- **The keys of a scan** are dealt with one after the other. -/
theorem exec_observeAll (found : List Snapshot) :
    (observeAll handler found).exec answer L =
      (some (), found.foldl (observed handler) L) := by
  induction found generalizing L with
  | nil => rfl
  | cons kv rest ih =>
      change (observe handler kv >>= fun _ => observeAll handler rest).exec answer L = _
      rw [Program.exec_bind, exec_observe]
      exact ih _

/-- **A pass** deals with what a scan shows. -/
theorem exec_informerPass (scope : String) :
    (informerPass scope handler).exec answer L = match L.read (.list scope) with
      | (some (.ok found), L) => (some (.ok ()), found.foldl (observed handler) L)
      | (some (.error e), L) => (some (.error e.failure), L)
      | (none, L) => (none, L) := by
  have hscan : (Watching.scan scope).exec answer L = L.read (.list scope) :=
    Program.exec_ask answer (.scan scope) L
  unfold informerPass
  rw [Program.exec_bind, hscan]
  rcases L.read (.list scope) with ⟨_ | ⟨e | found⟩, L'⟩
  · rfl
  · rfl
  · change (observeAll handler found >>= fun _ =>
      (pure (.ok ()) : Watching (Except Failure Unit))).exec answer L' = _
    rw [Program.exec_bind, exec_observeAll handler L' found]
    rfl

/-- **A key of the cache** that is not in the store is handed over as deleted. -/
theorem exec_sweepKey (key : String) : (sweepKey key).exec answer L = L.swept key := by
  have hpresent : (Watching.present key).exec answer L =
      ((L.read (.getAny key)).1.map fun found => found.map Option.isSome,
        (L.read (.getAny key)).2) := Program.exec_ask answer (.present key) L
  unfold sweepKey swept
  rw [Program.exec_bind, hpresent]
  rcases L.read (.getAny key) with ⟨_ | ⟨e | ⟨_ | kv⟩⟩, L'⟩
  · rfl
  · rfl
  · change (Watching.handlerFor key >>= _).exec answer L' = _
    have hhandler : (Watching.handlerFor key).exec answer L' =
        (some (L'.cache.handlerFor L'.alive key), L') := rfl
    rw [Program.exec_bind, hhandler]
    dsimp only
    cases L'.cache.handlerFor L'.alive key with
    | none => rfl
    | some handler =>
        simp only [Program.exec_bind, exec_notify, dealt]
        cases L'.reaction.outcome <;> rfl
  · rfl

/-- **The keys of the cache** are dealt with one after the other. -/
theorem exec_sweepKeys_cons (key : String) (rest : List String) :
    (sweepKeys (key :: rest)).exec answer L = match L.swept key with
      | (none, L) => (none, L)
      | (some failed, L) =>
        let r := (sweepKeys rest).exec answer L
        (r.1.map fun more => if failed then more + 1 else more, r.2) := by
  change (sweepKey key >>= _).exec answer L = _
  rw [Program.exec_bind, exec_sweepKey]
  rcases L.swept key with ⟨_ | failed, L'⟩
  · rfl
  · dsimp only
    rw [Program.exec_bind]
    rcases (sweepKeys rest).exec answer L' with ⟨_ | more, L''⟩ <;> rfl

/-- **A sweep** deals with all keys of the cache. -/
theorem exec_sweep :
    (sweep.exec answer L).2 = ((sweepKeys L.cache.entries.keys).exec answer L).2 ∧
      ((sweep.exec answer L).1.isSome =
        ((sweepKeys L.cache.entries.keys).exec answer L).1.isSome) := by
  have hkeys : Watching.cachedKeys.exec answer L = (some L.cache.entries.keys, L) := rfl
  unfold sweep
  rw [Program.exec_bind, hkeys]
  dsimp only
  rw [Program.exec_bind]
  rcases (sweepKeys L.cache.entries.keys).exec answer L with ⟨_ | failed, L'⟩
  · exact ⟨rfl, rfl⟩
  · dsimp only
    split <;> exact ⟨rfl, rfl⟩

end Lookout

end FleetControl
