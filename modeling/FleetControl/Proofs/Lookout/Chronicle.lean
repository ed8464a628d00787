import FleetControl.Proofs.Lookout.Basic
import Mathlib.Computability.Language

/-!
# The chronicle of a key

Two observers share one cache, the informer pass and the cache sweep, and between and during their
rounds anybody may write, delete, purge and compact the store. Callbacks fail or succeed as they
please. Whatever happens, the cache is told by the log: of each key it holds what the last successful
callback about the key told. An event is handed over only if it fits what is cached, so the
successful callbacks about a key follow one another as its lives do: it is added, updated some times,
and deleted.

That an event fits what is cached is a check of the observers. That it is not stale, so that nothing is
handed over at a version that is already recorded, needs the store: a version that a scan showed is
not undercut any more, since revisions only go up.

* `heard`, `recalled` — the successful callbacks about a key, and the version that the last one told;
* `Chronicle` — events each of which fits those before; `Chronicle.regular` — they go as lives do;
* `Lookout.Faithful` — what holds at every lookout that can come about, and what one key keeps of it;
* `Lookout.log_tells_cache` — the log and the cache after any turns.
-/

namespace FleetControl

open Computability
open Simulation (Backend)

/-! ## Lives -/

/-- The kinds of events. -/
inductive EventKind where
  | added
  | updated
  | deleted
  deriving DecidableEq

/-- The kind of an event. -/
def WatchEvent.kind : WatchEvent → EventKind
  | added _ => .added
  | updated .. => .updated
  | deleted _ => .deleted

/-- One life of a key after the other: added, updated some times, deleted. -/
def lives : Language EventKind := ({[.added]} * {[.updated]}∗ * {[.deleted]})∗

/-- The version that the last of some events told, the latest coming first. -/
def lastVersion? (events : List WatchEvent) : Option Nat :=
  events.head?.bind WatchEvent.version?

/-- Events about a key each of which fits those before, the latest first. -/
inductive Chronicle : List WatchEvent → Prop where
  | nothing : Chronicle []
  | next {events : List WatchEvent} {event : WatchEvent} (earlier : Chronicle events)
      (fits : event.Fits (lastVersion? events)) : Chronicle (event :: events)

/-- A life that has begun. -/
private def begun : Language EventKind := {[.added]} * {[.updated]}∗

private theorem added_mem_begun : [.added] ∈ begun :=
  Language.append_mem_mul (Set.mem_singleton [EventKind.added]) (Language.nil_mem_kstar _)

/-- A life goes on with an update. -/
private theorem mem_begun_of_updated {word : List EventKind} (h : word ∈ begun * {[.updated]}) :
    word ∈ begun := by
  unfold begun at h ⊢
  rw [mul_assoc] at h
  obtain ⟨first, hfirst, updates, hupdates, rfl⟩ := Language.mem_mul.1 h
  have hle : ({[.updated]} : Language EventKind)∗ * {[.updated]} ≤ {[.updated]}∗ :=
    kstar_mul_le_kstar
  exact Language.append_mem_mul hfirst (hle hupdates)

/-- A life ends with a deletion, and another may follow. -/
private theorem mem_lives_of_deleted {word : List EventKind}
    (h : word ∈ lives * begun * {[.deleted]}) : word ∈ lives := by
  rw [mul_assoc] at h
  have hle : lives * (begun * {[.deleted]}) ≤ lives := kstar_mul_le_kstar
  exact hle h

/-- What is known of a key tells whether a life has begun. -/
private theorem Chronicle.mem_of_version {events : List WatchEvent} (h : Chronicle events) :
    (lastVersion? events = none → (events.map WatchEvent.kind).reverse ∈ lives) ∧
      (lastVersion? events ≠ none → (events.map WatchEvent.kind).reverse ∈ lives * begun) := by
  induction h with
  | nothing => exact ⟨fun _ => Language.nil_mem_kstar _, fun hsome => absurd rfl hsome⟩
  | @next events event _ fits ih =>
      rw [List.map_cons, List.reverse_cons]
      cases event with
      | added kv => exact ⟨nofun, fun _ => Language.append_mem_mul (ih.1 fits) added_mem_begun⟩
      | updated kv previous =>
          refine ⟨nofun, fun _ => ?_⟩
          obtain ⟨earlier, hearlier, life, hlife, hword⟩ :=
            Language.mem_mul.1 (ih.2 (by simp [fits.1]))
          rw [← hword, List.append_assoc]
          exact Language.append_mem_mul hearlier
            (mem_begun_of_updated (Language.append_mem_mul hlife rfl))
      | deleted key =>
          refine ⟨fun _ => ?_, fun hsome => absurd rfl hsome⟩
          exact mem_lives_of_deleted (Language.append_mem_mul (ih.2 fits) rfl)

/-- **A chronicle goes as lives do**, the last of which may not be over. -/
theorem Chronicle.regular {events : List WatchEvent} (h : Chronicle events) :
    ∃ rest, (events.map WatchEvent.kind).reverse ++ rest ∈ lives := by
  obtain ⟨hover, hbegun⟩ := h.mem_of_version
  by_cases hknown : lastVersion? events = none
  · refine ⟨[], ?_⟩
    rw [List.append_nil]
    exact hover hknown
  · exact ⟨[.deleted],
      mem_lives_of_deleted (Language.append_mem_mul (hbegun hknown) rfl)⟩

/-! ## The log -/

/-- The successful callbacks about a key, the latest first. -/
def heard (log : List Notice) (key : String) : List WatchEvent :=
  (log.filter fun n => !n.failed && decide (key = n.event.key)).map (·.event)

/-- The version that the last successful callback about a key told, if it was not a deletion. -/
def recalled (log : List Notice) (key : String) : Option Nat := lastVersion? (heard log key)

/-- A successful callback is heard about its key, a failed one not at all. -/
theorem heard_cons (n : Notice) (log : List Notice) (key : String) :
    heard (n :: log) key =
      if n.failed = false ∧ key = n.event.key then n.event :: heard log key else heard log key := by
  unfold heard
  rw [List.filter_cons]
  by_cases hheard : n.failed = false ∧ key = n.event.key
  · rw [if_pos hheard, if_pos (by simp [hheard.1, hheard.2])]
    rfl
  · rw [if_neg hheard, if_neg]
    simpa using hheard

/-- How a callback stands to those before it. -/
structure Notice.Due (scope : String) (handler : HandlerId) (earlier : List Notice) (n : Notice) :
    Prop where
  handler : n.handler = handler
  scope : under scope n.event.key = true
  /-- The cache holds what the callbacks before told. -/
  cached : ∀ key, n.cached.get? key = recalled earlier key
  fits : n.event.Fits (n.cached.get? n.event.key)
  /-- Only a deletion is handed over while the present version of the key is recorded. -/
  unrecorded : n.event.version? ≠ none →
    ∀ e, n.store.entry? n.event.key = some e → n.cached.get? n.event.key ≠ some e.version

namespace Lookout

variable {scope : String} {handler : HandlerId} {L L' : Lookout}

/-- What holds at every lookout that can come about. -/
structure Faithful (scope : String) (handler : HandlerId) (L : Lookout) : Prop where
  numbered : L.store.Numbered
  /-- The handler is that of every key under the scope. -/
  watched : ∀ key, under scope key = true → L.cache.handlerFor L.alive key = some handler
  /-- No other key is cached. -/
  confined : ∀ key, L.cache.version key ≠ none → under scope key = true
  recalled : ∀ key, L.cache.version key = recalled L.log key
  chronicle : ∀ key, Chronicle (heard L.log key)
  due : ∀ n earlier, n :: earlier <:+ L.log → n.Due scope handler earlier

namespace Faithful

/-- An empty cache has nothing to recall. -/
theorem new (hfresh : L.cache.entries = .empty) (hunheard : L.log = [])
    (hnumbered : L.store.Numbered)
    (hwatched : ∀ key, under scope key = true → L.cache.handlerFor L.alive key = some handler) :
    L.Faithful scope handler := by
  have hnone : ∀ key, L.cache.version key = none := by
    intro key
    simp [Cache.version, hfresh]
  refine ⟨hnumbered, hwatched, fun key hsome => absurd (hnone key) hsome, fun key => ?_,
    fun key => ?_, fun n earlier hsuffix => ?_⟩
  · rw [hnone, hunheard]
    rfl
  · rw [hunheard]
    exact .nothing
  · rw [hunheard] at hsuffix
    exact absurd (List.suffix_nil.1 hsuffix) (List.cons_ne_nil _ _)

/-- A read of the store keeps everything. -/
theorem sameBut (h : L.Faithful scope handler) (hsame : SameBut L L') :
    L'.Faithful scope handler := by
  obtain ⟨hcache, halive, hlog, hstore⟩ := hsame
  refine ⟨hstore.numbered h.numbered, ?_, ?_, ?_, ?_, ?_⟩
  · rw [hcache, halive]
    exact h.watched
  · rw [hcache]
    exact h.confined
  · rw [hcache, hlog]
    exact h.recalled
  · rw [hlog]
    exact h.chronicle
  · rw [hlog]
    exact h.due

/-- **A callback is due**: its event fits what is cached, and what it shows is not stale. -/
theorem due_told (h : L.Faithful scope handler) {event : WatchEvent}
    (hunder : under scope event.key = true) (hfits : event.Fits (L.cache.version event.key))
    (hreached : ∀ version, event.version? = some version → L.store.Reached event.key version)
    (failed : Bool) :
    Notice.Due scope handler L.log ⟨handler, event, failed, L.cache.entries, L.store⟩ := by
  refine ⟨rfl, hunder, h.recalled, hfits, fun htells e he => ?_⟩
  change L.cache.version event.key ≠ some e.version
  cases event with
  | added kv =>
      intro heq
      exact Option.some_ne_none _ (heq.symm.trans hfits)
  | updated kv previous =>
      obtain ⟨hknown, hless⟩ := hfits
      have hle : kv.version ≤ e.version := (hreached kv.version rfl).entry e he
      intro heq
      obtain rfl := Option.some.inj (heq.symm.trans hknown)
      omega
  | deleted key => exact absurd rfl htells

/-- **A callback keeps the cache and the log together.** -/
theorem dealt (h : L.Faithful scope handler) {event : WatchEvent}
    (hunder : under scope event.key = true) (hfits : event.Fits (L.cache.version event.key))
    (hreached : ∀ version, event.version? = some version → L.store.Reached event.key version) :
    (L.dealt handler event).Faithful scope handler := by
  have hdue := h.due_told hunder hfits hreached (!L.reaction.outcome.isOk)
  have hlog := L.log_dealt handler event
  have hversion := L.version_dealt handler hfits
  refine ⟨(L.advances_dealt handler event).numbered h.numbered, fun k hk => ?_, fun k hsome => ?_,
    fun k => ?_, fun k => ?_, fun n earlier hsuffix => ?_⟩
  · rw [handlerFor_dealt]
    exact h.watched k hk
  · rw [hversion] at hsome
    split at hsome
    · next hk => exact hk.2 ▸ hunder
    · exact h.confined k hsome
  · rw [hversion, hlog, FleetControl.recalled, heard_cons]
    simp only [Bool.not_eq_false']
    split
    · rfl
    · exact h.recalled k
  · rw [hlog, heard_cons]
    simp only [Bool.not_eq_false']
    split
    · next hk =>
      refine .next (h.chronicle k) ?_
      have hrecalled : lastVersion? (heard L.log k) = L.cache.version event.key :=
        hk.2 ▸ (h.recalled k).symm
      rwa [hrecalled]
    · exact h.chronicle k
  · rw [hlog, List.suffix_cons_iff] at hsuffix
    rcases hsuffix with heq | hsuffix
    · obtain ⟨rfl, rfl⟩ := List.cons.inj heq
      exact hdue
    · exact h.due n earlier hsuffix

/-! ## The two observers -/

/-- A key of a scan is dealt with. -/
theorem observed (h : L.Faithful scope handler) {kv : Snapshot} (hunder : under scope kv.key = true)
    (hreached : L.store.Reached kv.key kv.version) :
    (L.observed handler kv).Faithful scope handler ∧
      Backend.Advances L.store (L.observed handler kv).store := by
  unfold Lookout.observed
  cases hnews : kv.news (L.cache.version kv.key) with
  | none => exact ⟨h, .refl _⟩
  | some event =>
      obtain ⟨hkey, hfits⟩ := Snapshot.key_fits_of_news hnews
      refine ⟨h.dealt (hkey ▸ hunder) (hkey ▸ hfits) fun version hversion => ?_,
        L.advances_dealt handler event⟩
      rwa [hkey, Snapshot.version_of_news hnews hversion]

/-- **The keys of a scan are dealt with**, while what the scan showed is overtaken. -/
theorem observedAll (h : L.Faithful scope handler) {found : List Snapshot}
    (hfound : ∀ kv ∈ found, under scope kv.key = true ∧ L.store.Reached kv.key kv.version) :
    (found.foldl (Lookout.observed handler) L).Faithful scope handler := by
  induction found generalizing L with
  | nil => exact h
  | cons kv rest ih =>
      obtain ⟨hunder, hreached⟩ := hfound kv (by simp)
      obtain ⟨hnext, hstore⟩ := h.observed hunder hreached
      refine ih hnext fun other hother => ?_
      obtain ⟨hunder, hreached⟩ := hfound other (by simp [hother])
      exact ⟨hunder, hstore.reached hreached⟩

/-- **A pass.** -/
theorem pass (h : L.Faithful scope handler) :
    ((informerPass scope handler).exec answer L).2.Faithful scope handler := by
  rw [exec_informerPass]
  have hread := h.sameBut (L.sameBut_read (.list scope))
  rcases hlist : L.read (.list scope) with ⟨_ | ⟨e | found⟩, L'⟩
  · rw [hlist] at hread
    exact hread
  · rw [hlist] at hread
    exact hread
  · rw [hlist] at hread
    obtain ⟨happly, -⟩ := read_eq_ok hlist
    have hstore : Backend.Advances L.awaited.store L'.store := by
      have hadvances := L.awaited.store.advances_apply L.awaited.now (.list scope)
      rwa [happly] at hadvances
    have hnumbered := L.advances_awaited.numbered h.numbered
    refine hread.observedAll fun kv hkv => ?_
    obtain ⟨-, hunder, hshown⟩ := (Backend.mem_list_iff happly kv).1 hkv
    obtain ⟨e, hentry, -, hkv⟩ := (Backend.shown?_eq_some_iff _ _ _ _).1 hshown
    refine ⟨hunder, hstore.reached ?_⟩
    rw [hkv]
    exact hnumbered.reached hentry

/-- A key of the cache is dealt with, and nothing is cached differently of another. -/
theorem swept (h : L.Faithful scope handler) {key : String} (hknown : L.cache.version key ≠ none) :
    (L.swept key).2.Faithful scope handler ∧
      ∀ k, k ≠ key → (L.swept key).2.cache.version k = L.cache.version k := by
  have hsame := L.sameBut_read (.getAny key)
  have hread := h.sameBut hsame
  have hkept := hsame.cache
  unfold Lookout.swept
  rcases hgetAny : L.read (.getAny key) with ⟨_ | ⟨e | ⟨_ | kv⟩⟩, L'⟩
  all_goals rw [hgetAny] at hread hkept
  · exact ⟨hread, fun k _ => by rw [hkept]⟩
  · exact ⟨hread, fun k _ => by rw [hkept]⟩
  · have hknown : L'.cache.version key ≠ none := by rwa [hkept]
    dsimp only
    rw [hread.watched key (hread.confined key hknown)]
    refine ⟨hread.dealt (hread.confined key hknown) hknown nofun, fun k hk => ?_⟩
    rw [version_dealt_of_ne _ _ hk, hkept]
  · exact ⟨hread, fun k _ => by rw [hkept]⟩

/-- **The keys of the cache are dealt with.** -/
theorem sweptAll (h : L.Faithful scope handler) {keys : List String} (hkeys : keys.Nodup)
    (hknown : ∀ key ∈ keys, L.cache.version key ≠ none) :
    ((sweepKeys keys).exec answer L).2.Faithful scope handler := by
  induction keys generalizing L with
  | nil => exact h
  | cons key rest ih =>
      obtain ⟨hfirst, hrest⟩ := List.nodup_cons.1 hkeys
      obtain ⟨hnext, hothers⟩ := h.swept (hknown key (by simp))
      rw [exec_sweepKeys_cons]
      rcases hswept : L.swept key with ⟨_ | failed, L'⟩
      · rw [hswept] at hnext
        exact hnext
      · rw [hswept] at hnext hothers
        have hlast : ((sweepKeys rest).exec answer L').2.Faithful scope handler := by
          refine ih hnext hrest fun k hk => ?_
          have hne : k ≠ key := fun heq => hfirst (heq ▸ hk)
          exact hothers k hne ▸ hknown k (by simp [hk])
        exact hlast

/-- **A sweep.** -/
theorem sweep (h : L.Faithful scope handler) :
    (FleetControl.sweep.exec answer L).2.Faithful scope handler := by
  rw [(exec_sweep L).1]
  refine h.sweptAll L.cache.entries.nodup_keys fun key hkey => ?_
  rw [KeyMap.mem_keys_iff, KeyMap.contains_iff] at hkey
  obtain ⟨version, hversion⟩ := hkey
  exact Option.ne_none_iff_exists'.2 ⟨version, hversion⟩

end Faithful

/-! ## Turns -/

/-- What comes about at a lookout: somebody works on the store, or an observer has its round. -/
inductive Turn where
  | move (m : StoreMove)
  | pass
  | sweep

/-- The lookout after a turn. A round may break off. -/
def turn (scope : String) (handler : HandlerId) (L : Lookout) : Turn → Lookout
  | .move m => { L with store := L.store.moved m }
  | .pass => ((informerPass scope handler).exec answer L).2
  | .sweep => (FleetControl.sweep.exec answer L).2

/-- The lookout after some turns. -/
def after (scope : String) (handler : HandlerId) (turns : List Turn) (L : Lookout) : Lookout :=
  turns.foldl (turn scope handler) L

/-- Every turn keeps the cache and the log together. -/
theorem Faithful.turn (h : L.Faithful scope handler) (t : Turn) :
    (L.turn scope handler t).Faithful scope handler := by
  cases t with
  | move m => exact h.sameBut ⟨rfl, rfl, rfl, L.store.advances_moved m⟩
  | pass => exact h.pass
  | sweep => exact h.sweep

/-- All turns do. -/
theorem Faithful.after (h : L.Faithful scope handler) (turns : List Turn) :
    (L.after scope handler turns).Faithful scope handler := by
  unfold Lookout.after
  induction turns generalizing L with
  | nil => exact h
  | cons t rest ih => exact ih (h.turn t)

/-- **The log tells the cache.** A handler watches a scope with a cache that is empty at first, over
a store of which no entry is newer than its revision. After any work on the store and any rounds of
the two observers, with any outcomes of the reads and of the callbacks, the cache holds a key exactly
if the last successful callback about it was not a deletion, at the version of that callback; the
successful callbacks about a key go as its lives do; and each callback, failed or not, was made about a
key under the scope with an event that fits what the successful ones before it told: a new key was not
known, an updated one was known at the version that is passed on, which is smaller than the new one,
and neither is told of at a version that is recorded. -/
theorem log_tells_cache {L : Lookout} {scope : String} {handler : HandlerId}
    (fresh : L.cache.entries = .empty) (unheard : L.log = []) (numbered : L.store.Numbered)
    (watched : ∀ key, under scope key = true → L.cache.handlerFor L.alive key = some handler)
    (turns : List Turn) :
    let L' := L.after scope handler turns
    (∀ key, L'.cache.version key = recalled L'.log key) ∧
      (∀ key, ∃ rest, ((heard L'.log key).map WatchEvent.kind).reverse ++ rest ∈ lives) ∧
      ∀ n earlier, n :: earlier <:+ L'.log → n.Due scope handler earlier := by
  intro L'
  have h : L'.Faithful scope handler := (Faithful.new fresh unheard numbered watched).after turns
  exact ⟨h.recalled, fun key => (h.chronicle key).regular, h.due⟩

/-- A key is added at the second attempt, updated, purged and swept. -/
theorem log_tells_purged_key :
    let cache := { Cache.new "c" defaultSweepInterval with watchers := [⟨"w/", 0⟩] }
    let L : Lookout := ⟨cache, fun _ => true, .memory (.new defaultGrace), default, [],
      [⟨[], .error (.ofText "not now")⟩], []⟩
    let turns : List Turn := [.move (.ask default (.set "w/a" [1])), .pass, .pass,
      .move (.ask default (.set "w/a" [2])), .pass, .move (.purge "w/a"), .sweep]
    let L' := L.after "w/" 0 turns
    L'.log.map (·.failed) = [false, false, false, true] ∧
      (heard L'.log "w/a").map WatchEvent.kind = [.deleted, .updated, .added] ∧
      (∀ key, L'.cache.version key = recalled L'.log key) ∧
      ∀ n earlier, n :: earlier <:+ L'.log → n.Due "w/" 0 earlier := by
  intro cache L turns L'
  have hwatched : ∀ key, under "w/" key = true → L.cache.handlerFor L.alive key = some 0 :=
    fun _ => Cache.handlerFor_of_only rfl rfl
  have hrun : L'.log.map (·.failed) = [false, false, false, true] ∧
      (heard L'.log "w/a").map WatchEvent.kind = [.deleted, .updated, .added] := by
    decide +kernel
  obtain ⟨hcache, -, hdue⟩ :=
    log_tells_cache rfl rfl (Backend.numbered_new defaultGrace).1 hwatched turns
  exact ⟨hrun.1, hrun.2, hcache, hdue⟩

end Lookout

end FleetControl
