import FleetControl.Proofs.Lookout.Basic

/-!
# A pass and a sweep reach the truth

Where nobody interferes, a pass and then a sweep leave the cache with the live keys of the scope at
their versions, and each key was told of once if it had to be told of at all. The two observers share
the work: the pass deals with the keys that the store shows, live ones and tombstones, and the sweep
with those that it does not show any more. A key that is shown is present for the sweep, which leaves
it alone, and a read does not change what is shown, so no key falls between the two and none is dealt
with twice.

This takes a scan that finds what the store shows. The table finds nothing under a scope with a NUL in
it, and then the truth is reached only if there was nothing to be told of the keys that are shown.

* `Lookout.Calm` — nobody interferes; `Lookout.Quiet` — what the observers leave as it was;
* `Lookout.account` — what the cache and the log say of a key;
* `Lookout.account_pass`, `Lookout.account_sweep` — what the observers make of it;
* `Lookout.reaches_truth_iff` — when a pass and a sweep reach the truth.
-/

namespace FleetControl

open Simulation (Backend)

/-- The callbacks about a key, the latest first. -/
def callbacks (log : List Notice) (key : String) : List WatchEvent :=
  (log.filter fun n => decide (key = n.event.key)).map (·.event)

theorem callbacks_cons (n : Notice) (log : List Notice) (key : String) :
    callbacks (n :: log) key =
      if key = n.event.key then n.event :: callbacks log key else callbacks log key := by
  unfold callbacks
  rw [List.filter_cons]
  split <;> simp_all

namespace Lookout

/-- Nobody interferes: reads see the store as it is, and callbacks succeed. -/
structure Calm (L : Lookout) : Prop where
  readings : L.readings = []
  reactions : L.reactions = []

/-- What the cache and the log say of a key: its version, and the callbacks about it. -/
def account (L : Lookout) (key : String) : Option Nat × List WatchEvent :=
  (L.cache.version key, callbacks L.log key)

/-- What remains of an account when news come. -/
def heardOf (account : Option Nat × List WatchEvent) : Option WatchEvent →
    Option Nat × List WatchEvent
  | none => account
  | some event => (event.version?, event :: account.2)

/-- What the observers leave as it was when nobody interferes: at most what is gone leaves the
store. -/
structure Quiet (L L' : Lookout) : Prop where
  calm : L'.Calm
  now : L'.now = L.now
  handlerFor : ∀ key, L'.cache.handlerFor L'.alive key = L.cache.handlerFor L.alive key
  store : Backend.Sheds L.now L.store L'.store

variable {L L' L'' : Lookout} {handler : HandlerId} {key scope : String}

namespace Quiet

theorem refl (h : L.Calm) : Quiet L L := ⟨h, rfl, fun _ => rfl, .refl _ _⟩

theorem trans (h : Quiet L L') (h' : Quiet L' L'') : Quiet L L'' :=
  ⟨h'.calm, h'.now.trans h.now, fun key => (h'.handlerFor key).trans (h.handlerFor key),
    h.store.trans (h.now ▸ h'.store)⟩

/-- The store still shows what it showed. -/
theorem shown? (h : Quiet L L') (key : String) :
    L'.store.shown? L'.now key = L.store.shown? L.now key := by
  rw [h.now]
  exact h.store.shown? key

end Quiet

namespace Calm

/-- A callback succeeds and is noted. -/
theorem dealt_eq (h : L.Calm) (handler : HandlerId) (event : WatchEvent) :
    L.dealt handler event = { L with
      cache := L.cache.noted event
      log := ⟨handler, event, false, L.cache.entries, L.store⟩ :: L.log } := by
  obtain ⟨cache, alive, store, now, readings, reactions, log⟩ := L
  obtain ⟨rfl, rfl⟩ := h
  rfl

theorem quiet_dealt (h : L.Calm) (handler : HandlerId) (event : WatchEvent) :
    Quiet L (L.dealt handler event) := by
  have hhandler := L.handlerFor_dealt handler event
  rw [h.dealt_eq] at hhandler ⊢
  exact ⟨⟨h.readings, h.reactions⟩, rfl, hhandler, .refl _ _⟩

/-- **A callback is on the account of its key** and on no other. -/
theorem account_dealt (h : L.Calm) {event : WatchEvent}
    (hfits : event.Fits (L.cache.version event.key)) (k : String) :
    (L.dealt handler event).account k =
      heardOf (L.account k) (if k = event.key then some event else none) := by
  rw [h.dealt_eq]
  unfold account
  dsimp only
  rw [Cache.version_noted hfits, callbacks_cons]
  split <;> rfl

/-- **A key of a scan** is told of if there is news. -/
theorem account_observed (h : L.Calm) (kv : Snapshot) (k : String) :
    (L.observed handler kv).account k =
      heardOf (L.account k) (if k = kv.key then kv.news (L.cache.version k) else none) := by
  unfold observed
  cases hnews : kv.news (L.cache.version kv.key) with
  | none =>
      by_cases hk : k = kv.key
      · subst hk
        simp [hnews, heardOf]
      · simp [hk, heardOf]
  | some event =>
      obtain ⟨hkey, hfits⟩ := Snapshot.key_fits_of_news hnews
      dsimp only
      rw [h.account_dealt (hkey ▸ hfits), hkey]
      by_cases hk : k = kv.key
      · subst hk
        simp [hnews]
      · simp [hk]

theorem quiet_observed (h : L.Calm) (handler : HandlerId) (kv : Snapshot) :
    Quiet L (L.observed handler kv) := by
  unfold observed
  split
  · exact .refl h
  · exact h.quiet_dealt handler _

theorem quiet_observedAll (h : L.Calm) (handler : HandlerId) (found : List Snapshot) :
    Quiet L (found.foldl (observed handler) L) := by
  induction found generalizing L with
  | nil => exact .refl h
  | cons kv rest ih =>
      have hfirst := h.quiet_observed handler kv
      exact hfirst.trans (ih hfirst.calm)

/-- A key that a scan does not show is not told of. -/
theorem account_observedAll_of_notMem (h : L.Calm) {found : List Snapshot} {k : String}
    (hk : k ∉ found.map (·.key)) : (found.foldl (observed handler) L).account k = L.account k := by
  induction found generalizing L with
  | nil => rfl
  | cons kv rest ih =>
      rw [List.map_cons, List.mem_cons, not_or] at hk
      rw [List.foldl_cons, ih (h.quiet_observed handler kv).calm hk.2, h.account_observed,
        if_neg hk.1]
      rfl

/-- **A key that a scan shows** is told of if there is news, once. -/
theorem account_observedAll (h : L.Calm) {found : List Snapshot}
    (hnodup : (found.map (·.key)).Nodup) {kv : Snapshot} (hkv : kv ∈ found) :
    (found.foldl (observed handler) L).account kv.key =
      heardOf (L.account kv.key) (kv.news (L.cache.version kv.key)) := by
  induction found generalizing L with
  | nil => cases hkv
  | cons first rest ih =>
      rw [List.map_cons] at hnodup
      obtain ⟨hfirst, hrest⟩ := List.nodup_cons.1 hnodup
      have hcalm := (h.quiet_observed handler first).calm
      have hstep : (L.observed handler first).account kv.key = _ :=
        h.account_observed first kv.key
      rw [List.foldl_cons]
      rcases List.mem_cons.1 hkv with rfl | hkv
      · rw [hcalm.account_observedAll_of_notMem hfirst, hstep, if_pos rfl]
      · have hne : kv.key ≠ first.key := by
          intro heq
          exact hfirst (List.mem_map.2 ⟨kv, hkv, heq⟩)
        rw [if_neg hne] at hstep
        rw [ih hcalm hrest hkv, hstep, show (L.observed handler first).cache.version kv.key =
          L.cache.version kv.key from congrArg Prod.fst hstep]
        rfl

/-! ## The pass -/

/-- A read comes at once and sees the store as it is. -/
theorem read_eq (h : L.Calm) (op : StoreOp) :
    L.read op = L.stored (L.store.apply L.now op) := by
  unfold read
  rw [awaited_of_calm h.readings]
  have hfault : L.reading.fault = none := by simp [reading, h.readings]
  rw [hfault]

/-- **A pass** tells of the keys that are shown under its scope, if the scan finds anything. -/
theorem account_pass (h : L.Calm) {outcome : Except Failure Unit}
    (hpass : (informerPass scope handler).exec answer L = (some outcome, L')) :
    Quiet L L' ∧ ∀ k, under scope k = true → L'.account k = heardOf (L.account k)
      (if L.store.scans scope then
        (L.store.shown? L.now k).bind fun kv => kv.news (L.cache.version k)
      else none) := by
  rw [exec_informerPass, h.read_eq] at hpass
  have hsheds := L.store.sheds_list L.now scope
  rcases hlist : L.store.apply L.now (.list scope) with ⟨found | e | _, store⟩
  · rw [hlist] at hpass hsheds
    obtain rfl := congrArg Prod.snd hpass
    have hread : Quiet L { L with store } := ⟨⟨h.readings, h.reactions⟩, rfl, fun _ => rfl, hsheds⟩
    refine ⟨hread.trans (hread.calm.quiet_observedAll handler found), fun k hunder => ?_⟩
    have hmem := fun kv => Backend.mem_list_iff hlist kv
    by_cases hk : k ∈ found.map (·.key)
    · obtain ⟨kv, hkv, rfl⟩ := List.mem_map.1 hk
      obtain ⟨hscans, -, hshown⟩ := (hmem kv).1 hkv
      rw [if_pos hscans, hshown]
      exact hread.calm.account_observedAll (Backend.nodup_list hlist) hkv
    · have hunseen : (if L.store.scans scope then
          (L.store.shown? L.now k).bind fun kv => kv.news (L.cache.version k)
        else none) = none := by
        split
        · next hscans =>
          cases hshown : L.store.shown? L.now k with
          | none => rfl
          | some kv =>
              have hkey := Backend.key_of_shown? hshown
              rw [← hkey] at hshown hunder
              exact absurd (List.mem_map.2 ⟨kv, (hmem kv).2 ⟨hscans, hunder, hshown⟩, hkey⟩) hk
        · rfl
      rw [hunseen]
      exact hread.calm.account_observedAll_of_notMem hk
  · exact absurd hlist (L.store.list_not_refused L.now scope e store)
  · rw [hlist] at hpass
    cases hpass

/-! ## The sweep -/

/-- A key of the cache that is not shown is handed over as deleted, and one that is shown is left
alone. -/
theorem account_swept (h : L.Calm) (hknown : L.cache.version key ≠ none) {failed : Bool}
    (hswept : L.swept key = (some failed, L')) :
    Quiet L L' ∧ ∀ k, (k = key → L.cache.handlerFor L.alive k ≠ none) →
      L'.account k = heardOf (L.account k)
        (if k = key ∧ L.store.shown? L.now k = none then some (.deleted k) else none) := by
  unfold swept at hswept
  rw [h.read_eq] at hswept
  have hsheds := L.store.sheds_getAny L.now key
  rcases hgetAny : L.store.apply L.now (.getAny key) with ⟨found | e | _, store⟩
  · rw [hgetAny] at hswept hsheds
    have hfound := Backend.getAny_answer hgetAny
    have hread : Quiet L { L with store } := ⟨⟨h.readings, h.reactions⟩, rfl, fun _ => rfl, hsheds⟩
    cases hshown : L.store.shown? L.now key with
    | some kv =>
        rw [hshown] at hfound
        obtain rfl : found = some kv := hfound
        obtain rfl := congrArg Prod.snd hswept
        refine ⟨hread, fun k _ => ?_⟩
        rw [if_neg (by rintro ⟨rfl, hnone⟩; simp [hshown] at hnone)]
        rfl
    | none =>
        rw [hshown] at hfound
        obtain rfl : found = none := hfound
        simp only [stored] at hswept
        cases hhandler : L.cache.handlerFor L.alive key with
        | none =>
            rw [hhandler] at hswept
            obtain rfl := congrArg Prod.snd hswept
            refine ⟨hread.trans ⟨⟨h.readings, h.reactions⟩, rfl, fun _ => rfl, .refl _ _⟩,
              fun k hk => ?_⟩
            have hne : k ≠ key := by
              rintro rfl
              exact hk rfl hhandler
            rw [if_neg fun hboth => hne hboth.1]
            exact Prod.ext ((L.cache.version_forget key k).trans (if_neg hne)) rfl
        | some watcher =>
            rw [hhandler] at hswept
            obtain rfl := congrArg Prod.snd hswept
            refine ⟨hread.trans (hread.calm.quiet_dealt watcher _), fun k _ => ?_⟩
            have hfits : (WatchEvent.deleted key).Fits (L.cache.version key) := hknown
            rw [hread.calm.account_dealt hfits]
            change heardOf (L.account k) (if k = key then some (.deleted key) else none) = _
            by_cases hk : k = key
            · subst hk
              rw [if_pos rfl, if_pos ⟨rfl, hshown⟩]
            · rw [if_neg hk, if_neg fun hboth => hk hboth.1]
  · exact absurd hgetAny (L.store.getAny_not_refused L.now key e store)
  · rw [hgetAny] at hswept
    cases hswept

/-- **The keys of the cache** that are not shown are handed over as deleted, once. -/
theorem account_sweptAll (h : L.Calm) {keys : List String} (hkeys : keys.Nodup)
    (hknown : ∀ key ∈ keys, L.cache.version key ≠ none) {failed : Nat}
    (hrun : (sweepKeys keys).exec answer L = (some failed, L')) {k : String}
    (hk : L.cache.handlerFor L.alive k ≠ none) :
    L'.account k = heardOf (L.account k)
      (if k ∈ keys ∧ L.store.shown? L.now k = none then some (.deleted k) else none) := by
  induction keys generalizing L failed with
  | nil =>
      obtain rfl : L = L' := congrArg Prod.snd hrun
      rw [if_neg fun hboth => List.not_mem_nil hboth.1]
      rfl
  | cons key rest ih =>
      obtain ⟨hfirst, hrest⟩ := List.nodup_cons.1 hkeys
      rw [exec_sweepKeys_cons] at hrun
      rcases hswept : L.swept key with ⟨_ | failed', L₁⟩
      · rw [hswept] at hrun
        cases hrun
      · rw [hswept] at hrun
        obtain ⟨hmore, hlast⟩ := Prod.mk.inj hrun
        obtain ⟨more, hmore, -⟩ := Option.map_eq_some_iff.1 hmore
        obtain ⟨hquiet, haccount⟩ := h.account_swept (hknown key (by simp)) hswept
        have hothers : ∀ other ∈ rest, L₁.cache.version other ≠ none := by
          intro other hother
          have hne : other ≠ key := fun heq => hfirst (heq ▸ hother)
          have hsame := haccount other fun heq => absurd heq hne
          rw [if_neg fun hboth => hne hboth.1] at hsame
          rw [show L₁.cache.version other = L.cache.version other from congrArg Prod.fst hsame]
          exact hknown other (by simp [hother])
        rw [ih hquiet.calm hrest hothers (Prod.ext hmore hlast) ((hquiet.handlerFor k).symm ▸ hk),
          haccount k fun _ => hk, hquiet.shown?]
        by_cases hkey : k = key
        · subst hkey
          simp [hfirst, heardOf]
        · simp [hkey, heardOf]

/-- **A sweep** hands the keys of the cache over as deleted that are not shown. -/
theorem account_sweep (h : L.Calm) {outcome : Except Failure Unit}
    (hsweep : sweep.exec answer L = (some outcome, L')) {k : String}
    (hk : L.cache.handlerFor L.alive k ≠ none) :
    L'.account k = heardOf (L.account k)
      (if L.cache.version k ≠ none ∧ L.store.shown? L.now k = none then some (.deleted k)
      else none) := by
  obtain ⟨hlast, hends⟩ := exec_sweep L
  rw [hsweep, Option.isSome_some] at hends
  rw [hsweep] at hlast
  obtain ⟨failed, hfailed⟩ := Option.isSome_iff_exists.1 hends.symm
  have hmem : ∀ key, key ∈ L.cache.entries.keys ↔ L.cache.version key ≠ none := by
    intro key
    rw [KeyMap.mem_keys_iff, KeyMap.contains, Option.isSome_iff_ne_none]
    rfl
  rw [h.account_sweptAll L.cache.entries.nodup_keys (fun key hkey => (hmem key).1 hkey)
    (Prod.ext hfailed hlast.symm) hk]
  simp only [hmem]

end Calm

/-! ## The truth -/

/-- What has to be told of a key, given what is live and what is cached. -/
def due (L : Lookout) (key : String) : Option WatchEvent :=
  match L.store.live? L.now key, L.cache.version key with
  | some e, none => some (.added (e.snapshot key .live))
  | some e, some previous =>
    if previous < e.version then some (.updated (e.snapshot key .live) previous) else none
  | none, some _ => some (.deleted key)
  | none, none => none

/-- What has to be told of a key that is shown is news. -/
theorem due_of_shown {kv : Snapshot} (h : L.store.shown? L.now key = some kv) :
    L.due key = kv.news (L.cache.version key) := by
  obtain ⟨e, hentry, hkept, rfl⟩ := (Backend.shown?_eq_some_iff _ _ _ _).1 h
  unfold due
  cases hstage : e.stage L.store.grace L.now with
  | live =>
      rw [(Backend.live?_eq_some_iff _ _ _ _).2 ⟨hentry, hstage⟩]
      cases L.cache.version key <;> rfl
  | tombstone =>
      have hlive : L.store.live? L.now key = none := by
        simp [Backend.live?, hentry, hstage, Option.filter_some]
      rw [hlive]
      cases L.cache.version key <;> rfl
  | gone => exact absurd hstage hkept

/-- What has to be told of a key that is not shown is that it was deleted, if it is cached. -/
theorem due_of_not_shown (h : L.store.shown? L.now key = none) :
    L.due key = if L.cache.version key ≠ none then some (.deleted key) else none := by
  have hlive : L.store.live? L.now key = none := by
    refine Option.eq_none_iff_forall_not_mem.2 fun e he => ?_
    obtain ⟨-, hshown⟩ := (Backend.live?_eq_some_iff_shown _ _ _ _).1 he
    rw [h] at hshown
    cases hshown
  unfold due
  rw [hlive]
  cases L.cache.version key <;> rfl

/-- Once it was told what has to be told of a key, the cache has the truth. -/
theorem version_heardOf_due
    (hbehind : ∀ e previous, L.store.live? L.now key = some e →
      L.cache.version key = some previous → previous ≤ e.version) :
    (heardOf (L.account key) (L.due key)).1 = (L.store.live? L.now key).map (·.version) := by
  unfold due
  cases hlive : L.store.live? L.now key with
  | none => cases hknown : L.cache.version key <;> simp [heardOf, account, hknown, WatchEvent.version?]
  | some e =>
      cases hknown : L.cache.version key with
      | none => rfl
      | some previous =>
          have hle := hbehind e previous hlive hknown
          by_cases hless : previous < e.version
          · simp [hless, heardOf, WatchEvent.version?, Entry.snapshot]
          · have heq : previous = e.version := by omega
            simp [heardOf, account, hknown, heq]

/-- **What a pass and a sweep make of a key** is that it is told of what has to be told, unless the
scan misses it. -/
theorem account_after {L₁ L₂ : Lookout} (h : L.Calm)
    (hwatched : L.cache.handlerFor L.alive key ≠ none) (hunder : under scope key = true)
    {outcome outcome' : Except Failure Unit}
    (hpass : (informerPass scope handler).exec answer L = (some outcome, L₁))
    (hsweep : sweep.exec answer L₁ = (some outcome', L₂)) :
    L₂.account key = heardOf (L.account key)
      (if L.store.scans scope = true ∨ L.store.shown? L.now key = none then L.due key
      else none) := by
  obtain ⟨hquiet, hfirst⟩ := h.account_pass hpass
  have hsecond := hquiet.calm.account_sweep hsweep ((hquiet.handlerFor key).symm ▸ hwatched)
  rw [hsecond, hquiet.shown?, hfirst key hunder]
  have hversion : L₁.cache.version key = _ := congrArg Prod.fst (hfirst key hunder)
  cases hshown : L.store.shown? L.now key with
  | some kv =>
      -- The sweep leaves the key alone.
      rw [due_of_shown hshown]
      by_cases hscans : L.store.scans scope = true <;> simp [hscans, heardOf]
  | none =>
      -- The pass does not come across the key.
      have hmissed : (if L.store.scans scope then
          (none : Option Snapshot).bind fun kv => kv.news (L.cache.version key)
        else none) = none := by split <;> rfl
      rw [hshown, hmissed] at hversion
      rw [hmissed, hversion, due_of_not_shown hshown]
      simp [heardOf, account]

/-- **A pass and a sweep reach the truth** exactly if the scan finds anything under the scope, or
nothing has to be told of the keys there that the store shows. The scope has a watcher, nobody
interferes, and nothing is cached at a version above that of a live key. Then the cache has the live
keys under the scope at their versions and no others; and the callbacks are one for each key that is
live and not cached, one for each that is live at a higher version, one for each that is cached and
not live, and no others. -/
theorem reaches_truth_iff {L L₁ L₂ : Lookout} {scope : String} {handler : HandlerId} (calm : L.Calm)
    (watched : ⟨scope, handler⟩ ∈ L.cache.watchers) (kept : L.alive handler = true)
    (behind : ∀ key e previous, L.store.live? L.now key = some e →
      L.cache.version key = some previous → previous ≤ e.version)
    {outcome outcome' : Except Failure Unit}
    (pass : (informerPass scope handler).exec answer L = (some outcome, L₁))
    (sweep : FleetControl.sweep.exec answer L₁ = (some outcome', L₂)) :
    (∀ key, under scope key = true →
      L₂.cache.version key = (L.store.live? L.now key).map (·.version) ∧
        callbacks L₂.log key = (L.due key).toList ++ callbacks L.log key) ↔
      L.store.scans scope = true ∨
        ∀ key, under scope key = true → L.store.shown? L.now key ≠ none → L.due key = none := by
  have hafter : ∀ key, under scope key = true → L₂.account key = _ := fun key hunder =>
    account_after calm (Cache.handlerFor_ne_none watched kept hunder) hunder pass sweep
  have hcallbacks : ∀ (a : Option Nat × List WatchEvent) event,
      (heardOf a event).2 = event.toList ++ a.2 := by
    intro a event
    cases event <;> rfl
  constructor
  · intro htruth
    by_cases hscans : L.store.scans scope = true
    · exact .inl hscans
    · refine .inr fun key hunder hshown => ?_
      have hmissed := congrArg Prod.snd (hafter key hunder)
      rw [if_neg (not_or.2 ⟨hscans, hshown⟩)] at hmissed
      have htold := (htruth key hunder).2.symm.trans hmissed
      cases hdue : L.due key with
      | none => rfl
      | some event =>
          rw [hdue] at htold
          exact absurd htold (List.cons_ne_self event _)
  · intro hfound key hunder
    have hall : L₂.account key = heardOf (L.account key) (L.due key) := by
      rw [hafter key hunder]
      split
      · rfl
      · next hmissed =>
        obtain ⟨hscans, hshown⟩ := not_or.1 hmissed
        rw [hfound.resolve_left hscans key hunder hshown]
    refine ⟨(congrArg Prod.fst hall).trans (version_heardOf_due (behind key)), ?_⟩
    exact (congrArg Prod.snd hall).trans (hcallbacks _ _)

/-- A new key, one with a higher version, a tombstone and a key that is gone are told of, each once,
and the key that is cached at its version is not. -/
theorem truth_reached_in_memory :
    let store := ([.ask default (.set "w/a" [1]), .ask default (.set "w/b" [1]),
      .ask default (.set "w/b" [2]), .ask default (.set "w/c" [1]), .ask default (.delete "w/c"),
      .ask default (.set "w/e" [1])] : List StoreMove).foldl Backend.moved
        (.memory (.new defaultGrace))
    let cache := { Cache.new "c" defaultSweepInterval with
      entries := .ofList [("w/b", 2), ("w/c", 4), ("w/d", 1), ("w/e", 6)]
      watchers := [⟨"w/", 0⟩] }
    let L : Lookout := ⟨cache, fun _ => true, store, default, [], [], []⟩
    ∃ L₁ L₂ outcome outcome', (informerPass "w/" 0).exec answer L = (some outcome, L₁) ∧
      sweep.exec answer L₁ = (some outcome', L₂) ∧
      L₂.cache.entries.toList = [("w/a", 1), ("w/b", 3), ("w/e", 6)] ∧
      ∀ key, under "w/" key = true →
        L₂.cache.version key = (L.store.live? L.now key).map (·.version) ∧
          callbacks L₂.log key = (L.due key).toList ++ callbacks L.log key := by
  intro store cache L
  have hends : ((informerPass "w/" 0).exec answer L).1.isSome = true ∧
      (sweep.exec answer ((informerPass "w/" 0).exec answer L).2).1.isSome = true ∧
      (sweep.exec answer ((informerPass "w/" 0).exec answer L).2).2.cache.entries.toList =
        [("w/a", 1), ("w/b", 3), ("w/e", 6)] := by
    decide +kernel
  obtain ⟨hpass, hsweep, hlast⟩ := hends
  have hscans : L.store.scans "w/" = true := by decide +kernel
  obtain ⟨outcome, hpass⟩ := Option.isSome_iff_exists.1 hpass
  obtain ⟨outcome', hsweep⟩ := Option.isSome_iff_exists.1 hsweep
  have hbehind : ∀ key e previous, L.store.live? L.now key = some e →
      L.cache.version key = some previous → previous ≤ e.version := by
    intro key e previous hlive hknown
    have hversion : (L.store.live? L.now key).map (·.version) = some e.version := by rw [hlive]; rfl
    have hlisted : (L.cache.entries.toList.all fun x =>
        ((L.store.live? L.now x.1).map (·.version)).all fun version => decide (x.2 ≤ version)) =
          true := by
      decide +kernel
    have hbelow := List.all_eq_true.1 hlisted (key, previous)
      ((KeyMap.mem_toList_iff _ key previous).2 hknown)
    simpa [hversion] using hbelow
  have hfirst : (informerPass "w/" 0).exec answer L =
      (some outcome, ((informerPass "w/" 0).exec answer L).2) := Prod.ext hpass rfl
  generalize ((informerPass "w/" 0).exec answer L).2 = L₁ at hfirst hsweep hlast
  have hsecond : sweep.exec answer L₁ = (some outcome', (sweep.exec answer L₁).2) :=
    Prod.ext hsweep rfl
  exact ⟨L₁, _, outcome, outcome', hfirst, hsecond, hlast,
    (reaches_truth_iff ⟨rfl, rfl⟩ (List.mem_singleton.2 rfl) rfl hbehind hfirst hsecond).2
      (.inl hscans)⟩

/-- In the table a live key under a scope with a NUL in it is neither told of nor cached. -/
theorem truth_missed_under_nul :
    let store := (Backend.table (.new defaultGrace)).moved (.ask default (.set "w\x00/x" [1]))
    let cache := { Cache.new "c" defaultSweepInterval with watchers := [⟨"w\x00/", 0⟩] }
    let L : Lookout := ⟨cache, fun _ => true, store, default, [], [], []⟩
    ∃ L₁ L₂ outcome outcome', (informerPass "w\x00/" 0).exec answer L = (some outcome, L₁) ∧
      sweep.exec answer L₁ = (some outcome', L₂) ∧ under "w\x00/" "w\x00/x" = true ∧
      (L.store.live? L.now "w\x00/x").map (·.version) = some 1 ∧
      L₂.cache.version "w\x00/x" = none ∧ L₂.log.length = 0 := by
  intro store cache L
  have hall : ((informerPass "w\x00/" 0).exec answer L).1.isSome = true ∧
      (sweep.exec answer ((informerPass "w\x00/" 0).exec answer L).2).1.isSome = true ∧
      under "w\x00/" "w\x00/x" = true ∧
      (L.store.live? L.now "w\x00/x").map (·.version) = some 1 ∧
      (sweep.exec answer ((informerPass "w\x00/" 0).exec answer L).2).2.cache.version "w\x00/x" =
        none ∧
      (sweep.exec answer ((informerPass "w\x00/" 0).exec answer L).2).2.log.length = 0 := by
    decide +kernel
  obtain ⟨hpass, hsweep, hrest⟩ := hall
  obtain ⟨outcome, hpass⟩ := Option.isSome_iff_exists.1 hpass
  obtain ⟨outcome', hsweep⟩ := Option.isSome_iff_exists.1 hsweep
  have hfirst : (informerPass "w\x00/" 0).exec answer L =
      (some outcome, ((informerPass "w\x00/" 0).exec answer L).2) := Prod.ext hpass rfl
  generalize ((informerPass "w\x00/" 0).exec answer L).2 = L₁ at hfirst hsweep hrest
  exact ⟨L₁, _, outcome, outcome', hfirst, Prod.ext hsweep rfl, hrest⟩

end Lookout

end FleetControl
