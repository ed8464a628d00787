import FleetControl.Proofs.Lookout.Confined
import FleetControl.Proofs.Store.Ledger

/-!
# Watchers that share a cache

Two watchers with disjoint scopes may use one cache. What the cache has of the keys under the scope
of one of them then tells nothing of the other: each could as well have a cache to itself.

A key lies under at most one of the two scopes, so every pass and every step of a sweep keeps to the
keys of one watcher and tells no handler but that watcher's. Beside the watchroom where both are at
work there is one with a single watcher, in which the passes of the other one are left out. What is
done for the single watcher is done in both rooms, and goes alike, since the replies to it are
alike. What is done for the other one, or for keys that nobody watches, is done in the shared room
only, and leaves alone what the two have in common. It does read the store; but a read drops at most
what is gone for good, and nobody can tell such stores apart.

Operations on the store, passes and sweeps come one at a time. A handler makes of a callback what it
likes, given all callbacks that it has had.

* `Neighbours` — two watchers whose scopes are disjoint;
* `Watchroom.run` — operations on the store, passes and sweeps one after the other;
* `Unaffected` — what a single watcher's room has in common with the shared one;
* `Unaffected.alike`, `Unaffected.aside` — a program of the single watcher, and one of the other;
* `Unaffected.sweepKeys` — a sweep of the shared cache, and one of the own cache;
* `Watchroom.sharing_goes_unnoticed` — the callbacks and the cache of a watcher are those that it
  would have had alone.
-/

namespace FleetControl

open Simulation (Backend)

/-! ## Neighbours -/

/-- Two watchers with handlers of their own, neither of whose scopes is a prefix of the other's. -/
structure Neighbours where
  own : Watcher
  other : Watcher
  handlers : own.handler ≠ other.handler
  apart : under own.scope other.scope = false
  apart' : under other.scope own.scope = false

namespace Neighbours

/-- Whether a key is the own watcher's. -/
def owns (N : Neighbours) (key : String) : Prop := under N.own.scope key = true

instance (N : Neighbours) : DecidablePred N.owns :=
  fun key => inferInstanceAs (Decidable (under N.own.scope key = true))

/-- The own part of a map. -/
theorem get?_filter_owns {α : Type} (N : Neighbours) (m : KeyMap α) (key : String) :
    (m.filter fun key _ => N.owns key).get? key = if N.owns key then m.get? key else none := by
  rw [KeyMap.get?_filter]
  by_cases howns : N.owns key <;> cases m.get? key <;> simp [howns, Option.filter]

/-- A cache that the own watcher uses, and nobody but the two. -/
structure Share (N : Neighbours) (cache : Cache) : Prop where
  own : N.own ∈ cache.watchers
  only : ∀ w ∈ cache.watchers, w = N.own ∨ w = N.other

variable {N : Neighbours} {cache : Cache} {key : String}

/-- **No key lies under both scopes.** -/
theorem not_owns_of_under (h : under N.other.scope key = true) : ¬ N.owns key := by
  intro howns
  have hown : N.own.scope.toList <+: key.toList := List.isPrefixOf_iff_prefix.1 howns
  have hother : N.other.scope.toList <+: key.toList := List.isPrefixOf_iff_prefix.1 h
  rcases List.prefix_or_prefix_of_prefix hown hother with hprefix | hprefix
  · have hunder : under N.own.scope N.other.scope = true := List.isPrefixOf_iff_prefix.2 hprefix
    rw [N.apart] at hunder
    cases hunder
  · have hunder : under N.other.scope N.own.scope = true := List.isPrefixOf_iff_prefix.2 hprefix
    rw [N.apart'] at hunder
    cases hunder

/-- Own keys are handed to the own handler. -/
theorem handlerFor_of_owns (h : N.Share cache) {alive : HandlerId → Bool}
    (halive : alive N.own.handler = true) (howns : N.owns key) :
    cache.handlerFor alive key = some N.own.handler := by
  cases hhandler : cache.handlerFor alive key with
  | none => exact absurd hhandler (Cache.handlerFor_ne_none h.own halive howns)
  | some handler =>
      obtain ⟨w, hw, -, hunder, rfl⟩ := Cache.watcher_of_handlerFor hhandler
      rcases h.only w hw with rfl | rfl
      · rfl
      · exact absurd howns (not_owns_of_under hunder)

/-- Other keys are handed to the other handler, or to nobody. -/
theorem handlerFor_of_not_owns (h : N.Share cache) (alive : HandlerId → Bool)
    (hkey : ¬ N.owns key) :
    cache.handlerFor alive key = none ∨ cache.handlerFor alive key = some N.other.handler := by
  cases hhandler : cache.handlerFor alive key with
  | none => exact .inl rfl
  | some handler =>
      obtain ⟨w, hw, -, hunder, rfl⟩ := Cache.watcher_of_handlerFor hhandler
      rcases h.only w hw with rfl | rfl
      · exact absurd hunder hkey
      · exact .inr rfl

end Neighbours

/-! ## Watchrooms -/

/-- The handlers: which of them somebody keeps, and what each makes of a callback, given all that it
has had, the latest first. -/
structure Audience where
  alive : HandlerId → Bool
  react : HandlerId → List WatchEvent → Except Failure Unit

/-- What a handler was told, and what it made of it. -/
structure Hearing where
  handler : HandlerId
  event : WatchEvent
  outcome : Except Failure Unit

/-- When a pass or a sweep looks at the store, and what comes in the way. A pass looks at its scope,
and a sweep at one key after the other. -/
structure Occasion where
  /-- The instant at which a scope or a key is looked at. -/
  clock : String → Instant
  /-- The error with which that fails, if it does not come through to the store. -/
  fault : String → Option StoreError
  /-- When everything was looked at. -/
  finish : Instant
  ordered : ∀ {key key' : String}, key < key' → (clock key).nanos ≤ (clock key').nanos
  ends : ∀ key, (clock key).nanos ≤ finish.nanos

/-- What is done in a watchroom. -/
inductive Shift where
  | store (move : StoreMove)
  | pass (watcher : Watcher) (occasion : Occasion)
  | sweep (occasion : Occasion)

namespace Shift

/-- Whether something is not done before an instant. -/
def Follows (now : Instant) : Shift → Prop
  | store move => now.nanos ≤ (move.instant now).nanos
  | pass watcher occasion => now.nanos ≤ (occasion.clock watcher.scope).nanos
  | sweep occasion => ∀ key, now.nanos ≤ (occasion.clock key).nanos

/-- The instant at which something that began at an instant is done. -/
def finish (now : Instant) : Shift → Instant
  | store move => move.instant now
  | pass _ occasion => occasion.finish
  | sweep occasion => occasion.finish

/-- Things that are done one after the other from an instant on. -/
def InTurn : Instant → List Shift → Prop
  | _, [] => True
  | now, shift :: rest => shift.Follows now ∧ InTurn (shift.finish now) rest

/-- Passes are those of the two neighbours. -/
def Concerns (N : Neighbours) : Shift → Prop
  | pass watcher _ => watcher = N.own ∨ watcher = N.other
  | _ => True

/-- Whether something is left to be done where the own watcher is alone. -/
def remains (N : Neighbours) : Shift → Bool
  | pass watcher _ => watcher ≠ N.other
  | _ => true

end Shift

/-- Where watchers with one cache are at work. -/
structure Watchroom where
  cache : Cache
  store : Backend
  /-- The callbacks so far, the latest first. -/
  log : List Hearing

namespace Watchroom

/-- What a handler has heard, the latest first. -/
def heard (handler : HandlerId) (W : Watchroom) : List Hearing :=
  W.log.filter fun hearing => hearing.handler = handler

/-- The room after a read of the store. -/
def stored {ω : Type} (W : Watchroom) :
    Outcome ω × Backend → Option (Except StoreError ω) × Watchroom
  | (.answer a, store) => (some (.ok a), { W with store })
  | (.refused e, store) => (some (.error e), { W with store })
  | (.undatable, store) => (none, { W with store })

/-- Look at a place in the store. -/
def read (occasion : Occasion) (place : String) (op : StoreOp) (W : Watchroom) :
    Option (Except StoreError op.Reply) × Watchroom :=
  match occasion.fault place with
  | some e => (some (.error e), W)
  | none => W.stored (W.store.apply (occasion.clock place) op)

/-- What a handler makes of a callback. -/
def reaction (A : Audience) (handler : HandlerId) (event : WatchEvent) (W : Watchroom) :
    Except Failure Unit :=
  A.react handler (event :: (W.heard handler).map (·.event))

/-- The room after a callback. -/
def told (A : Audience) (handler : HandlerId) (event : WatchEvent) (W : Watchroom) : Watchroom :=
  { W with log := ⟨handler, event, W.reaction A handler event⟩ :: W.log }

/-- The replies in a watchroom. Nobody asks a watcher to stop. -/
def answer (A : Audience) (occasion : Occasion) :
    (r : WatchRequest) → Watchroom → Option r.Reply × Watchroom
  | .cancelled, W => (some false, W)
  | .scan scope, W => W.read occasion scope (.list scope)
  | .present key, W =>
    let r := W.read occasion key (.getAny key)
    (r.1.map fun found => found.map Option.isSome, r.2)
  | .cached key, W => (some (W.cache.version key), W)
  | .record key version, W => (some (), { W with cache := W.cache.record key version })
  | .forget key, W => (some (), { W with cache := W.cache.forget key })
  | .cachedKeys, W => (some W.cache.entries.keys, W)
  | .handlerFor key, W => (some (W.cache.handlerFor A.alive key), W)
  | .notify handler event, W => (some (W.reaction A handler event), W.told A handler event)

/-- What is done once. A pass or a sweep that breaks off leaves no room to go on in. -/
def step (A : Audience) (W : Watchroom) : Shift → Option Watchroom
  | .store move => some { W with store := W.store.moved move }
  | .pass watcher occasion =>
    let r := (informerPass watcher.scope watcher.handler).exec (answer A occasion) W
    r.1.map fun _ => r.2
  | .sweep occasion =>
    let r := FleetControl.sweep.exec (answer A occasion) W
    r.1.map fun _ => r.2

/-- What is done one after the other. -/
def run (A : Audience) (shifts : List Shift) (W : Watchroom) : Option Watchroom :=
  shifts.foldlM (step A) W

/-! ### Runs -/

variable (A : Audience) (occasion : Occasion) (W : Watchroom)

theorem run_cons (shift : Shift) (rest : List Shift) :
    W.run A (shift :: rest) = (W.step A shift).bind (run A rest) := rfl

theorem run_cons_eq_some {A : Audience} {shift : Shift} {rest : List Shift} {W W' : Watchroom}
    (h : W.run A (shift :: rest) = some W') :
    ∃ W₁, W.step A shift = some W₁ ∧ W₁.run A rest = some W' :=
  Option.bind_eq_some_iff.1 h

/-- The keys of a cache are dealt with one after the other. -/
theorem exec_sweepKeys_cons (key : String) (rest : List String) :
    (sweepKeys (key :: rest)).exec (answer A occasion) W =
      match (sweepKey key).exec (answer A occasion) W with
      | (none, W) => (none, W)
      | (some failed, W) =>
        let r := (sweepKeys rest).exec (answer A occasion) W
        (r.1.map fun more => if failed then more + 1 else more, r.2) := by
  change (sweepKey key >>= _).exec (answer A occasion) W = _
  rw [Program.exec_bind]
  rcases (sweepKey key).exec (answer A occasion) W with ⟨_ | failed, W'⟩
  · rfl
  · dsimp only
    rw [Program.exec_bind]
    rcases (sweepKeys rest).exec (answer A occasion) W' with ⟨_ | more, W''⟩ <;> rfl

/-- A sweep deals with all keys of the cache, and breaks off only where that does. -/
theorem step_sweep : W.step A (.sweep occasion) =
    let r := (sweepKeys W.cache.entries.keys).exec (answer A occasion) W
    r.1.map fun _ => r.2 := by
  have hkeys : Watching.cachedKeys.exec (answer A occasion) W =
      (some W.cache.entries.keys, W) := rfl
  simp only [step]
  unfold FleetControl.sweep
  rw [Program.exec_bind, hkeys]
  dsimp only
  rw [Program.exec_bind]
  rcases (sweepKeys W.cache.entries.keys).exec (answer A occasion) W with ⟨_ | failed, W'⟩
  · rfl
  · dsimp only
    split <;> rfl

end Watchroom

/-! ## A room of one's own -/

/-- What a room where the own watcher is alone has in common with a shared one at an instant. -/
structure Unaffected (N : Neighbours) (now : Instant) (shared alone : Watchroom) : Prop where
  store : Backend.Twins now shared.store alone.store
  version : ∀ key, alone.cache.version key =
    if N.owns key then shared.cache.version key else none
  log : alone.log = shared.heard N.own.handler
  strange : ∀ hearing ∈ shared.log, hearing.handler ≠ N.own.handler →
    ¬ N.owns hearing.event.key
  share : N.Share shared.cache
  watchers : alone.cache.watchers = [N.own]

namespace Unaffected

variable {N : Neighbours} {A : Audience} {occasion : Occasion} {now : Instant}
variable {W V : Watchroom} {place key : String}

theorem later (h : Unaffected N now W V) {later : Instant} (hle : now.nanos ≤ later.nanos) :
    Unaffected N later W V :=
  { h with store := h.store.later hle }

/-- The own handler has heard the same in both rooms. -/
theorem heard (h : Unaffected N now W V) : V.heard N.own.handler = W.heard N.own.handler := by
  unfold Watchroom.heard
  rw [h.log, Watchroom.heard, List.filter_filter]
  congr 1
  funext hearing
  rw [Bool.and_self]

/-! ### Replies -/

/-- **A read in both rooms** goes alike. -/
theorem read (h : Unaffected N (occasion.clock place) W V) (op : StoreOp) :
    (V.read occasion place op).1 = (W.read occasion place op).1 ∧
      Unaffected N (occasion.clock place) (W.read occasion place op).2
        (V.read occasion place op).2 := by
  unfold Watchroom.read
  cases occasion.fault place with
  | some e => exact ⟨rfl, h⟩
  | none =>
      obtain ⟨hanswer, htwins⟩ := h.store.apply op
      dsimp only
      generalize W.store.apply (occasion.clock place) op = result at hanswer htwins ⊢
      generalize V.store.apply (occasion.clock place) op = result' at hanswer htwins ⊢
      obtain ⟨outcome, store⟩ := result
      obtain ⟨outcome', store'⟩ := result'
      obtain rfl : outcome = outcome' := hanswer
      cases outcome <;> exact ⟨rfl, { h with store := htwins }⟩

/-- **A read in the shared room** leaves the other one with what it had in common. -/
theorem read_aside (h : Unaffected N (occasion.clock place) W V) {op : StoreOp}
    (hread : op.target? = none) :
    Unaffected N (occasion.clock place) (W.read occasion place op).2 V := by
  unfold Watchroom.read
  cases occasion.fault place with
  | some e => exact h
  | none =>
      have htwins := h.store.read hread
      dsimp only
      generalize W.store.apply (occasion.clock place) op = result at htwins ⊢
      obtain ⟨_ | _ | _, store⟩ := result <;> exact { h with store := htwins }

/-- What a scan shows lies under its scope. -/
theorem under_of_read {scope : String} {found : List Snapshot} {W' : Watchroom}
    (h : W.read occasion scope (.list scope) = (some (.ok found), W')) :
    ∀ kv ∈ found, under scope kv.key = true := by
  intro kv hkv
  unfold Watchroom.read at h
  split at h
  · cases h
  · generalize happly : W.store.apply (occasion.clock scope) (.list scope) = result at h
    obtain ⟨_ | _ | _, store⟩ := result <;> cases h
    exact ((Backend.mem_list_iff happly kv).1 hkv).2.1

/-- Recording an own key in both rooms. -/
theorem record (h : Unaffected N now W V) (howns : N.owns key) (version : Nat) :
    Unaffected N now { W with cache := W.cache.record key version }
      { V with cache := V.cache.record key version } := by
  refine { h with version := fun k => ?_, share := ⟨h.share.own, h.share.only⟩ }
  rw [Cache.version_record, Cache.version_record, h.version key, if_pos howns]
  by_cases hk : k = key
  · subst hk
    rw [if_pos rfl, if_pos rfl, if_pos howns]
  · rw [if_neg hk, if_neg hk]
    exact h.version k

/-- Recording another key in the shared room. -/
theorem record_aside (h : Unaffected N now W V) (hkey : ¬ N.owns key) (version : Nat) :
    Unaffected N now { W with cache := W.cache.record key version } V := by
  refine { h with version := fun k => ?_, share := ⟨h.share.own, h.share.only⟩ }
  rw [Cache.version_record, h.version k]
  by_cases hk : k = key
  · subst hk
    rw [if_neg hkey, if_neg hkey]
  · rw [if_neg hk]

/-- Forgetting an own key in both rooms. -/
theorem forget (h : Unaffected N now W V) (key : String) :
    Unaffected N now { W with cache := W.cache.forget key }
      { V with cache := V.cache.forget key } := by
  refine { h with version := fun k => ?_, share := ⟨h.share.own, h.share.only⟩ }
  rw [Cache.version_forget, Cache.version_forget]
  by_cases hk : k = key
  · rw [if_pos hk, if_pos hk, ite_self]
  · rw [if_neg hk, if_neg hk]
    exact h.version k

/-- Forgetting another key in the shared room. -/
theorem forget_aside (h : Unaffected N now W V) (hkey : ¬ N.owns key) :
    Unaffected N now { W with cache := W.cache.forget key } V := by
  refine { h with version := fun k => ?_, share := ⟨h.share.own, h.share.only⟩ }
  rw [Cache.version_forget, h.version k]
  by_cases hk : k = key
  · subst hk
    rw [if_neg hkey, if_neg hkey]
  · rw [if_neg hk]

/-- The own handler makes the same of a callback in both rooms. -/
theorem reaction (h : Unaffected N now W V) (A : Audience) (event : WatchEvent) :
    V.reaction A N.own.handler event = W.reaction A N.own.handler event := by
  unfold Watchroom.reaction
  rw [h.heard]

/-- A callback of the own handler in both rooms. -/
theorem told (h : Unaffected N now W V) (A : Audience) (event : WatchEvent) :
    Unaffected N now (W.told A N.own.handler event) (V.told A N.own.handler event) := by
  refine { h with log := ?_, strange := ?_ }
  · change ⟨N.own.handler, event, V.reaction A N.own.handler event⟩ :: V.log =
      (⟨N.own.handler, event, W.reaction A N.own.handler event⟩ :: W.log).filter _
    rw [List.filter_cons_of_pos (by simp), h.reaction A event, h.log]
    rfl
  · intro hearing hmem hstranger
    rcases List.mem_cons.1 hmem with rfl | hbefore
    · exact absurd rfl hstranger
    · exact h.strange hearing hbefore hstranger

/-- A callback of the other handler in the shared room. -/
theorem told_aside (h : Unaffected N now W V) (A : Audience) {event : WatchEvent}
    (hkey : ¬ N.owns event.key) : Unaffected N now (W.told A N.other.handler event) V := by
  refine { h with log := ?_, strange := ?_ }
  · change V.log = (⟨N.other.handler, event, W.reaction A N.other.handler event⟩ :: W.log).filter _
    rw [List.filter_cons_of_neg (by simpa using N.handlers.symm)]
    exact h.log
  · intro hearing hmem hstranger
    rcases List.mem_cons.1 hmem with rfl | hbefore
    · exact hkey
    · exact h.strange hearing hbefore hstranger

/-! ### Programs -/

/-- **What is done for the own watcher goes alike in both rooms.** -/
theorem alike (halive : A.alive N.own.handler = true) {α : Type} {p : Watching α}
    (hp : Watching.Confined place N.owns N.own.handler p)
    (h : Unaffected N (occasion.clock place) W V) :
    (p.exec (Watchroom.answer A occasion) V).1 = (p.exec (Watchroom.answer A occasion) W).1 ∧
      Unaffected N (occasion.clock place) (p.exec (Watchroom.answer A occasion) W).2
        (p.exec (Watchroom.answer A occasion) V).2 := by
  induction hp generalizing W V with
  | done a => exact ⟨rfl, h⟩
  | cancelled _ ih => exact ih false h
  | scan inside _ _ ihFailed ih =>
      obtain ⟨hreply, hafter⟩ := h.read (.list place)
      simp only [Program.exec, Watchroom.answer]
      generalize hread : W.read occasion place (.list place) = result at hreply hafter ⊢
      generalize V.read occasion place (.list place) = result' at hreply hafter ⊢
      obtain ⟨reply, W'⟩ := result
      obtain ⟨reply', V'⟩ := result'
      obtain rfl : reply' = reply := hreply
      rcases reply' with _ | e | found
      · exact ⟨rfl, hafter⟩
      · exact ihFailed e hafter
      · exact ih found (fun kv hkv => inside _ (under_of_read hread kv hkv)) hafter
  | present _ ih =>
      obtain ⟨hreply, hafter⟩ := h.read (.getAny place)
      simp only [Program.exec, Watchroom.answer]
      generalize W.read occasion place (.getAny place) = result at hreply hafter ⊢
      generalize V.read occasion place (.getAny place) = result' at hreply hafter ⊢
      obtain ⟨reply, W'⟩ := result
      obtain ⟨reply', V'⟩ := result'
      obtain rfl : reply' = reply := hreply
      cases reply' with
      | none => exact ⟨rfl, hafter⟩
      | some found => exact ih _ hafter
  | cached howns _ ih =>
      simp only [Program.exec, Watchroom.answer]
      rw [h.version, if_pos howns]
      exact ih _ h
  | record howns _ ih => exact ih (h.record howns _)
  | forget _ _ ih => exact ih (h.forget _)
  | handlerFor howns _ _ _ ih =>
      simp only [Program.exec, Watchroom.answer]
      rw [N.handlerFor_of_owns h.share halive howns,
        Cache.handlerFor_of_only h.watchers halive howns]
      exact ih h
  | notify _ _ ih =>
      simp only [Program.exec, Watchroom.answer]
      rw [h.reaction A]
      exact ih _ (h.told A _)

/-- **What is done for the other watcher leaves alone what the rooms have in common.** -/
theorem aside {α : Type} {p : Watching α}
    (hp : Watching.Confined place (fun key => ¬ N.owns key) N.other.handler p)
    (h : Unaffected N (occasion.clock place) W V) :
    Unaffected N (occasion.clock place) (p.exec (Watchroom.answer A occasion) W).2 V := by
  induction hp generalizing W with
  | done a => exact h
  | cancelled _ ih => exact ih false h
  | scan inside _ _ ihFailed ih =>
      have hafter := h.read_aside (show (StoreOp.list place).target? = none from rfl)
      simp only [Program.exec, Watchroom.answer]
      generalize hread : W.read occasion place (.list place) = result at hafter ⊢
      obtain ⟨_ | e | found, W'⟩ := result
      · exact hafter
      · exact ihFailed e hafter
      · exact ih found (fun kv hkv => inside _ (under_of_read hread kv hkv)) hafter
  | present _ ih =>
      have hafter := h.read_aside (show (StoreOp.getAny place).target? = none from rfl)
      simp only [Program.exec, Watchroom.answer]
      generalize W.read occasion place (.getAny place) = result at hafter ⊢
      obtain ⟨_ | found, W'⟩ := result
      · exact hafter
      · exact ih _ hafter
  | cached _ _ ih => exact ih _ h
  | record hkey _ ih => exact ih (h.record_aside hkey _)
  | forget hkey _ ih => exact ih (h.forget_aside hkey)
  | handlerFor hkey _ _ ihNobody ih =>
      simp only [Program.exec, Watchroom.answer]
      rcases N.handlerFor_of_not_owns h.share A.alive hkey with hnone | hother
      · rw [hnone]
        exact ihNobody h
      · rw [hother]
        exact ih h
  | notify hkey _ ih => exact ih _ (h.told_aside A hkey)

/-! ### Passes and sweeps -/

/-- The cache of the room alone is the own part of the shared one. -/
theorem entries (h : Unaffected N now W V) :
    V.cache.entries = W.cache.entries.filter fun key _ => N.owns key := by
  refine KeyMap.ext_get? fun key => ?_
  rw [N.get?_filter_owns]
  exact h.version key

/-- **A sweep of the shared cache** does for the own keys what a sweep of the own cache does. -/
theorem sweepKeys (halive : A.alive N.own.handler = true) {keys : List String}
    (hkeys : keys.Pairwise (· < ·)) (h : Unaffected N now W V)
    (hnow : ∀ key ∈ keys, now.nanos ≤ (occasion.clock key).nanos)
    (hfinish : now.nanos ≤ occasion.finish.nanos) {failed : Nat} {W' : Watchroom}
    (hrun : (FleetControl.sweepKeys keys).exec (Watchroom.answer A occasion) W =
      (some failed, W')) :
    ∃ failed' V', (FleetControl.sweepKeys (keys.filter fun key => N.owns key)).exec
        (Watchroom.answer A occasion) V = (some failed', V') ∧
      Unaffected N occasion.finish W' V' := by
  -- After each key both rooms are at the instant at which it was looked at.
  induction keys generalizing now W V failed with
  | nil =>
      cases hrun
      exact ⟨0, V, rfl, h.later hfinish⟩
  | cons key rest ih =>
      obtain ⟨hfirst, hrest⟩ := List.pairwise_cons.1 hkeys
      have hthere := h.later (hnow key List.mem_cons_self)
      have hafter : ∀ k ∈ rest, (occasion.clock key).nanos ≤ (occasion.clock k).nanos :=
        fun k hk => occasion.ordered (hfirst k hk)
      rw [Watchroom.exec_sweepKeys_cons] at hrun
      by_cases howns : N.owns key
      · obtain ⟨hreply, hone⟩ := hthere.alike halive (.sweepKey howns)
        rw [List.filter_cons_of_pos (by simpa using howns), Watchroom.exec_sweepKeys_cons]
        generalize (sweepKey key).exec (Watchroom.answer A occasion) W = result at hrun hreply hone
        generalize (sweepKey key).exec (Watchroom.answer A occasion) V = result' at hreply hone ⊢
        obtain ⟨_ | bad, W₁⟩ := result
        · cases hrun
        · obtain ⟨reply', V₁⟩ := result'
          obtain rfl : reply' = some bad := hreply
          obtain ⟨hmore, rfl⟩ := Prod.mk.inj hrun
          obtain ⟨more, hmore, -⟩ := Option.map_eq_some_iff.1 hmore
          obtain ⟨more', V', hrun', hdone⟩ := ih hrest hone hafter (occasion.ends key)
            (Prod.ext hmore rfl)
          exact ⟨if bad then more' + 1 else more', V', by simp only [hrun', Option.map_some], hdone⟩
      · have hone := hthere.aside (A := A) (.sweepKey howns)
        rw [List.filter_cons_of_neg (by simpa using howns)]
        generalize (sweepKey key).exec (Watchroom.answer A occasion) W = result at hrun hone
        obtain ⟨_ | bad, W₁⟩ := result
        · cases hrun
        · obtain ⟨hmore, rfl⟩ := Prod.mk.inj hrun
          obtain ⟨more, hmore, -⟩ := Option.map_eq_some_iff.1 hmore
          exact ih hrest hone hafter (occasion.ends key) (Prod.ext hmore rfl)

/-- The keys of the room alone are the own keys of the shared one. -/
theorem keys (h : Unaffected N now W V) :
    V.cache.entries.keys = W.cache.entries.keys.filter fun key => N.owns key := by
  rw [h.entries]
  simp only [KeyMap.keys, KeyMap.filter, List.filter_map]
  rfl

/-- **What is left to be done in the room alone** goes there as in the shared one. -/
theorem step (halive : A.alive N.own.handler = true) (h : Unaffected N now W V) {shift : Shift}
    (hfollows : shift.Follows now) (hconcerns : shift.Concerns N)
    (hremains : shift.remains N = true) {W' : Watchroom} (hstep : W.step A shift = some W') :
    ∃ V', V.step A shift = some V' ∧ Unaffected N (shift.finish now) W' V' := by
  cases shift with
  | store move =>
      cases hstep
      exact ⟨_, rfl, { h with store := h.store.moved move hfollows }⟩
  | pass watcher occasion =>
      have hother : watcher ≠ N.other := by simpa [Shift.remains] using hremains
      obtain rfl : watcher = N.own := hconcerns.resolve_right hother
      obtain ⟨outcome, hreply, rfl⟩ := Option.map_eq_some_iff.1 hstep
      have hthere : Unaffected N (occasion.clock N.own.scope) W V := h.later hfollows
      obtain ⟨hsame, hdone⟩ := hthere.alike halive (.informerPass fun key hunder => hunder)
      exact ⟨_, Option.map_eq_some_iff.2 ⟨outcome, hsame.trans hreply, rfl⟩,
        hdone.later (occasion.ends _)⟩
  | sweep occasion =>
      rw [Watchroom.step_sweep] at hstep
      obtain ⟨failed, hreply, rfl⟩ := Option.map_eq_some_iff.1 hstep
      have hfinish : now.nanos ≤ occasion.finish.nanos :=
        Int.le_trans (hfollows "") (occasion.ends "")
      obtain ⟨failed', V', hrun, hdone⟩ := h.sweepKeys halive W.cache.entries.pairwise_keys
        (fun key _ => hfollows key) hfinish (Prod.ext hreply rfl)
      refine ⟨V', ?_, hdone⟩
      rw [Watchroom.step_sweep, h.keys, hrun]
      rfl

/-- **A pass of the other watcher** is not missed in the room alone. -/
theorem step_aside (h : Unaffected N now W V) {shift : Shift} (hfollows : shift.Follows now)
    (hremains : shift.remains N = false) {W' : Watchroom} (hstep : W.step A shift = some W') :
    Unaffected N (shift.finish now) W' V := by
  cases shift with
  | store move => cases hremains
  | pass watcher occasion =>
      obtain rfl : watcher = N.other := by simpa [Shift.remains] using hremains
      obtain ⟨outcome, -, rfl⟩ := Option.map_eq_some_iff.1 hstep
      have hthere : Unaffected N (occasion.clock N.other.scope) W V := h.later hfollows
      have hdone := hthere.aside (A := A)
        (.informerPass fun key hunder => Neighbours.not_owns_of_under hunder)
      exact hdone.later (occasion.ends _)
  | sweep occasion => cases hremains

/-- **A run of the shared room**, and what is left of it in the room alone. -/
theorem run (halive : A.alive N.own.handler = true) {shifts : List Shift}
    (h : Unaffected N now W V) (hturn : Shift.InTurn now shifts)
    (hconcerns : ∀ shift ∈ shifts, shift.Concerns N) {W' : Watchroom}
    (hrun : W.run A shifts = some W') :
    ∃ V' stop, V.run A (shifts.filter (·.remains N)) = some V' ∧ Unaffected N stop W' V' := by
  induction shifts generalizing now W V with
  | nil =>
      cases hrun
      exact ⟨V, now, rfl, h⟩
  | cons shift rest ih =>
      obtain ⟨hfollows, hrest⟩ := hturn
      obtain ⟨hshift, hothers⟩ := List.forall_mem_cons.1 hconcerns
      obtain ⟨W₁, hstep, hrun⟩ := Watchroom.run_cons_eq_some hrun
      cases hremains : shift.remains N with
      | true =>
          obtain ⟨V₁, hstep', hone⟩ := h.step halive hfollows hshift hremains hstep
          obtain ⟨V', stop, hrun', hdone⟩ := ih hone hrest hothers hrun
          refine ⟨V', stop, ?_, hdone⟩
          rw [List.filter_cons_of_pos hremains, Watchroom.run_cons, hstep']
          exact hrun'
      | false =>
          rw [List.filter_cons_of_neg (by simp [hremains])]
          exact ih (h.step_aside hfollows hremains hstep) hrest hothers hrun

end Unaffected

namespace Watchroom

variable {N : Neighbours} {A : Audience}

/-- Where the own watcher begins alone: with its keys of a cache, and with nobody else. -/
def begun (N : Neighbours) (cache : Cache) (store : Backend) : Watchroom :=
  { cache := { cache with
      entries := cache.entries.filter fun key _ => N.owns key
      watchers := [N.own] }
    store
    log := [] }

/-- At the beginning nothing has happened that could tell the rooms apart. -/
theorem unaffected_begun {cache : Cache} (hshare : N.Share cache) (store : Backend) (now : Instant) :
    Unaffected N now ⟨cache, store, []⟩ (begun N cache store) := by
  refine ⟨.refl now store, N.get?_filter_owns cache.entries, rfl, ?_, hshare, rfl⟩
  intro hearing hmem
  cases hmem

/-- **Sharing goes unnoticed.** Two watchers with disjoint scopes and handlers of their own share a
cache. Whatever operations on the store, complete passes of the two and complete sweeps come one
after the other, and whatever the handlers make of them, the callbacks of one watcher's handler, in
their order, with their arguments and outcomes, and what is cached of the keys under its scope are
those of the run in which the watcher has a cache to itself and the passes of the other one are left
out. The other handler is never told of a key under the scope. -/
theorem sharing_goes_unnoticed (N : Neighbours) (A : Audience)
    (halive : A.alive N.own.handler = true) {cache : Cache} (hshare : N.Share cache)
    (store : Backend) {start : Instant} {shifts : List Shift} (hturn : Shift.InTurn start shifts)
    (hconcerns : ∀ shift ∈ shifts, shift.Concerns N) {shared : Watchroom}
    (hrun : run A shifts ⟨cache, store, []⟩ = some shared) :
    ∃ alone, run A (shifts.filter (·.remains N)) (begun N cache store) = some alone ∧
      alone.log = shared.heard N.own.handler ∧
      (∀ key, under N.own.scope key = true →
        alone.cache.version key = shared.cache.version key) ∧
      (∀ key, under N.own.scope key = false → alone.cache.version key = none) ∧
      ∀ hearing ∈ shared.heard N.other.handler, under N.own.scope hearing.event.key = false := by
  obtain ⟨alone, stop, halone, h⟩ :=
    (unaffected_begun hshare store start).run halive hturn hconcerns hrun
  refine ⟨alone, halone, h.log, ?_, ?_, ?_⟩
  · intro key hunder
    have howns : N.owns key := hunder
    rw [h.version key, if_pos howns]
  · intro key hunder
    rw [h.version key, if_neg (by simp [Neighbours.owns, hunder])]
  · intro hearing hmem
    obtain ⟨hlogged, hother⟩ := List.mem_filter.1 hmem
    have hstranger : hearing.handler ≠ N.own.handler := by
      intro hsame
      exact N.handlers (hsame.symm.trans (of_decide_eq_true hother))
    simpa [Neighbours.owns] using h.strange hearing hlogged hstranger

/-- Keys under two scopes come and go. One handler deals with what it is told, the other one fails
each time; of the four callbacks the first handler has two, as it would have alone. -/
theorem two_callbacks_of_four :
    let noon : Instant := ⟨1735732800000000000, false⟩
    let occasion : Occasion := ⟨fun _ => noon, fun _ => none, noon, fun _ => Int.le_refl _,
      fun _ => Int.le_refl _⟩
    let N : Neighbours := ⟨⟨"a/", 1⟩, ⟨"b/", 2⟩, by decide, by decide, by decide⟩
    let A : Audience := ⟨fun _ => true, fun handler _ =>
      if handler = 2 then .error (.ofText "busy") else .ok ()⟩
    let cache : Cache := { Cache.new "main" defaultSweepInterval with watchers := [N.other, N.own] }
    let store := Backend.fresh false defaultGrace
    let shifts : List Shift := [.store (.ask noon (.set "a/x" [1])),
      .store (.ask noon (.set "b/y" [2])), .pass N.other occasion, .pass N.own occasion,
      .pass N.other occasion, .store (.purge "a/x"), .sweep occasion]
    ∃ shared alone, run A shifts ⟨cache, store, []⟩ = some shared ∧
      run A (shifts.filter (·.remains N)) (begun N cache store) = some alone ∧
      shared.log.length = 4 ∧ (shared.heard 1).map (·.event) =
        [.deleted "a/x", .added ⟨"a/x", [1], 1, none, false⟩] ∧
      alone.log = shared.heard 1 := by
  intro noon occasion N A cache store shifts
  have hshare : N.Share cache :=
    ⟨.tail _ (.head _), fun w hw => (List.mem_pair.1 hw).symm⟩
  have hturn : Shift.InTurn noon shifts :=
    ⟨Int.le_refl _, Int.le_refl _, Int.le_refl _, Int.le_refl _, Int.le_refl _, Int.le_refl _,
      fun _ => Int.le_refl _, trivial⟩
  have hconcerns : ∀ shift ∈ shifts, shift.Concerns N := by
    simp [shifts, Shift.Concerns]
  obtain ⟨shared, hshared, hlength, hheard⟩ : ∃ shared, run A shifts ⟨cache, store, []⟩ =
      some shared ∧ shared.log.length = 4 ∧ (shared.heard 1).map (·.event) =
        [.deleted "a/x", .added ⟨"a/x", [1], 1, none, false⟩] := by
    have hrun : (run A shifts ⟨cache, store, []⟩).map (fun shared =>
        (shared.log.length, (shared.heard 1).map (·.event))) =
        some (4, [.deleted "a/x", .added ⟨"a/x", [1], 1, none, false⟩]) := by
      decide +kernel
    obtain ⟨shared, hshared, hlog⟩ := Option.map_eq_some_iff.1 hrun
    exact ⟨shared, hshared, (Prod.mk.inj hlog).1, (Prod.mk.inj hlog).2⟩
  obtain ⟨alone, halone, hlog, -⟩ :=
    sharing_goes_unnoticed N A rfl hshare store hturn hconcerns hshared
  exact ⟨shared, alone, hshared, halone, hlength, hheard, hlog⟩

end Watchroom

end FleetControl
