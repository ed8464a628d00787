import FleetControl.Proofs.Lookout.Basic

/-!
# Observers keep to their keys

What an observer does can be told from its requests, without saying where it runs. A pass looks at
its scope, all that it asks for after that is about keys that the scan found there, and the only
handler that it tells is its own. The sweep of one key looks at that key, asks for nothing but that
key, and tells the handler that watches it.

So both are programs of one kind: they look at one place in the store, work on some of the keys, and
tell one handler.

* `Watching.Confined` — a program of that kind;
* `Confined.informerPass`, `Confined.sweepKey` — what the observers are confined to.
-/

namespace FleetControl

namespace Watching

variable {α β : Type} {place : String} {keys : String → Prop} {handler : HandlerId}

/-- A program that looks at one place in the store, works on some of the keys and tells one handler.
A scan of the place shows it only such keys, and if somebody watches such a key it is that
handler. -/
inductive Confined {α : Type} (place : String) (keys : String → Prop) (handler : HandlerId) :
    Watching α → Prop where
  | done (a : α) : Confined place keys handler (Program.done a)
  | cancelled {next : WatchRequest.cancelled.Reply → Watching α}
      (rest : ∀ stop, Confined place keys handler (next stop)) :
      Confined place keys handler (Program.ask .cancelled next)
  | scan {next : (WatchRequest.scan place).Reply → Watching α}
      (inside : ∀ key, under place key = true → keys key)
      (failed : ∀ e : StoreError, Confined place keys handler (next (Except.error e)))
      (rest : ∀ found : List Snapshot, (∀ kv ∈ found, keys kv.key) →
        Confined place keys handler (next (Except.ok found))) :
      Confined place keys handler (Program.ask (.scan place) next)
  | present {next : (WatchRequest.present place).Reply → Watching α}
      (rest : ∀ found, Confined place keys handler (next found)) :
      Confined place keys handler (Program.ask (.present place) next)
  | cached {key : String} {next : (WatchRequest.cached key).Reply → Watching α}
      (about : keys key) (rest : ∀ version, Confined place keys handler (next version)) :
      Confined place keys handler (Program.ask (.cached key) next)
  | record {key : String} {version : Nat}
      {next : (WatchRequest.record key version).Reply → Watching α}
      (about : keys key) (rest : Confined place keys handler (next ())) :
      Confined place keys handler (Program.ask (.record key version) next)
  | forget {key : String} {next : (WatchRequest.forget key).Reply → Watching α}
      (about : keys key) (rest : Confined place keys handler (next ())) :
      Confined place keys handler (Program.ask (.forget key) next)
  | handlerFor {key : String} {next : (WatchRequest.handlerFor key).Reply → Watching α}
      (about : keys key) (nobody : Confined place keys handler (next none))
      (somebody : Confined place keys handler (next (some handler))) :
      Confined place keys handler (Program.ask (.handlerFor key) next)
  | notify {event : WatchEvent} {next : (WatchRequest.notify handler event).Reply → Watching α}
      (about : keys event.key) (rest : ∀ outcome, Confined place keys handler (next outcome)) :
      Confined place keys handler (Program.ask (.notify handler event) next)

namespace Confined

theorem pure (a : α) : Confined place keys handler (Pure.pure a : Watching α) := .done a

theorem bind {p : Watching α} {f : α → Watching β} (hp : Confined place keys handler p)
    (hf : ∀ a, Confined place keys handler (f a)) : Confined place keys handler (p >>= f) := by
  induction hp with
  | done a => exact hf a
  | cancelled _ ih => exact .cancelled ih
  | scan inside _ _ ihFailed ih => exact .scan inside ihFailed ih
  | present _ ih => exact .present ih
  | cached about _ ih => exact .cached about ih
  | record about _ ih => exact .record about ih
  | forget about _ ih => exact .forget about ih
  | handlerFor about _ _ ihNobody ih => exact .handlerFor about ihNobody ih
  | notify about _ ih => exact .notify about ih

/-- Telling the handler, by what comes of it. -/
theorem told {event : WatchEvent} {next : (WatchRequest.notify handler event).Reply → Watching α}
    (about : keys event.key) (ok : Confined place keys handler (next (Except.ok ())))
    (failed : ∀ e : Failure, Confined place keys handler (next (Except.error e))) :
    Confined place keys handler (Program.ask (.notify handler event) next) := by
  refine .notify about fun outcome => ?_
  cases outcome with
  | ok => exact ok
  | error e => exact failed e

/-! ## The informer pass -/

theorem observeTombstone {key : String} (h : keys key) :
    Confined place keys handler (FleetControl.observeTombstone handler key) := by
  refine .cached h fun known => ?_
  cases known with
  | none => exact .done ()
  | some previous => exact told h (.forget h (.done ())) fun e => .done ()

theorem observeLive {kv : Snapshot} (h : keys kv.key) :
    Confined place keys handler (FleetControl.observeLive handler kv) := by
  -- Whatever comes of it, only the key itself is recorded.
  have hrecord : Confined place keys handler (Watching.record kv.key kv.version) :=
    .record h (.done ())
  refine .cached h fun known => ?_
  cases known with
  | none => exact told h hrecord fun e => .done ()
  | some previous =>
      change Confined place keys handler (if previous < kv.version then _ else _)
      split
      · exact told h hrecord fun e => .done ()
      · exact hrecord

theorem observe {kv : Snapshot} (h : keys kv.key) :
    Confined place keys handler (FleetControl.observe handler kv) := by
  unfold FleetControl.observe
  split
  · exact observeTombstone h
  · exact observeLive h

theorem observeAll {found : List Snapshot} (h : ∀ kv ∈ found, keys kv.key) :
    Confined place keys handler (FleetControl.observeAll handler found) := by
  induction found with
  | nil => exact .done ()
  | cons kv rest ih =>
      obtain ⟨hkv, hrest⟩ := List.forall_mem_cons.1 h
      refine .cancelled fun stop => ?_
      cases stop with
      | true => exact .done ()
      | false => exact (observe hkv).bind fun _ => ih hrest

/-- **A pass** keeps to the keys under its scope and to its handler. -/
theorem informerPass (h : ∀ key, under place key = true → keys key) :
    Confined place keys handler (FleetControl.informerPass place handler) := by
  refine .scan h (fun e => .done _) fun found hfound => ?_
  exact (observeAll hfound).bind fun _ => .done _

/-! ## The sweep -/

/-- **The sweep of a key** keeps to that key and to the handler that watches it. -/
theorem sweepKey (h : keys place) :
    Confined place keys handler (FleetControl.sweepKey place) := by
  refine .present fun found => ?_
  rcases found with e | _ | _
  · exact .done _
  · refine .handlerFor h (.forget h (.done _)) ?_
    exact told h (.forget h (.done _)) fun e => .done _
  · exact .done _

end Confined

end Watching

end FleetControl
