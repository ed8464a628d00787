import FleetControl.Proofs.Site.Basic
import FleetControl.Proofs.Status

/-!
# Status documents at a site

What reading, writing and deleting a status document does at a site: it is told by the live entry at
the document's key, as long as the grace of a dead one ends in time.

* `Site.document` — the document that is read at a site;
* `Site.exec_loadStatus_of_live`, `Site.exec_loadStatus_of_not_live` — reading;
* `Site.exec_saveStatus` — writing;
* `Site.exec_deleteStatus_of_live` — deleting.
-/

namespace FleetControl

/-- Status keys are not empty. -/
theorem statusKey_ne_empty (w : String) : statusKey w ≠ "" := by
  intro h
  have hlen := congrArg String.length h
  have hscope : statusScope.length = 17 := by decide
  rw [statusKey, String.length_append, hscope] at hlen
  simp at hlen

/-- Different workflows have different status keys. -/
theorem statusKey_inj {w w' : String} (h : statusKey w = statusKey w') : w = w' := by
  have hlist := congrArg String.toList h
  rw [statusKey, statusKey, String.toList_append, String.toList_append] at hlist
  exact String.toList_inj.1 (List.append_cancel_left hlist)

/-- Status documents are not manifests. -/
theorem workflowKey_ne_statusKey (v w : String) : workflowKey v ≠ statusKey w := by
  intro h
  have hlist := congrArg String.toList h
  simp [workflowKey, statusKey, workflowScope, statusScope, String.toList_append] at hlist

/-- The name of a workflow is read off its manifest's key. -/
theorem eq_workflowKey {key w : String} (h : workflowName? key = some w) : key = workflowKey w := by
  unfold workflowName? nameUnder? at h
  split at h
  · next hunder =>
    obtain rfl := Option.some.inj h
    simp only [Bool.and_eq_true, List.isPrefixOf_iff_prefix] at hunder
    obtain ⟨rest, hrest⟩ := hunder.1
    apply String.toList_inj.1
    rw [workflowKey, String.toList_append, String.toList_ofList, ← hrest,
      ← String.length_toList, List.drop_left]
  · cases h

/-- What the reply to a request for a status document is read as. -/
def statusOf : Except StoreError Snapshot → Except ControlError (Option WorkflowStatus)
  | .ok kv =>
    match WorkflowStatus.decode? kv.data with
    | some doc => .ok (some doc)
    | none => .error .json
  | .error e => if e.isNotFound then .ok none else .error (.store e)

/-- Reading a status document is one request. -/
theorem loadStatus_eq (w : String) :
    loadStatus w = Control.get (statusKey w) >>= fun reply => pure (statusOf reply) := by
  unfold loadStatus
  congr 1
  funext reply
  cases reply with
  | error e => rfl
  | ok kv =>
      simp only [statusOf]
      cases WorkflowStatus.decode? kv.data <;> rfl

namespace Site

variable {τ : Type} (agents : AgentSide τ)

@[simp] theorem with_tick_store (s : Site τ) : ({ s.tick with store := s.store } : Site τ) = s.tick := by
  rw [← tick_store s]

theorem exec_clock (s : Site τ) :
    Control.clock.exec (answer agents) s = (some s.tick.now.val, s.tick) := rfl

/-- A store operation at a site happens when the clock has gone on. -/
theorem exec_store (op : StoreOp) (s : Site τ) :
    (Control.store op).exec (answer agents) s =
      s.tick.stored (s.store.apply s.tick.now op) := by
  have hask := Program.exec_ask (answer agents) (.store op) s
  simp only [answer, tick_store] at hask
  exact hask

theorem exec_get (key : String) (s : Site τ) :
    (Control.get key).exec (answer agents) s = s.tick.stored (s.store.get s.tick.now key) :=
  exec_store agents (.get key) s

theorem exec_set (key : String) (data : Bytes) (s : Site τ) :
    (Control.set key data).exec (answer agents) s =
      s.tick.stored (s.store.write s.tick.now key data none .any) :=
  exec_store agents (.set key data) s

theorem exec_delete (key : String) (s : Site τ) :
    (Control.delete key).exec (answer agents) s =
      s.tick.stored (s.store.delete s.tick.now key) :=
  exec_store agents (.delete key) s

/-! ## Reading -/

/-- The status document of a workflow that is read next. -/
def document (s : Site τ) (w : String) : Option WorkflowStatus :=
  (s.store.live? s.tick.now (statusKey w)).bind fun e => WorkflowStatus.decode? e.data

/-- A live document is read as it decodes. -/
theorem exec_loadStatus_of_live {w : String} {s : Site τ} {e : Entry}
    (h : s.store.live? s.tick.now (statusKey w) = some e) :
    (loadStatus w).exec (answer agents) s =
      (some (match WorkflowStatus.decode? e.data with
        | some doc => .ok (some doc)
        | none => .error .json), s.tick) := by
  rw [loadStatus_eq, Program.exec_bind, exec_get, Memory.get, Memory.find_of_live h]
  simp only [stored, with_tick_store, Entry.snapshot]
  rfl

/-- Where no document is live there is none. -/
theorem exec_loadStatus_of_not_live {w : String} {s : Site τ}
    (h : s.store.live? s.tick.now (statusKey w) = none)
    (hdatable : s.store.DatableAt s.tick.now (statusKey w)) :
    (loadStatus w).exec (answer agents) s =
      (some (.ok none),
        { s.tick with store := (s.store.find s.tick.now (statusKey w)).2 }) := by
  rw [loadStatus_eq, Program.exec_bind, exec_get, Memory.get_eq hdatable, h]
  rfl

/-- Reading breaks off if the end of a dead document's grace has no date. -/
theorem exec_loadStatus_of_not_datable {w : String} {s : Site τ}
    (h : ¬ s.store.DatableAt s.tick.now (statusKey w)) :
    (loadStatus w).exec (answer agents) s = (none, s.tick) := by
  rw [loadStatus_eq, Program.exec_bind, exec_get, Memory.get_of_not_datable h]
  simp only [stored, with_tick_store]

/-- **What was read** is the document of the site, and reading it changed nothing that is live. -/
theorem document_of_exec {w : String} {s s' : Site τ} {previous : Option WorkflowStatus}
    (h : (loadStatus w).exec (answer agents) s = (some (.ok previous), s')) :
    s.document w = previous ∧ s.store.DatableAt s.tick.now (statusKey w) ∧
      s' = { s.tick with store := (s.store.find s.tick.now (statusKey w)).2 } := by
  by_cases hdatable : s.store.DatableAt s.tick.now (statusKey w)
  · unfold document
    cases hlive : s.store.live? s.tick.now (statusKey w) with
    | none =>
        rw [exec_loadStatus_of_not_live agents hlive hdatable] at h
        cases h
        exact ⟨rfl, hdatable, rfl⟩
    | some e =>
        rw [exec_loadStatus_of_live agents hlive] at h
        rw [Option.bind_some, Memory.find_of_live hlive, with_tick_store]
        cases hdecode : WorkflowStatus.decode? e.data <;> rw [hdecode] at h <;> cases h
        exact ⟨rfl, hdatable, rfl⟩
  · rw [exec_loadStatus_of_not_datable agents hdatable] at h
    cases h

/-- A document of the site is read. -/
theorem exec_loadStatus_of_document {w : String} {s : Site τ} {doc : WorkflowStatus}
    (h : s.document w = some doc) :
    (loadStatus w).exec (answer agents) s = (some (.ok (some doc)), s.tick) := by
  obtain ⟨e, hlive, hdoc⟩ := Option.bind_eq_some_iff.1 h
  rw [exec_loadStatus_of_live agents hlive, hdoc]

/-! ## Writing -/

/-- The site after a document was written. -/
def saved (s : Site τ) (a : Applied) : Site τ :=
  { s.tick.tick with
    store := s.store.written (statusKey a.spec.name) (a.toStatus (some s.tick.now.val)).encode }

/-- **Writing a document** succeeds, unless the grace of a dead one ends beyond the calendar. -/
theorem exec_saveStatus {s : Site τ} {a : Applied}
    (h : s.store.DatableAt s.tick.tick.now (statusKey a.spec.name)) :
    (saveStatus a).exec (answer agents) s = (some (.ok ()), s.saved a) := by
  have hname : (a.toStatus (some s.tick.now.val)).name = a.spec.name := rfl
  unfold saveStatus
  rw [Program.exec_bind, exec_clock]
  simp only
  rw [Program.exec_bind, exec_set, hname, tick_store,
    Memory.set_eq _ (statusKey_ne_empty a.spec.name) h]
  rfl

theorem exec_saveStatus_of_not_datable {s : Site τ} {a : Applied}
    (h : ¬ s.store.DatableAt s.tick.tick.now (statusKey a.spec.name)) :
    (saveStatus a).exec (answer agents) s = (none, s.tick.tick) := by
  have hname : (a.toStatus (some s.tick.now.val)).name = a.spec.name := rfl
  have hstore : ({ s.tick.tick with store := s.store } : Site τ) = s.tick.tick := by
    rw [← with_tick_store s.tick, tick_store]
  unfold saveStatus
  rw [Program.exec_bind, exec_clock]
  simp only
  rw [Program.exec_bind, exec_set, hname, tick_store,
    Memory.set_of_not_datable _ (statusKey_ne_empty a.spec.name) h]
  simp only [stored, hstore]

/-- A document that was written is read back. -/
theorem document_saved {s : Site τ} {a : Applied} {doc : WorkflowStatus}
    (h : WorkflowStatus.decode? (a.toStatus (some s.tick.now.val)).encode = some doc) :
    (s.saved a).document a.spec.name = some doc := by
  simp only [document, saved, Memory.live?_written_self, Option.bind_some, h]

/-! ## Deleting -/

/-- The site after a live document was deleted. -/
def removed (s : Site τ) (w : String) (e : Entry) : Site τ :=
  { s.tick with store := s.store.deleted s.tick.now (statusKey w) e }

/-- **Deleting a live document** makes it a tombstone. -/
theorem exec_deleteStatus_of_live {w : String} {s : Site τ} {e : Entry}
    (h : s.store.live? s.tick.now (statusKey w) = some e) :
    (deleteStatus w).exec (answer agents) s = (some (.ok ()), s.removed w e) := by
  unfold deleteStatus
  rw [Program.exec_bind, exec_delete, Memory.delete, Memory.find_of_live h]
  rfl

end Site

end FleetControl
