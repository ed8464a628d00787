import FleetControl.Proofs.Site.Status
import FleetControl.Proofs.Store.Agreement
import FleetControl.Simulation.World

/-!
# Where control programs run, whatever the store is kept in

A host is a site whose store is kept in either backend. Reading, writing and compacting differ between
the backends, but not what a status document needs: what was read was the live entry at the key and
reading left it there, what was written is there and does not expire, and what neither expires nor is
deleted is read at every instant, without any change of the store.

* `Backend.get_answer`, `Backend.get_of_lasting`, `Backend.set_answer` — one key of either backend;
* `Host.answer` — the replies at a host;
* `Host.exec_remote` — programs that only concern agents;
* `Host.read_of_exec`, `Host.written_of_exec` — reading and writing a status document.
-/

namespace FleetControl

open Simulation (Backend)

/-! ## One key of either backend -/

namespace Memory

/-- What was read was live, and reading changed nothing. -/
theorem get_answer {m m' : Memory} {now : Instant} {key : String} {kv : Snapshot}
    (h : m.get now key = (.answer kv, m')) :
    ∃ e, m.live? now key = some e ∧ kv = e.snapshot key .live ∧ m' = m := by
  by_cases hdatable : m.DatableAt now key
  · rw [get_eq hdatable] at h
    cases hlive : m.live? now key with
    | none =>
        rw [hlive] at h
        cases h
    | some e =>
        rw [hlive] at h
        cases h
        exact ⟨e, rfl, rfl, rfl⟩
  · rw [get_of_not_datable hdatable] at h
    cases h

/-- What was written is there and does not expire. -/
theorem set_answer {m m' : Memory} {now : Instant} {key : String} {data : Bytes} {version : Nat}
    (h : m.write now key data none .any = (.answer version, m')) :
    m'.live? now key = some ⟨data, version, none, none⟩ := by
  by_cases hkey : key = ""
  · subst hkey
    cases h
  · by_cases hdatable : m.DatableAt now key
    · rw [set_eq data hkey hdatable] at h
      cases h
      exact live?_written_self m now key data
    · rw [set_of_not_datable data hkey hdatable] at h
      cases h

end Memory

namespace Simulation.Backend

/-- The entry that is kept at a key. -/
def entry? : Backend → String → Option Entry
  | memory m, key => m.entries.get? key
  | table t, key => t.rows.get? key

/-- How long tombstones stay. -/
def grace : Backend → Span
  | memory m => m.grace
  | table t => t.grace

/-- The live entry at a key. -/
def live? (b : Backend) (now : Instant) (key : String) : Option Entry :=
  (b.entry? key).filter fun e => e.stage b.grace now == .live

theorem live?_eq_some_iff (b : Backend) (now : Instant) (key : String) (e : Entry) :
    b.live? now key = some e ↔ b.entry? key = some e ∧ e.stage b.grace now = .live := by
  simp [live?, Option.filter_eq_some_iff]

/-- Reading a live entry shows it and changes nothing. -/
theorem get_of_live {b : Backend} {now : Instant} {key : String} {e : Entry}
    (h : b.live? now key = some e) :
    b.apply now (.get key) = (.answer (e.snapshot key .live), b) := by
  have hmemory : ∀ m : Memory, m.live? now key = some e →
      m.get now key = (.answer (e.snapshot key .live), m) := by
    intro m hlive
    simp only [Memory.get, Memory.find_of_live hlive]
  cases b with
  | memory m =>
      simp only [apply, Memory.apply, hmemory m h]
      rfl
  | table t =>
      have hsame := ((Agree.of_rows now t).get key).answer
      rw [hmemory ⟨t.rows, t.revision, t.grace⟩ h] at hsame
      simp only [apply, Table.apply, ← hsame]
      rfl

/-- **What was read** was live, and reading it changed nothing. -/
theorem get_answer {b b' : Backend} {now : Instant} {key : String} {kv : Snapshot}
    (h : b.apply now (.get key) = (.answer kv, b')) :
    ∃ e, b.live? now key = some e ∧ kv = e.snapshot key .live ∧ b' = b := by
  cases b with
  | memory m =>
      obtain ⟨hanswer, rfl⟩ := Prod.mk.inj h
      obtain ⟨e, hlive, hkv, hsame⟩ := Memory.get_answer (Prod.ext hanswer rfl)
      exact ⟨e, hlive, hkv, congrArg memory hsame⟩
  | table t =>
      obtain ⟨hanswer, rfl⟩ := Prod.mk.inj h
      have hsame := ((Agree.of_rows now t).get key).answer
      obtain ⟨e, hlive, hkv, -⟩ := Memory.get_answer (Prod.ext (hsame.trans hanswer) rfl)
      exact ⟨e, hlive, hkv, rfl⟩

/-- **What neither expires nor is deleted** is read at every instant, without any change. -/
theorem get_of_lasting {b : Backend} {key : String} {e : Entry} (h : b.entry? key = some e)
    (he : e.Lasting) (now : Instant) :
    b.apply now (.get key) = (.answer (e.snapshot key .live), b) :=
  get_of_live ((live?_eq_some_iff _ _ _ _).2 ⟨h, he.stage _ _⟩)

/-- **What was written** is there and does not expire. -/
theorem set_answer {b b' : Backend} {now : Instant} {key : String} {data : Bytes} {version : Nat}
    (h : b.apply now (.set key data) = (.answer version, b')) :
    b'.entry? key = some ⟨data, version, none, none⟩ := by
  cases b with
  | memory m =>
      obtain ⟨hanswer, rfl⟩ := Prod.mk.inj h
      have hlive := Memory.set_answer (m := m) (Prod.ext hanswer rfl)
      exact ((Memory.live?_eq_some_iff _ _ _ _).1 hlive).1
  | table t =>
      obtain ⟨hanswer, rfl⟩ := Prod.mk.inj h
      have hwrite := (Agree.of_rows now t).write key data none .any
      have hlive := Memory.set_answer (Prod.ext (hwrite.answer.trans hanswer) rfl)
      exact hwrite.agree.row_of_live hlive

end Simulation.Backend

/-! ## Hosts -/

/-- Where control programs run, with either backend. -/
structure Host (τ : Type) where
  /-- What the clock shows. -/
  now : Moment
  /-- What the clock will show, every time that it is looked at. -/
  later : List Moment
  store : Backend
  /-- The state of the agents' side. -/
  side : τ

namespace Host

variable {τ : Type}

/-- The clock goes on. -/
def tick (s : Host τ) : Host τ :=
  match s.later with
  | [] => s
  | t :: rest => { s with now := t, later := rest }

@[simp] theorem tick_store (s : Host τ) : s.tick.store = s.store := by
  unfold tick
  split <;> rfl

@[simp] theorem tick_side (s : Host τ) : s.tick.side = s.side := by
  unfold tick
  split <;> rfl

/-- The host after a store operation. -/
def stored {ω : Type} (s : Host τ) : Outcome ω × Backend → Option (Except StoreError ω) × Host τ
  | (.answer a, b) => (some (.ok a), { s with store := b })
  | (.refused e, b) => (some (.error e), { s with store := b })
  | (.undatable, b) => (none, { s with store := b })

/-- The replies at a host. -/
def answer (agents : AgentSide τ) : (r : Request) → Host τ → Option r.Reply × Host τ
  | .clock, s => (some s.tick.now.val, s.tick)
  | .store op, s => s.tick.stored (s.tick.store.apply s.tick.now op)
  | .agents, s =>
    let r := agents.answer .agents s.side
    (some r.1, { s with side := r.2 })
  | .connect agent, s =>
    let r := agents.answer (.connect agent) s.side
    (some r.1, { s with side := r.2 })
  | .place spec candidates, s =>
    let r := agents.answer (.place spec candidates) s.side
    (some r.1, { s with side := r.2 })
  | .call connection deadline action request, s =>
    let r := agents.answer (.call connection deadline action request) s.side
    (some r.1, { s with side := r.2 })
  | .health connection deadline, s =>
    let r := agents.answer (.health connection deadline) s.side
    (some r.1, { s with side := r.2 })

/-- **A program that only concerns agents** does at a host what it does on the agents' side. -/
theorem exec_remote {α : Type} (agents : AgentSide τ) {p : Control α} (h : Control.Remote p)
    (s : Host τ) :
    p.exec (answer agents) s =
      (some (p.run agents.answer s.side).1,
        { s with side := (p.run agents.answer s.side).2 }) := by
  induction h generalizing s with
  | done a => rfl
  | @ask r next hr _ ih =>
      cases r with
      | clock => cases hr
      | store op => cases hr
      | _ => exact ih _ _

/-! ## Status documents -/

/-- A store operation that ended with an answer. -/
private theorem stored_eq_ok {ω : Type} {s s' : Host τ} {a : ω} {result : Outcome ω × Backend}
    (h : s.stored result = (some (.ok a), s')) :
    result = (.answer a, s'.store) ∧ s' = { s with store := s'.store } := by
  obtain ⟨outcome, b⟩ := result
  cases outcome <;> cases h
  exact ⟨rfl, rfl⟩

/-- A store operation at a host happens when the clock has gone on. -/
theorem exec_store (agents : AgentSide τ) (op : StoreOp) (s : Host τ) :
    (Control.store op).exec (answer agents) s =
      s.tick.stored (s.store.apply s.tick.now op) := by
  have hask := Program.exec_ask (answer agents) (.store op) s
  simp only [answer, tick_store] at hask
  exact hask

theorem exec_get (agents : AgentSide τ) (key : String) (s : Host τ) :
    (Control.get key).exec (answer agents) s =
      s.tick.stored (s.store.apply s.tick.now (.get key)) :=
  exec_store agents (.get key) s

theorem exec_set (agents : AgentSide τ) (key : String) (data : Bytes) (s : Host τ) :
    (Control.set key data).exec (answer agents) s =
      s.tick.stored (s.store.apply s.tick.now (.set key data)) :=
  exec_store agents (.set key data) s

theorem exec_list (agents : AgentSide τ) (scope : String) (s : Host τ) :
    (Control.list scope).exec (answer agents) s =
      s.tick.stored (s.store.apply s.tick.now (.list scope)) :=
  exec_store agents (.list scope) s

theorem exec_contains (agents : AgentSide τ) (key : String) (s : Host τ) :
    (Control.contains key).exec (answer agents) s =
      s.tick.stored (s.store.apply s.tick.now (.contains key)) :=
  exec_store agents (.contains key) s

/-- **A document that neither expires nor is deleted is read**, and nothing else happens. -/
theorem exec_loadStatus_of_lasting (agents : AgentSide τ) {s : Host τ} {w : String} {e : Entry}
    (hentry : s.store.entry? (statusKey w) = some e) (he : e.Lasting) {doc : WorkflowStatus}
    (hdoc : WorkflowStatus.decode? e.data = some doc) :
    (loadStatus w).exec (answer agents) s = (some (.ok (some doc)), s.tick) := by
  have hstore : ({ s.tick with store := s.store } : Host τ) = s.tick := by
    rw [← tick_store s]
  unfold loadStatus
  rw [Program.exec_bind, exec_get, Backend.get_of_lasting hentry he]
  simp only [stored, hstore, Entry.snapshot, hdoc]
  rfl

/-- **A document that was read** was live, and reading it changed nothing. -/
theorem read_of_exec (agents : AgentSide τ) {s s' : Host τ} {w : String} {doc : WorkflowStatus}
    (h : (loadStatus w).exec (answer agents) s = (some (.ok (some doc)), s')) :
    ∃ e, s.store.live? s.tick.now (statusKey w) = some e ∧
      WorkflowStatus.decode? e.data = some doc ∧ s'.store = s.store := by
  unfold loadStatus at h
  obtain ⟨reply, s₀, hread, hrest⟩ := Program.exec_bind_eq_some h
  rw [exec_get] at hread
  cases reply with
  | error e =>
      simp only at hrest
      split at hrest <;> cases hrest
  | ok kv =>
      obtain ⟨hget, -⟩ := stored_eq_ok hread
      obtain ⟨e, hlive, rfl, hsame⟩ := Backend.get_answer hget
      simp only [Entry.snapshot] at hrest
      cases hdoc : WorkflowStatus.decode? e.data with
      | none =>
          rw [hdoc] at hrest
          cases hrest
      | some read =>
          rw [hdoc] at hrest
          cases hrest
          exact ⟨e, hlive, hdoc, hsame⟩

/-- Reading a document asks no agent. -/
theorem side_of_loadStatus (agents : AgentSide τ) (s : Host τ) (w : String) :
    ((loadStatus w).exec (answer agents) s).2.side = s.side := by
  unfold loadStatus
  rw [Program.exec_bind, exec_get]
  generalize s.store.apply s.tick.now (.get (statusKey w)) = result
  obtain ⟨outcome, b⟩ := result
  cases outcome with
  | answer kv =>
      simp only [stored]
      split <;> exact tick_side s
  | refused e => exact tick_side s
  | undatable => exact tick_side s

/-- **A document that was written** is there and does not expire. -/
theorem written_of_exec (agents : AgentSide τ) {s s' : Host τ} {a : Applied}
    (h : (saveStatus a).exec (answer agents) s = (some (.ok ()), s')) :
    ∃ (now : Moment) (version : Nat), s'.store.entry? (statusKey a.spec.name) =
      some ⟨(a.toStatus (some now.val)).encode, version, none, none⟩ := by
  unfold saveStatus at h
  obtain ⟨now, s₀, hclock, hrest⟩ := Program.exec_bind_eq_some h
  cases hclock
  obtain ⟨reply, s₁, hwrite, hrest⟩ := Program.exec_bind_eq_some hrest
  cases reply with
  | error e => cases hrest
  | ok version =>
      cases hrest
      rw [exec_set] at hwrite
      obtain ⟨hset, -⟩ := stored_eq_ok hwrite
      exact ⟨s.tick.now, version, Backend.set_answer hset⟩

end Host

end FleetControl
