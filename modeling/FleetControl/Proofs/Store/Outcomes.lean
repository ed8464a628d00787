import FleetControl.Proofs.Store.Histories
import FleetControl.Proofs.Store.Reads

/-!
# What comes of an operation

An operation that changes a key looks it up first. If it is carried out it puts one entry of the next
revision in place, and if it is not, whatever the reason, it leaves the store as a read would: at most
something that is gone was dropped. Either backend does so, although they take the revision at
different moments, so what an operation comes to is told by three facts about its key: whether it is
empty, whether it is live, and whether the dates that have to be compared exist.

* `StoreOp.Admitted`, `StoreOp.Datable` — what an operation asks of its key and of the calendar;
* `StoreOp.entered` — the entry that an operation puts in place;
* `Backend.telling` — whether a key is live, if the dates allow to tell;
* `Backend.Puts` — an entry of the next revision was put in place;
* `Backend.Effect` and `Backend.effect_apply` — all that an operation can do to a store;
* `Backend.get_eq`, `Backend.contains_eq`, `Backend.getAny_eq`, `Backend.list_answers_iff` — what reads
  answer.
-/

namespace FleetControl

open Simulation (Backend)

/-! ## Operations that change a key -/

/-- Whether an operation succeeded. -/
def Outcome.isAnswer {α : Type} : Outcome α → Bool
  | answer _ => true
  | _ => false

theorem Outcome.isAnswer_iff {α : Type} (o : Outcome α) : o.isAnswer = true ↔ ∃ a, o = .answer a := by
  cases o <;> simp [isAnswer]

/-- A write: what is written where, for how long, and on which condition. -/
structure Writing where
  key : String
  data : Bytes
  ttl : Option Span
  condition : Precondition

namespace StoreOp

/-- The write that an operation is. -/
def writing? : StoreOp → Option Writing
  | set key data => some ⟨key, data, none, .any⟩
  | setFor key data ttl => some ⟨key, data, some ttl, .any⟩
  | create key data => some ⟨key, data, none, .absent⟩
  | replace key data => some ⟨key, data, none, .present⟩
  | _ => none

/-- The key that an operation writes or deletes. -/
def target? : StoreOp → Option String
  | set key _ => some key
  | setFor key _ _ => some key
  | delete key => some key
  | create key _ => some key
  | replace key _ => some key
  | _ => none

/-- What an operation that writes or deletes a key asks of it: that it is not empty, and that it is
live or that it is not. -/
def Admitted : StoreOp → (live : Bool) → Prop
  | set key _, _ => key ≠ ""
  | setFor key _ _, _ => key ≠ ""
  | delete _, live => live = true
  | create key _, live => key ≠ "" ∧ live = false
  | replace key _, live => key ≠ "" ∧ live = true
  | _, _ => True

/-- The expiry of what is written has a date. -/
def Datable (now : Instant) : StoreOp → Prop
  | setFor _ _ ttl => (now.add? ttl.forDates).isSome = true
  | _ => True

/-- The entry that an operation puts in place which is carried out, given the version that it gets and
the live entry that is there. -/
def entered (now : Instant) (version : Nat) (live : Option Entry) : StoreOp → Option Entry
  | set _ data => some ⟨data, version, none, none⟩
  | setFor _ data ttl => some ⟨data, version, now.add? ttl.forDates, none⟩
  | delete _ => live.map fun e => { e with deletedAt := some now, version }
  | create _ data => some ⟨data, version, none, none⟩
  | replace _ data => some ⟨data, version, none, none⟩
  | _ => none

/-- The version that the answer to a write tells. -/
def version? : (op : StoreOp) → op.Reply → Option Nat
  | set .., version => some version
  | setFor .., version => some version
  | create .., version => some version
  | replace .., version => some version
  | _, _ => none

theorem target?_of_writing {op : StoreOp} {w : Writing} (h : op.writing? = some w) :
    op.target? = some w.key := by
  cases op <;> cases h <;> rfl

end StoreOp

namespace Precondition

/-- A write is carried out if its condition holds and its expiry has a date. -/
theorem verdict_eq_answer_iff (condition : Precondition) (now : Instant) (key : String)
    (ttl : Option Span) (live : Bool) (expiry : Option Instant) :
    condition.verdict now key ttl live = .answer expiry ↔
      condition.fault key live = none ∧
        expiry = ttl.bind (fun ttl => now.add? ttl.forDates) ∧
        ∀ span, ttl = some span → (now.add? span.forDates).isSome = true := by
  unfold verdict
  cases hfault : condition.fault key live with
  | some e => simp
  | none =>
      cases ttl with
      | none =>
          simp only [Expiry.ofTtl, Outcome.answer.injEq, true_and, Option.bind_none, reduceCtorEq,
            false_implies, implies_true, and_true]
          exact eq_comm
      | some span =>
          cases hsum : now.add? span.forDates with
          | none => simp [Expiry.ofTtl, hsum]
          | some t =>
              simp only [Expiry.ofTtl, hsum, Outcome.answer.injEq, true_and, Option.bind_some,
                Option.some.injEq, forall_eq', Option.isSome_some, and_true]
              exact eq_comm

theorem fault_eq_none_iff (condition : Precondition) (key : String) (live : Bool) :
    condition.fault key live = none ↔
      (condition = .absent → live = false) ∧ (condition = .present → live = true) := by
  cases condition <;> cases live <;> simp [fault]

end Precondition

/-! ## Looking a key up -/

/-- What is live has not died, so it has no grace. -/
theorem Entry.datable_of_live {e : Entry} {grace : Span} {now : Instant}
    (h : e.stage grace now = .live) : e.datable grace now = true := by
  unfold stage at h
  unfold datable
  split at h
  · rfl
  · split at h <;> cases h

namespace Simulation.Backend

/-- The end of the grace at a key has a date, if there is an end. -/
def DatableAt (b : Backend) (now : Instant) (key : String) : Prop :=
  ∀ e, b.entry? key = some e → e.datable b.grace now = true

/-- Whether a key is live, if the dates allow to tell. -/
def telling (b : Backend) (now : Instant) (key : String) : Option Bool :=
  match b.entry? key with
  | none => some false
  | some e => if e.datable b.grace now then some (e.stage b.grace now == .live) else none

variable {b b' : Backend} {now : Instant} {key : String}

theorem telling_eq_some_iff {live : Bool} :
    b.telling now key = some live ↔ b.DatableAt now key ∧ (b.live? now key).isSome = live := by
  unfold telling DatableAt live?
  cases hentry : b.entry? key with
  | none => simp
  | some e =>
      cases hlive : e.stage b.grace now == .live <;> cases hdatable : e.datable b.grace now <;>
        simp [hlive, hdatable]

theorem telling_of_not_datable (h : ¬ b.DatableAt now key) : b.telling now key = none := by
  by_contra hsome
  obtain ⟨live, hlive⟩ := Option.ne_none_iff_exists'.1 hsome
  exact h (telling_eq_some_iff.1 hlive).1

/-- What is live has no grace that could end beyond the calendar. -/
theorem datableAt_of_live {e : Entry} (h : b.live? now key = some e) : b.DatableAt now key := by
  obtain ⟨hentry, hlive⟩ := (live?_eq_some_iff _ _ _ _).1 h
  intro e' he'
  obtain rfl := Option.some.inj (hentry.symm.trans he')
  exact Entry.datable_of_live hlive

end Simulation.Backend

/-- A look-up in memory tells whether the key is live, if the dates allow to. -/
theorem Memory.live?_find_eq (m : Memory) (now : Instant) (key : String) :
    (m.find now key).1.live? = (Backend.memory m).telling now key := by
  unfold find Backend.telling
  simp only [Backend.entry?, Backend.grace]
  cases m.entries.get? key with
  | none => rfl
  | some e =>
      cases hdatable : e.datable m.grace now with
      | false => simp [hdatable, Found.live?]
      | true => cases hstage : e.stage m.grace now <;> simp [hdatable, hstage, Found.live?]

/-- So does a look-up in the table. -/
theorem Table.live?_find_eq (t : Table) (now : Instant) (key : String) :
    (t.find now key).live? = (Backend.table t).telling now key := by
  unfold find Backend.telling
  simp only [Backend.entry?, Backend.grace]
  cases t.rows.get? key with
  | none => rfl
  | some e =>
      cases hdatable : e.datable t.grace now with
      | false => simp [hdatable, Life.live?]
      | true => cases hstage : e.stage t.grace now <;> simp [hdatable, hstage, Life.live?]

/-! ## Writes and deletions -/

namespace Simulation.Backend

variable {b b' : Backend} {now : Instant} {key : String}

/-- An entry of the next revision was put in place, and nothing else was changed. -/
structure Puts (b b' : Backend) (key : String) (e : Entry) : Prop where
  version : e.version = b.revision + 1
  revision : b'.revision = b.revision + 1
  grace : b'.grace = b.grace
  entry : ∀ k, b'.entry? k = if k = key then some e else b.entry? k

/-- Write a key, if its condition holds. -/
def write (b : Backend) (now : Instant) (w : Writing) : Outcome Nat × Backend :=
  match b with
  | memory m =>
    let r := m.write now w.key w.data w.ttl w.condition
    (r.1, memory r.2)
  | table t =>
    let r := t.write now w.key w.data w.ttl w.condition
    (r.1, table r.2)

/-- What a write comes to that found out whether its key is live. -/
def verdict (b : Backend) (now : Instant) (w : Writing) : Outcome (Option Instant) :=
  if w.key.isEmpty then .refused (.invalidKey w.key)
  else (b.telling now w.key).elim .undatable (w.condition.verdict now w.key w.ttl)

/-- **A write** answers with the next revision if it is carried out. -/
theorem answer_write (b : Backend) (now : Instant) (w : Writing) :
    (b.write now w).1 = (b.verdict now w).map fun _ => b.revision + 1 := by
  unfold verdict
  cases b with
  | memory m =>
      simp only [write, Memory.write_eq, Memory.live?_find_eq]
      split
      · rfl
      · generalize ((memory m).telling now w.key).elim _ _ = verdict
        cases verdict <;> simp [Memory.commit, Memory.put, Outcome.map, revision,
          (m.find_frame now w.key).1]
  | table t =>
      simp only [write, Table.write_eq, Table.live?_find_eq]
      split
      · rfl
      · generalize ((table t).telling now w.key).elim _ _ = verdict
        cases verdict <;> rfl

/-- **A write that is carried out** puts what was written in place. -/
theorem puts_write {w : Writing} {expiry : Option Instant}
    (h : b.verdict now w = .answer expiry) :
    Puts b (b.write now w).2 w.key ⟨w.data, b.revision + 1, expiry, none⟩ := by
  unfold verdict at h
  split at h
  · cases h
  · next hkey =>
    cases b with
    | memory m =>
        obtain ⟨hrevision, hgrace⟩ := m.find_frame now w.key
        simp only [write, Memory.write_eq, if_neg hkey, Memory.live?_find_eq, h, Memory.commit,
          Memory.put]
        refine ⟨rfl, congrArg (· + 1) hrevision, hgrace, fun k => ?_⟩
        simp only [revision, hrevision, entry?]
        rw [KeyMap.get?_insert]
        split
        · rfl
        · next hk => exact m.get?_find_of_ne now hk
    | table t =>
        simp only [write, Table.write_eq, if_neg hkey, Table.live?_find_eq, h, Table.commit]
        exact ⟨rfl, rfl, rfl, fun k => KeyMap.get?_insert _ _ _ _⟩

/-- **A write that is not carried out** leaves the store as a read does. -/
theorem sheds_write {w : Writing} (h : (b.verdict now w).isAnswer = false) :
    Sheds now b (b.write now w).2 := by
  unfold verdict at h
  cases b with
  | memory m =>
      simp only [write, Memory.write_eq, Memory.live?_find_eq]
      split
      · exact .refl now _
      · next hkey =>
        rw [if_neg hkey] at h
        generalize ((memory m).telling now w.key).elim _ _ = verdict at h ⊢
        cases verdict with
        | answer expiry => cases h
        | refused e => exact sheds_of_find rfl
        | undatable => exact sheds_of_find rfl
  | table t =>
      simp only [write, Table.write_eq, Table.live?_find_eq]
      split
      · exact .refl now _
      · next hkey =>
        rw [if_neg hkey] at h
        generalize ((table t).telling now w.key).elim _ _ = verdict at h ⊢
        cases verdict with
        | answer expiry => cases h
        | refused e => exact .refl now _
        | undatable => exact .refl now _

/-- **A deletion** is carried out if the key is live; it puts the tombstone in place. -/
theorem delete_of_live {e : Entry} (h : b.live? now key = some e) :
    (b.apply now (.delete key)).1 = .answer () ∧
      Puts b (b.apply now (.delete key)).2 key
        { e with deletedAt := some now, version := b.revision + 1 } := by
  cases b with
  | memory m =>
      have hfind := Memory.find_of_live (m := m) h
      simp only [apply, Memory.apply, Memory.delete, hfind]
      exact ⟨rfl, rfl, rfl, rfl, fun k => KeyMap.get?_insert _ _ _ _⟩
  | table t =>
      obtain ⟨hentry, hlive⟩ := (live?_eq_some_iff _ _ _ _).1 h
      have hrow : t.rows.get? key = some e := hentry
      have hstage : e.stage t.grace now = .live := hlive
      have hfind : t.find now key = .row e .live := by
        simp [Table.find, hrow, hstage, Entry.datable_of_live hstage]
      simp only [apply, Table.apply, Table.delete, Table.transaction, Table.find_nextRevision, hfind]
      exact ⟨rfl, rfl, rfl, rfl, fun k => KeyMap.get?_insert _ _ _ _⟩

/-- **A deletion of a key that is not live** leaves the store as a read does. -/
theorem delete_of_not_live (h : b.live? now key = none) :
    (b.apply now (.delete key)).1.isAnswer = false ∧ Sheds now b (b.apply now (.delete key)).2 := by
  have hnot : b.telling now key ≠ some true := fun htelling => by
    have hlive := (telling_eq_some_iff.1 htelling).2
    rw [h] at hlive
    cases hlive
  cases b with
  | memory m =>
      rw [← Memory.live?_find_eq] at hnot
      have hsheds : Sheds now (memory m) (memory (m.find now key).2) := sheds_of_find rfl
      simp only [apply, Memory.apply, Memory.delete]
      rcases hfind : m.find now key with ⟨_ | ⟨e, _ | _ | _⟩ | _, m'⟩ <;>
        rw [hfind] at hnot hsheds
      case entry.live => exact absurd rfl hnot
      all_goals exact ⟨rfl, hsheds⟩
  | table t =>
      rw [← Table.live?_find_eq] at hnot
      simp only [apply, Table.apply, Table.delete, Table.transaction, Table.find_nextRevision]
      rcases hfind : t.find now key with _ | ⟨e, _ | _ | _⟩ | _ <;> rw [hfind] at hnot
      case row.live => exact absurd rfl hnot
      all_goals exact ⟨rfl, .refl now _⟩

/-! ## All that an operation can do -/

/-- The key allows the operation, and the dates that it compares exist. -/
def Grants (b : Backend) (now : Instant) (op : StoreOp) (key : String) : Prop :=
  op.Admitted (b.live? now key).isSome ∧ b.DatableAt now key ∧ op.Datable now

/-- All that an operation can do to a store. -/
inductive Effect (b : Backend) (now : Instant) (op : StoreOp) : Prop
  /-- It changes its key. -/
  | changed {key : String} {e : Entry} (target : op.target? = some key)
      (grants : b.Grants now op key)
      (entered : op.entered now (b.revision + 1) (b.live? now key) = some e)
      (answered : (b.apply now op).1.isAnswer = true)
      (version : ∀ reply v, (b.apply now op).1 = .answer reply → op.version? reply = some v →
        v = b.revision + 1)
      (puts : Puts b (b.apply now op).2 key e)
  /-- It is a read, or it is not carried out. -/
  | kept (failed : ∀ key, op.target? = some key →
        (b.apply now op).1.isAnswer = false ∧ ¬ b.Grants now op key)
      (sheds : Sheds now b (b.apply now op).2)

theorem verdict_eq_answer_iff (b : Backend) (now : Instant) (w : Writing)
    (expiry : Option Instant) :
    b.verdict now w = .answer expiry ↔
      w.key ≠ "" ∧ b.DatableAt now w.key ∧
        w.condition.fault w.key (b.live? now w.key).isSome = none ∧
        expiry = w.ttl.bind (fun ttl => now.add? ttl.forDates) ∧
        ∀ span, w.ttl = some span → (now.add? span.forDates).isSome = true := by
  unfold verdict
  by_cases hkey : w.key = ""
  · simp [hkey]
  · rw [if_neg (by simpa using hkey)]
    by_cases hdatable : b.DatableAt now w.key
    · rw [telling_eq_some_iff.2 ⟨hdatable, rfl⟩, Option.elim_some,
        Precondition.verdict_eq_answer_iff]
      simp [hkey, hdatable]
    · rw [telling_of_not_datable hdatable]
      simp [hdatable]

/-- A write that is decided on is carried out, and any other is not. -/
theorem write_cases (b : Backend) (now : Instant) (w : Writing) :
    (∃ expiry, b.verdict now w = .answer expiry ∧
      b.write now w = (.answer (b.revision + 1), (b.write now w).2) ∧
      Puts b (b.write now w).2 w.key ⟨w.data, b.revision + 1, expiry, none⟩) ∨
    ((∀ expiry, b.verdict now w ≠ .answer expiry) ∧ (b.write now w).1.isAnswer = false ∧
      Sheds now b (b.write now w).2) := by
  have hanswer := b.answer_write now w
  cases hverdict : b.verdict now w with
  | answer expiry =>
      rw [hverdict] at hanswer
      exact .inl ⟨expiry, rfl, Prod.ext hanswer rfl, puts_write hverdict⟩
  | refused e =>
      rw [hverdict] at hanswer
      exact .inr ⟨nofun, by rw [hanswer]; rfl, sheds_write (by rw [hverdict]; rfl)⟩
  | undatable =>
      rw [hverdict] at hanswer
      exact .inr ⟨nofun, by rw [hanswer]; rfl, sheds_write (by rw [hverdict]; rfl)⟩

/-- What a key grants is what the write is decided on. -/
theorem grants_iff_verdict {op : StoreOp} {w : Writing} (h : op.writing? = some w) :
    b.Grants now op w.key ↔ ∃ expiry, b.verdict now w = .answer expiry := by
  simp only [verdict_eq_answer_iff, Grants]
  cases op <;> cases h <;>
    simp [StoreOp.Admitted, StoreOp.Datable, Precondition.fault_eq_none_iff, and_left_comm,
      and_comm]

/-- A write puts in place what was written, with the expiry that was decided on. -/
theorem entered_of_verdict {op : StoreOp} {w : Writing} {expiry : Option Instant}
    (h : op.writing? = some w) (hverdict : b.verdict now w = .answer expiry) (version : Nat)
    (live : Option Entry) :
    op.entered now version live = some ⟨w.data, version, expiry, none⟩ := by
  obtain ⟨-, -, -, rfl, -⟩ := (verdict_eq_answer_iff _ _ _ _).1 hverdict
  cases op <;> cases h <;> rfl

/-- A write has one of the two effects. -/
private theorem effect_write {op : StoreOp} {w : Writing} (hwriting : op.writing? = some w)
    (hanswer : (b.apply now op).1.isAnswer = (b.write now w).1.isAnswer)
    (hversion : ∀ reply v, (b.apply now op).1 = .answer reply → op.version? reply = some v →
      (b.write now w).1 = .answer v)
    (hafter : (b.apply now op).2 = (b.write now w).2) : b.Effect now op := by
  have htarget := StoreOp.target?_of_writing hwriting
  rcases b.write_cases now w with ⟨expiry, hverdict, hwrite, hputs⟩ | ⟨hverdict, hnot, hsheds⟩
  · refine .changed htarget ((grants_iff_verdict hwriting).2 ⟨expiry, hverdict⟩)
      (entered_of_verdict hwriting hverdict _ _) (by rw [hanswer, hwrite]; rfl) ?_ (hafter ▸ hputs)
    intro reply v hreply hv
    have hanswered := hversion reply v hreply hv
    rw [hwrite] at hanswered
    cases hanswered
    rfl
  · refine .kept (fun key hkey => ?_) (hafter ▸ hsheds)
    obtain rfl := Option.some.inj (htarget.symm.trans hkey)
    refine ⟨hanswer.trans hnot, fun hgrants => ?_⟩
    obtain ⟨expiry, hanswered⟩ := (grants_iff_verdict hwriting).1 hgrants
    exact hverdict expiry hanswered

/-- **Every operation** changes its key or leaves the store as a read does. -/
theorem effect_apply (b : Backend) (now : Instant) (op : StoreOp) : b.Effect now op := by
  cases op with
  | get key => exact .kept nofun (b.sheds_get now key)
  | getAny key => exact .kept nofun (b.sheds_getAny now key)
  | contains key => exact .kept nofun (b.sheds_contains now key)
  | list scope => exact .kept nofun (b.sheds_list now scope)
  | delete key =>
      cases hlive : b.live? now key with
      | some e =>
          obtain ⟨hanswer, hputs⟩ := delete_of_live hlive
          refine .changed rfl ⟨by simp [StoreOp.Admitted, hlive], datableAt_of_live hlive, trivial⟩
            (by rw [hlive]; rfl) (by rw [hanswer]; rfl) nofun hputs
      | none =>
          obtain ⟨hanswer, hsheds⟩ := delete_of_not_live hlive
          refine .kept (fun k hk => ⟨hanswer, fun hgrants => ?_⟩) hsheds
          obtain rfl := Option.some.inj hk
          have hadmitted := hgrants.1
          rw [hlive] at hadmitted
          cases hadmitted
  | set key data | setFor key data ttl | create key data | replace key data =>
      refine effect_write rfl (by cases b <;> rfl) (fun reply v hreply hv => ?_) (by cases b <;> rfl)
      cases hv
      cases b <;> exact hreply

/-- **An operation that changes a key** is carried out if the key grants it. -/
theorem answers_iff {op : StoreOp} (htarget : op.target? = some key) :
    (b.apply now op).1.isAnswer = true ↔ b.Grants now op key := by
  cases b.effect_apply now op with
  | changed target grants _ answered =>
      obtain rfl := Option.some.inj (target.symm.trans htarget)
      exact ⟨fun _ => grants, fun _ => answered⟩
  | kept failed =>
      obtain ⟨hnot, hgrants⟩ := failed key htarget
      exact ⟨fun h => (by rw [hnot] at h; cases h), fun h => absurd h hgrants⟩

/-- **What is not carried out** leaves the store as a read does. -/
theorem sheds_of_not_answer {op : StoreOp} (h : (b.apply now op).1.isAnswer = false) :
    Sheds now b (b.apply now op).2 := by
  cases b.effect_apply now op with
  | changed _ _ _ answered =>
      rw [h] at answered
      cases answered
  | kept _ sheds => exact sheds

/-! ## What reads answer -/

/-- The store in memory with the same entries. -/
def copy : Backend → Memory
  | memory m => m
  | table t => ⟨t.rows, t.revision, t.grace⟩

theorem copy_live? (b : Backend) (now : Instant) (key : String) :
    b.copy.live? now key = b.live? now key := by
  cases b <;> rfl

theorem copy_datableAt : b.copy.DatableAt now key ↔ b.DatableAt now key := by
  cases b <;> exact Iff.rfl

theorem get_copy (b : Backend) (now : Instant) (key : String) :
    (b.apply now (.get key)).1 = (b.copy.get now key).1 := by
  cases b with
  | memory m => rfl
  | table t => exact ((Agree.of_rows now t).get key).answer.symm

theorem getAny_copy (b : Backend) (now : Instant) (key : String) :
    (b.apply now (.getAny key)).1 = (b.copy.getAny now key).1 := by
  cases b with
  | memory m => rfl
  | table t => exact ((Agree.of_rows now t).getAny key).answer.symm

theorem contains_copy (b : Backend) (now : Instant) (key : String) :
    (b.apply now (.contains key)).1 = (b.copy.contains now key).1 := by
  cases b with
  | memory m => rfl
  | table t => exact ((Agree.of_rows now t).contains key).answer.symm

/-- **Reading a key** answers with what is live. -/
theorem get_eq (h : b.DatableAt now key) :
    (b.apply now (.get key)).1 = match b.live? now key with
      | some e => .answer (e.snapshot key .live)
      | none => .refused (.keyNotFound key) := by
  rw [get_copy, Memory.get_eq (copy_datableAt.2 h), copy_live?]
  cases b.live? now key <;> rfl

/-- **Asking for a key** tells whether it is live. -/
theorem contains_eq (h : b.DatableAt now key) :
    (b.apply now (.contains key)).1 = .answer (b.live? now key).isSome := by
  rw [contains_copy, Memory.contains, ← copy_live?]
  cases hlive : b.copy.live? now key with
  | some e => rw [Memory.find_of_live hlive]; rfl
  | none =>
      rcases Memory.find_of_not_live hlive (copy_datableAt.2 h) with hfound | ⟨e, hfound⟩
      all_goals
        generalize b.copy.find now key = looked at hfound
        obtain ⟨found, m⟩ := looked
        subst hfound
        rfl

/-- **Looking for a key** shows it while it is live or a tombstone. -/
theorem getAny_eq (h : b.DatableAt now key) :
    (b.apply now (.getAny key)).1 = .answer (b.shown? now key) := by
  have hfound : ∃ found, (b.copy.getAny now key).1 = .answer found := by
    unfold Memory.getAny Memory.find
    cases hget : b.copy.entries.get? key with
    | none => exact ⟨none, rfl⟩
    | some e =>
        have hdatable := copy_datableAt.2 h e hget
        cases hstage : e.stage b.copy.grace now <;> simp [hdatable, hstage]
  obtain ⟨found, hfound⟩ := hfound
  rw [← getAny_copy] at hfound
  have hlooked : b.apply now (.getAny key) = (.answer found, (b.apply now (.getAny key)).2) :=
    Prod.ext hfound rfl
  rw [hfound]
  exact congrArg Outcome.answer (getAny_answer hlooked)

/-- A scan ends if what it comes across has its dates. -/
private theorem scan_ends_iff (found : List (String × Entry)) (shown : List Snapshot) (grace : Span)
    (now : Instant) :
    (∃ a, (if found.all (fun x => x.2.datable grace now) then .answer shown else .undatable) =
        Outcome.answer a) ↔
      ∀ key e, (key, e) ∈ found → e.datable grace now = true := by
  split
  · next hall => simpa using hall
  · next hall => simpa using hall

/-- **A scan ends** if the dates of all that it comes across exist. -/
theorem list_answers_iff (b : Backend) (now : Instant) (scope : String) :
    (∃ found, (b.apply now (.list scope)).1 = .answer found) ↔
      (b.scans scope = true → ∀ key, under scope key = true → b.DatableAt now key) := by
  cases b with
  | memory m =>
      have hlist : (m.list now scope).1 =
          if (m.under scope).all (fun x => x.2.datable m.grace now) then
            .answer (((m.under scope).filter fun x => !(x.2.stage m.grace now == .gone)).map
              fun x => x.2.snapshot x.1 (x.2.stage m.grace now))
          else .undatable := by
        unfold Memory.list
        simp only
        split <;> rfl
      change (∃ found, (m.list now scope).1 = .answer found) ↔ _
      rw [hlist, scan_ends_iff]
      simp only [Memory.mem_under_iff, scans, under, DatableAt, entry?, grace,
        List.isPrefixOf_iff_prefix, forall_const]
      exact ⟨fun h key hunder e he => h key e ⟨he, hunder⟩, fun h key e he => h key he.2 e he.1⟩
  | table t =>
      refine (scan_ends_iff (t.rows.toList.filter fun x => Table.finds scope x.1) _ t.grace
        now).trans ?_
      simp only [List.mem_filter, KeyMap.mem_toList_iff, Table.finds, Bool.and_eq_true, scans,
        under, DatableAt, entry?, grace]
      exact ⟨fun h hscans key hunder e he => h key e ⟨he, hscans, hunder⟩,
        fun h key e he => h he.2.1 key he.2.2 e he.1⟩

end Simulation.Backend

end FleetControl
