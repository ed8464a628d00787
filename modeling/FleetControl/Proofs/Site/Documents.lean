import FleetControl.Proofs.Reconcile.Pass
import FleetControl.Proofs.Site.Host
import FleetControl.Proofs.Store.Outcomes

/-!
# Status documents at a host

What reading, writing and deleting a status document comes to in either backend, whatever the state
of its key. Each is one request at the key, so it is answered, or the document is found to be
missing, or the program breaks off because the grace of a dead document has no date. No other
refusal comes about, because status keys are not empty. What a request changes is one entry at its
key, or nothing but that something gone is dropped.

* `Host.Loads`, `Host.Saves`, `Host.Deletes` — what the three requests come to;
* `Host.loads`, `Host.saves`, `Host.deletes` — they come to nothing else;
* `reconcileWorkflow_eq`, `removeWorkflow_eq` — a pass is its actions and then one of the requests.
-/

namespace FleetControl

open Simulation (Backend)

/-! ## One key of a store -/

namespace Simulation.Backend

variable {b : Backend} {now : Instant} {key : String}

/-- Reading breaks off if the end of a dead entry's grace has no date. -/
theorem get_of_not_datable (h : ¬ b.DatableAt now key) :
    (b.apply now (.get key)).1 = .undatable :=
  (b.get_copy now key).trans
    (congrArg Prod.fst (Memory.get_of_not_datable (mt copy_datableAt.1 h)))

/-- Asking for a key breaks off if the end of a dead entry's grace has no date. -/
theorem contains_of_not_datable (h : ¬ b.DatableAt now key) : (b.apply now (.contains key)).1 = .undatable := by
  rw [contains_copy, Memory.contains, Memory.find_of_not_datable (mt copy_datableAt.1 h)]
  rfl

/-- Writing a key breaks off if the end of a dead entry's grace has no date. -/
theorem set_of_not_datable (data : Bytes) (hkey : key ≠ "") (h : ¬ b.DatableAt now key) :
    (b.apply now (.set key data)).1 = .undatable := by
  have hwrite : (b.apply now (.set key data)).1 = (b.write now ⟨key, data, none, .any⟩).1 := by
    cases b <;> rfl
  rw [hwrite, answer_write, verdict, if_neg (by simpa using hkey), telling_of_not_datable h]
  rfl

/-- Writing a key is answered otherwise, and puts the data in place. -/
theorem set_of_datable (data : Bytes) (hkey : key ≠ "") (h : b.DatableAt now key) :
    ∃ version, (b.apply now (.set key data)).1 = .answer version ∧
      Puts b (b.apply now (.set key data)).2 key ⟨data, b.revision + 1, none, none⟩ := by
  have hgrants : b.Grants now (.set key data) key := ⟨hkey, h, trivial⟩
  cases b.effect_apply now (.set key data) with
  | changed target _ entered answered _ puts =>
      obtain ⟨version, hversion⟩ := (Outcome.isAnswer_iff _).1 answered
      cases target
      cases entered
      exact ⟨version, hversion, puts⟩
  | kept failed => exact absurd hgrants (failed key rfl).2

/-- Deleting a key that is not live is refused, as there is no such key, or breaks off. -/
theorem delete_of_telling (h : b.telling now key ≠ some true) :
    (b.apply now (.delete key)).1 =
      (b.telling now key).elim .undatable fun _ => .refused (.keyNotFound key) := by
  cases b with
  | memory m =>
      rw [← Memory.live?_find_eq] at h ⊢
      simp only [apply, Memory.apply, Memory.delete]
      rcases hfind : m.find now key with ⟨_ | ⟨e, _ | _ | _⟩ | _, m'⟩ <;> rw [hfind] at h
      case entry.live => exact absurd rfl h
      all_goals rfl
  | table t =>
      rw [← Table.live?_find_eq] at h ⊢
      simp only [apply, Table.apply, Table.delete, Table.transaction, Table.find_nextRevision]
      rcases hfind : t.find now key with _ | ⟨e, _ | _ | _⟩ | _ <;> rw [hfind] at h
      case row.live => exact absurd rfl h
      all_goals rfl

/-- What was deleted is not live at any instant. -/
theorem live?_of_deleted {b' : Backend} {e : Entry} (hdeleted : e.deletedAt ≠ none)
    (h : Puts b b' key e) (now : Instant) : b'.live? now key = none := by
  have hentry : b'.entry? key = some e := (h.entry key).trans (if_pos rfl)
  rw [live?, hentry, Option.filter_some]
  simp [Entry.stage_ne_live hdeleted]

end Simulation.Backend

namespace Host

variable {τ : Type} (agents : AgentSide τ)

theorem exec_delete (key : String) (s : Host τ) :
    (Control.delete key).exec (answer agents) s =
      s.tick.stored (s.store.apply s.tick.now (.delete key)) :=
  exec_store agents (.delete key) s

/-- Asking for a key tells whether it is live, or breaks off. -/
theorem looks (s : Host τ) (key : String) :
    ∃ outcome b, (Control.contains key).exec (answer agents) s =
        (outcome, { s.tick with store := b }) ∧ Backend.Sheds s.tick.now s.store b ∧
      ((outcome = none ∧ ¬ s.store.DatableAt s.tick.now key) ∨
        outcome = some (.ok (s.store.live? s.tick.now key).isSome)) := by
  have hsheds := s.store.sheds_contains s.tick.now key
  rw [exec_contains]
  by_cases hdatable : s.store.DatableAt s.tick.now key
  · have hanswer := Backend.contains_eq hdatable
    generalize s.store.apply s.tick.now (.contains key) = result at hanswer hsheds ⊢
    obtain ⟨reply, b⟩ := result
    obtain rfl : reply = _ := hanswer
    exact ⟨_, b, rfl, hsheds, .inr rfl⟩
  · have hanswer := Backend.contains_of_not_datable hdatable
    generalize s.store.apply s.tick.now (.contains key) = result at hanswer hsheds ⊢
    obtain ⟨reply, b⟩ := result
    obtain rfl : reply = _ := hanswer
    exact ⟨none, b, rfl, hsheds, .inl ⟨rfl, hdatable⟩⟩

/-! ## Reading -/

/-- What reading a status document comes to, and the store that it leaves. -/
inductive Loads (s : Host τ) (w : String) :
    Option (Except ControlError (Option WorkflowStatus)) → Backend → Prop
  | missing {b : Backend} (dead : s.store.live? s.tick.now (statusKey w) = none)
      (sheds : Backend.Sheds s.tick.now s.store b) : Loads s w (some (.ok none)) b
  | read {e : Entry} {doc : WorkflowStatus}
      (live : s.store.live? s.tick.now (statusKey w) = some e)
      (decoded : WorkflowStatus.decode? e.data = some doc) :
      Loads s w (some (.ok (some doc))) s.store
  | garbled {e : Entry} (live : s.store.live? s.tick.now (statusKey w) = some e)
      (decoded : WorkflowStatus.decode? e.data = none) : Loads s w (some (.error .json)) s.store
  | broken {b : Backend} (undatable : ¬ s.store.DatableAt s.tick.now (statusKey w))
      (sheds : Backend.Sheds s.tick.now s.store b) : Loads s w none b

/-- **Reading a status document** changes nothing, but that something gone may be dropped. -/
theorem loads (s : Host τ) (w : String) :
    ∃ outcome b, (loadStatus w).exec (answer agents) s = (outcome, { s.tick with store := b }) ∧
      s.Loads w outcome b := by
  have hsheds := s.store.sheds_get s.tick.now (statusKey w)
  rw [loadStatus_eq, Program.exec_bind, exec_get]
  cases hlive : s.store.live? s.tick.now (statusKey w) with
  | some e =>
      rw [Backend.get_of_live hlive]
      cases hdoc : WorkflowStatus.decode? e.data with
      | some doc =>
          refine ⟨_, s.store, ?_, .read hlive hdoc⟩
          simp only [stored, statusOf, Entry.snapshot, hdoc]
          rfl
      | none =>
          refine ⟨_, s.store, ?_, .garbled hlive hdoc⟩
          simp only [stored, statusOf, Entry.snapshot, hdoc]
          rfl
  | none =>
      by_cases hdatable : s.store.DatableAt s.tick.now (statusKey w)
      · have hget := Backend.get_eq hdatable
        rw [hlive] at hget
        generalize s.store.apply s.tick.now (.get (statusKey w)) = result at hget hsheds ⊢
        obtain ⟨reply, b⟩ := result
        obtain rfl : reply = _ := hget
        exact ⟨_, b, rfl, .missing hlive hsheds⟩
      · have hget := Backend.get_of_not_datable hdatable
        generalize s.store.apply s.tick.now (.get (statusKey w)) = result at hget hsheds ⊢
        obtain ⟨reply, b⟩ := result
        obtain rfl : reply = _ := hget
        exact ⟨none, b, rfl, .broken hdatable hsheds⟩

/-! ## Writing -/

/-- What writing the document of a working copy comes to. -/
inductive Saves (s : Host τ) (a : Applied) : Option (Except ControlError Unit) → Backend → Prop
  | wrote {b : Backend} {version : Nat} (puts : Backend.Puts s.store b (statusKey a.spec.name)
      ⟨(a.toStatus (some s.tick.now.val)).encode, version, none, none⟩) :
      Saves s a (some (.ok ())) b
  | broken {b : Backend}
      (undatable : ¬ s.store.DatableAt s.tick.tick.now (statusKey a.spec.name))
      (sheds : Backend.Sheds s.tick.tick.now s.store b) : Saves s a none b

/-- **Writing a document** puts it in place, under the name in its spec, or breaks off. -/
theorem saves (s : Host τ) (a : Applied) :
    ∃ outcome b, (saveStatus a).exec (answer agents) s =
        (outcome, { s.tick.tick with store := b }) ∧ s.Saves a outcome b := by
  have hname : (a.toStatus (some s.tick.now.val)).name = a.spec.name := rfl
  have hclock : Control.clock.exec (answer agents) s = (some s.tick.now.val, s.tick) := rfl
  unfold saveStatus
  rw [Program.exec_bind, hclock]
  simp only
  rw [Program.exec_bind, exec_set, hname, tick_store]
  by_cases hdatable : s.store.DatableAt s.tick.tick.now (statusKey a.spec.name)
  · obtain ⟨version, hanswer, hputs⟩ := Backend.set_of_datable
      (a.toStatus (some s.tick.now.val)).encode (statusKey_ne_empty a.spec.name) hdatable
    generalize s.store.apply s.tick.tick.now
      (.set (statusKey a.spec.name) (a.toStatus (some s.tick.now.val)).encode) = result
      at hanswer hputs ⊢
    obtain ⟨reply, b⟩ := result
    obtain rfl : reply = _ := hanswer
    exact ⟨_, b, rfl, .wrote hputs⟩
  · have hset := Backend.set_of_not_datable
      (a.toStatus (some s.tick.now.val)).encode (statusKey_ne_empty a.spec.name) hdatable
    have hsheds : Backend.Sheds s.tick.tick.now s.store (s.store.apply s.tick.tick.now
        (.set (statusKey a.spec.name) (a.toStatus (some s.tick.now.val)).encode)).2 :=
      Backend.sheds_of_not_answer (by rw [hset]; rfl)
    generalize s.store.apply s.tick.tick.now
      (.set (statusKey a.spec.name) (a.toStatus (some s.tick.now.val)).encode) = result
      at hset hsheds ⊢
    obtain ⟨reply, b⟩ := result
    obtain rfl : reply = _ := hset
    exact ⟨none, b, rfl, .broken hdatable hsheds⟩

/-! ## Deleting -/

/-- What deleting the document of a workflow comes to. -/
inductive Deletes (s : Host τ) (w : String) : Option (Except ControlError Unit) → Backend → Prop
  | deleted {b : Backend} {e : Entry} {version : Nat}
      (live : s.store.live? s.tick.now (statusKey w) = some e)
      (puts : Backend.Puts s.store b (statusKey w)
        { e with deletedAt := some s.tick.now.val, version }) :
      Deletes s w (some (.ok ())) b
  | missing {b : Backend} (dead : s.store.live? s.tick.now (statusKey w) = none)
      (sheds : Backend.Sheds s.tick.now s.store b) : Deletes s w (some (.ok ())) b
  | broken {b : Backend} (undatable : ¬ s.store.DatableAt s.tick.now (statusKey w))
      (sheds : Backend.Sheds s.tick.now s.store b) : Deletes s w none b

/-- **Deleting a document** leaves a tombstone, unless the document is missing already. -/
theorem deletes (s : Host τ) (w : String) :
    ∃ outcome b, (deleteStatus w).exec (answer agents) s = (outcome, { s.tick with store := b }) ∧
      s.Deletes w outcome b := by
  unfold deleteStatus
  rw [Program.exec_bind, exec_delete]
  cases hlive : s.store.live? s.tick.now (statusKey w) with
  | some e =>
      obtain ⟨hanswer, hputs⟩ := Backend.delete_of_live hlive
      generalize s.store.apply s.tick.now (.delete (statusKey w)) = result at hanswer hputs ⊢
      obtain ⟨reply, b⟩ := result
      obtain rfl : reply = _ := hanswer
      exact ⟨_, b, rfl, .deleted hlive hputs⟩
  | none =>
      obtain ⟨-, hsheds⟩ := Backend.delete_of_not_live hlive
      have hnot : s.store.telling s.tick.now (statusKey w) ≠ some true := fun htelling => by
        have hsome := (Backend.telling_eq_some_iff.1 htelling).2
        rw [hlive] at hsome
        cases hsome
      have hrefused := Backend.delete_of_telling hnot
      generalize s.store.apply s.tick.now (.delete (statusKey w)) = result at hrefused hsheds ⊢
      obtain ⟨reply, b⟩ := result
      obtain rfl : reply = _ := hrefused
      by_cases hdatable : s.store.DatableAt s.tick.now (statusKey w)
      · rw [Backend.telling_eq_some_iff.2 ⟨hdatable, rfl⟩]
        exact ⟨_, b, rfl, .missing hlive hsheds⟩
      · rw [Backend.telling_of_not_datable hdatable]
        exact ⟨none, b, rfl, .broken hdatable hsheds⟩

end Host

/-! ## Passes -/

section Passes

variable (deadline : Span)

/-- **A pass over a manifest**, once the document has been read, is its actions, and then the
document is written unless nothing has changed. -/
theorem reconcileWorkflow_eq (desired : WorkflowSpec) (previous : Option WorkflowStatus) :
    reconcileWorkflow deadline desired previous =
      Attempt.all deadline desired.name desired
          (manifestActions desired (Applied.ofStatus? desired.name previous))
          (Applied.ofStatus? desired.name previous) >>= fun attempt =>
        if attempt.quiet desired previous then pure (.ok (attempt.report desired.name false))
        else saveStatus (attempt.settled desired) >>= fun written =>
          pure (written.map fun _ => attempt.report desired.name true) := by
  unfold reconcileWorkflow
  simp only
  congr 1
  funext attempt
  change (if attempt.quiet desired previous then _ else _ : Control _) = _
  split
  · rfl
  · congr 1
    funext written
    cases written <;> rfl

/-- **A removal**, once the document has been read, is its actions, and then the document is
deleted, or written if some of them failed. -/
theorem removeWorkflow_eq (w : String) :
    removeWorkflow deadline w = loadStatus w >>= fun loaded =>
      match loaded with
      | .error e => pure (.error e)
      | .ok none => pure (.ok (.empty w))
      | .ok (some doc) =>
        Attempt.all deadline w (.empty w) (removalActions (Applied.ofStatus doc))
            (Applied.ofStatus doc) >>= fun attempt =>
          (if attempt.failures.isEmpty then deleteStatus w else saveStatus attempt.state) >>=
            fun written => pure (written.map fun _ => attempt.report w true) := by
  unfold removeWorkflow
  congr 1
  funext loaded
  cases loaded with
  | error e => rfl
  | ok previous =>
      cases previous with
      | none => rfl
      | some doc =>
          simp only
          congr 1
          funext attempt
          cases attempt.failures.isEmpty
          all_goals
            simp only [Bool.false_eq_true, if_true, if_false]
            congr 1
            funext written
            cases written <;> rfl

end Passes

end FleetControl
