import FleetControl.Proofs.Store.Outcomes
import FleetControl.Proofs.Store.Revision

/-!
# Revisions without gaps, failures without traces

The revision of a store counts what was carried out. A write or a deletion that is carried out takes the
next revision, and the entry that it puts in place has it as its version; so no two keys ever have the
same version, and a key that comes back has a higher one than before. An operation that is refused or
aborted takes no revision. It may drop an entry from memory on its way, but only one that is gone for
good, and two stores in memory that differ in such entries answer everything alike: both agree with one
table.

What is carried out is told by the key and by the calendar: the key has to be in the state that the
operation asks for, and every date that is compared on the way has to exist. A time to live that ends
beyond the last date aborts a write that nothing else stands against, and so does the grace of a tombstone
that is still in place.

* `Backend.fresh` — a new store in either backend;
* `Backend.changes`, `Backend.revision_foldl_moved` — what was carried out is counted by the revision;
* `Backend.Distinct` — no two keys have the same version;
* `Backend.Twins` and `Twins.answers_eq` — stores that nobody can tell apart;
* `Backend.twins_of_not_answer` — a failure leaves such a store;
* `Backend.revisions_and_failures` — all of it for a run of a new store.
-/

namespace FleetControl

open Simulation (Backend)

/-! ## Runs -/

/-- The instant of a move; one that does not look at the clock has that of the move before it. -/
def StoreMove.instant (before : Instant) : StoreMove → Instant
  | ask now _ => now
  | compact now => now
  | purge _ => before

/-- Moves that do not go back in time, between two instants. -/
def Onward : Instant → List StoreMove → Instant → Prop
  | start, [], stop => start.nanos ≤ stop.nanos
  | start, move :: rest, stop =>
    start.nanos ≤ (move.instant start).nanos ∧ Onward (move.instant start) rest stop

namespace Simulation.Backend

variable {now : Instant} {b b' : Backend} {key : String}

/-- A new store, kept in a table or in memory. -/
def fresh (durable : Bool) (grace : Span) : Backend :=
  if durable then table (.new grace) else memory (.new grace)

theorem no_entry_fresh (durable : Bool) (grace : Span) (key : String) :
    Backend.entry? (fresh durable grace) key = none := by
  cases durable <;> rfl

theorem revision_fresh (durable : Bool) (grace : Span) : (fresh durable grace).revision = 0 := by
  cases durable <;> rfl

theorem numbered_fresh (durable : Bool) (grace : Span) : (fresh durable grace).Numbered := by
  intro key e he
  rw [no_entry_fresh] at he
  cases he

/-! ## What was carried out -/

/-- How many writes and deletions are carried out in a run. -/
def changes : List StoreMove → Backend → Nat
  | [], _ => 0
  | .ask now op :: rest, b =>
    (if op.target?.isSome && (b.apply now op).1.isAnswer then 1 else 0) +
      changes rest (b.apply now op).2
  | move :: rest, b => changes rest (b.moved move)

/-- **The revision counts what was carried out.** -/
theorem revision_foldl_moved (moves : List StoreMove) (b : Backend) :
    (moves.foldl moved b).revision = b.revision + b.changes moves := by
  induction moves generalizing b with
  | nil => rfl
  | cons move rest ih =>
      rw [List.foldl_cons, ih]
      cases move with
      | ask now op =>
          simp only [changes, moved]
          cases b.effect_apply now op with
          | changed target _ _ answered _ puts =>
              simp only [target, answered, puts.revision, Option.isSome_some, Bool.and_true, if_true]
              omega
          | kept failed sheds =>
              have hnone : (op.target?.isSome && (b.apply now op).1.isAnswer) = false := by
                cases htarget : op.target? with
                | none => rfl
                | some key => simp [(failed key htarget).1]
              simp only [hnone, sheds.revision, Bool.false_eq_true, if_false, Nat.zero_add]
      | compact now => simp only [changes, moved, (b.sheds_compact now).revision]
      | purge key => cases b <;> rfl

/-- No two keys have the same version. -/
def Distinct (b : Backend) : Prop :=
  ∀ key e key' e', b.entry? key = some e → b.entry? key' = some e' → e.version = e'.version →
    key = key'

/-- Dropping entries leaves the others apart. -/
theorem Distinct.of_dropped (h : b.Distinct)
    (hentry : ∀ key e, b'.entry? key = some e → b.entry? key = some e) : b'.Distinct :=
  fun key e key' e' he he' hversion => h key e key' e' (hentry _ _ he) (hentry _ _ he') hversion

/-- An entry of the next revision has a version that no other key has. -/
theorem Distinct.of_puts {e : Entry} (h : b.Distinct) (hnumbered : b.Numbered)
    (hputs : Puts b b' key e) : b'.Distinct := by
  -- What is there of other keys has a lower version than the entry that was put in place.
  have hother : ∀ k e', k ≠ key → b'.entry? k = some e' → b.entry? k = some e' ∧
      e'.version ≠ e.version := by
    intro k e' hk he'
    rw [hputs.entry, if_neg hk] at he'
    have hle := hnumbered k e' he'
    exact ⟨he', by rw [hputs.version]; omega⟩
  have hown : ∀ e', b'.entry? key = some e' → e' = e := by
    intro e' he'
    rw [hputs.entry, if_pos rfl] at he'
    exact (Option.some.inj he').symm
  intro k₁ e₁ k₂ e₂ he₁ he₂ hversion
  by_cases h₁ : k₁ = key <;> by_cases h₂ : k₂ = key
  · rw [h₁, h₂]
  · subst h₁
    obtain rfl := hown e₁ he₁
    exact absurd hversion.symm (hother k₂ e₂ h₂ he₂).2
  · subst h₂
    obtain rfl := hown e₂ he₂
    exact absurd hversion (hother k₁ e₁ h₁ he₁).2
  · exact h k₁ e₁ k₂ e₂ (hother k₁ e₁ h₁ he₁).1 (hother k₂ e₂ h₂ he₂).1 hversion

/-- Every move leaves the versions apart. -/
theorem Distinct.moved (h : b.Distinct) (hnumbered : b.Numbered) (move : StoreMove) :
    (b.moved move).Distinct := by
  cases move with
  | ask now op =>
      cases b.effect_apply now op with
      | changed _ _ _ _ _ puts => exact h.of_puts hnumbered puts
      | kept _ sheds => exact h.of_dropped fun _ _ he => sheds.before he
  | compact now => exact h.of_dropped fun _ _ he => (b.sheds_compact now).before he
  | purge key =>
      cases b with
      | memory m => exact h.of_dropped fun _ _ he => KeyMap.get?_of_erase he
      | table t => exact h

/-- **In a run no two keys have the same version.** -/
theorem Distinct.foldl_moved (h : b.Distinct) (hnumbered : b.Numbered) (moves : List StoreMove) :
    (moves.foldl Backend.moved b).Distinct := by
  induction moves generalizing b with
  | nil => exact h
  | cons move rest ih =>
      exact ih (h.moved hnumbered move) ((b.advances_moved move).numbered hnumbered)

/-! ## Stores that nobody can tell apart -/

/-- What is answered in a run. -/
def answers : List StoreMove → Backend → List ((op : StoreOp) × Outcome op.Reply)
  | [], _ => []
  | .ask now op :: rest, b => ⟨op, (b.apply now op).1⟩ :: answers rest (b.apply now op).2
  | move :: rest, b => answers rest (b.moved move)

/-- Stores in memory that agree with one table, or one table. -/
inductive Twins (now : Instant) : Backend → Backend → Prop where
  | memory {m m' : Memory} {t : Table} (left : Agree now m t) (right : Agree now m' t) :
      Twins now (.memory m) (.memory m')
  | table (t : Table) : Twins now (.table t) (.table t)

namespace Twins

theorem refl (now : Instant) (b : Backend) : Twins now b b := by
  cases b with
  | memory m =>
      have hagree : Agree now m _ := Agree.of_rows now ⟨m.entries, m.revision, m.grace⟩
      exact .memory hagree hagree
  | table t => exact .table t

theorem later (h : Twins now b b') {later : Instant} (hle : now.nanos ≤ later.nanos) :
    Twins later b b' := by
  cases h with
  | memory left right => exact .memory (left.later hle) (right.later hle)
  | table t => exact .table t

/-- **Twins answer an operation alike** and are twins afterwards. -/
theorem apply (h : Twins now b b') (op : StoreOp) :
    (b.apply now op).1 = (b'.apply now op).1 ∧
      Twins now (b.apply now op).2 (b'.apply now op).2 := by
  cases h with
  | table t => exact ⟨rfl, .table _⟩
  | @memory m m' t left right =>
      -- Scans of memory and of the table may differ, so they are compared in memory.
      by_cases hlist : ∃ scope, op = .list scope
      · obtain ⟨scope, rfl⟩ := hlist
        exact ⟨left.list_answer_eq right scope,
          .memory (left.list_memory scope) (right.list_memory scope)⟩
      · have hleft : Agree.Alike now (m.apply now op) (t.apply now op) :=
          left.apply fun scope hop => absurd ⟨scope, hop⟩ hlist
        have hright : Agree.Alike now (m'.apply now op) (t.apply now op) :=
          right.apply fun scope hop => absurd ⟨scope, hop⟩ hlist
        exact ⟨hleft.answer.trans hright.answer.symm, .memory hleft.agree hright.agree⟩

/-- **What one of two twins is asked to show** does not tell them apart. -/
theorem read (h : Twins now b b') {op : StoreOp} (hread : op.target? = none) :
    Twins now (b.apply now op).2 b' := by
  cases h with
  | table t =>
      have hsame : (t.apply now op).2 = t := by
        cases op with
        | get key | getAny key | contains key | list scope => rfl
        | set | setFor | delete | create | replace => cases hread
      simp only [Backend.apply, hsame]
      exact .table t
  | @memory m m' t left right =>
      refine .memory ?_ right
      cases op with
      | get key => exact (left.get key).agree
      | getAny key => exact (left.getAny key).agree
      | contains key => exact (left.contains key).agree
      | list scope => exact left.list_memory scope
      | set | setFor | delete | create | replace => cases hread

/-- Compacting twins leaves twins. -/
theorem compact (h : Twins now b b') :
    Twins now (b.compact now).2 (b'.compact now).2 := by
  cases h with
  | memory left right =>
      exact .memory (left.compact_memory (Int.le_refl _)) (right.compact_memory (Int.le_refl _))
  | table t => exact .table _

/-- What is removed without a trace is removed from both. -/
private theorem agree_purge {m : Memory} {t : Table} (h : Agree now m t) (key : String) :
    Agree now (m.purge key).2 ⟨t.rows.erase key, t.revision, t.grace⟩ := by
  refine ⟨h.revision, h.grace, ?_⟩
  simp only [Memory.purge]
  rw [unspent_erase_comm, h.entries, ← unspent_erase_comm]

/-- Removing a key without a trace leaves twins. -/
theorem purge (h : Twins now b b') (key : String) :
    Twins now (b.moved (.purge key)) (b'.moved (.purge key)) := by
  cases h with
  | memory left right => exact .memory (agree_purge left key) (agree_purge right key)
  | table t => exact .table t

/-- A move that does not go back in time leaves twins. -/
theorem moved (h : Twins now b b') (move : StoreMove) (hle : now.nanos ≤ (move.instant now).nanos) :
    Twins (move.instant now) (b.moved move) (b'.moved move) := by
  cases move with
  | ask later op => exact ((h.later hle).apply op).2
  | compact later => exact (h.later hle).compact
  | purge key => exact h.purge key

/-- **Twins answer a run alike.** -/
theorem answers_eq (h : Twins now b b') {moves : List StoreMove} {stop : Instant}
    (honward : Onward now moves stop) : b.answers moves = b'.answers moves := by
  induction moves generalizing now b b' with
  | nil => rfl
  | cons move rest ih =>
      obtain ⟨hle, hrest⟩ := honward
      cases move with
      | ask later op =>
          have hlater : Twins later b b' := h.later hle
          obtain ⟨hanswer, hafter⟩ := hlater.apply op
          simp only [answers, hanswer, ih hafter hrest]
      | compact later => exact ih (h.later hle).compact hrest
      | purge key => exact ih (h.purge key) hrest

end Twins

/-! ## Failures -/

/-- A transaction that does not end with an answer is rolled back. -/
theorem transaction_of_not_answer {α : Type} {t : Table} {body : Table → Outcome α × Table}
    (h : (t.transaction body).1.isAnswer = false) : (t.transaction body).2 = t := by
  unfold Table.transaction at h ⊢
  generalize body t = result at h ⊢
  rcases result with ⟨a | e | _, t'⟩
  · cases h
  · rfl
  · rfl

/-- **A failure leaves a table as it is.** -/
theorem table_of_not_answer {t : Table} {op : StoreOp} (h : (t.apply now op).1.isAnswer = false) :
    (t.apply now op).2 = t := by
  cases op with
  | get key | getAny key | contains key | list scope => rfl
  | delete key => exact transaction_of_not_answer h
  | set key data | setFor key data ttl | create key data | replace key data =>
      simp only [Table.apply, Table.write] at h ⊢
      split
      · rfl
      · next hkey =>
        rw [if_neg hkey] at h
        exact transaction_of_not_answer h

/-- A scan that does not end drops nothing. -/
theorem list_of_not_answer {m : Memory} {scope : String}
    (h : (m.list now scope).1.isAnswer = false) : (m.list now scope).2 = m := by
  unfold Memory.list at h ⊢
  simp only at h ⊢
  split
  · next hall =>
    rw [if_pos hall] at h
    cases h
  · rfl

/-- **A failure leaves a store that nobody can tell apart from what it was.** -/
theorem twins_of_not_answer {op : StoreOp} (h : (b.apply now op).1.isAnswer = false) :
    Twins now (b.apply now op).2 b := by
  cases b with
  | table t =>
      have hsame : (t.apply now op).2 = t := table_of_not_answer h
      simp only [Backend.apply, hsame]
      exact .table t
  | memory m =>
      -- The table with the same entries fails, too, and agrees with memory before and after.
      have hbefore : Agree now m _ := Agree.of_rows now ⟨m.entries, m.revision, m.grace⟩
      by_cases hlist : ∃ scope, op = .list scope
      · obtain ⟨scope, rfl⟩ := hlist
        have hsame : (m.list now scope).2 = m := list_of_not_answer h
        simp only [Backend.apply, Memory.apply, hsame]
        exact .memory hbefore hbefore
      · have hafter : Agree.Alike now (m.apply now op)
            ((⟨m.entries, m.revision, m.grace⟩ : Table).apply now op) :=
          hbefore.apply fun scope hop => absurd ⟨scope, hop⟩ hlist
        have htable : ((⟨m.entries, m.revision, m.grace⟩ : Table).apply now op).1.isAnswer =
            false := by
          rw [← hafter.answer]
          exact h
        have hagree := hafter.agree
        rw [table_of_not_answer htable] at hagree
        exact .memory hagree hbefore

/-! ## Runs of a new store -/

/-- What is carried out takes the next revision, which is told and becomes the version of the key. -/
theorem version_of_answer {op : StoreOp} {reply : op.Reply} (htarget : op.target? = some key)
    (hanswer : (b.apply now op).1 = .answer reply) :
    (b.apply now op).2.revision = b.revision + 1 ∧
      (∃ e, Backend.entry? (b.apply now op).2 key = some e ∧ e.version = b.revision + 1) ∧
      ∀ v, op.version? reply = some v → v = b.revision + 1 := by
  cases b.effect_apply now op with
  | @changed key' e target _ _ _ version puts =>
      obtain rfl := Option.some.inj (target.symm.trans htarget)
      refine ⟨puts.revision, ⟨e, ?_, puts.version⟩, fun v hv => version reply v hanswer hv⟩
      rw [puts.entry, if_pos rfl]
  | kept failed =>
      have hnot := (failed key htarget).1
      rw [hanswer] at hnot
      cases hnot

/-- The version of a key does not go down between two states of a run. -/
theorem version_le_of_append {b₀ : Backend} (hnumbered : b₀.Numbered) (before after : List StoreMove)
    {e e' : Entry} (he : Backend.entry? (before.foldl moved b₀) key = some e)
    (he' : Backend.entry? ((before ++ after).foldl moved b₀) key = some e') :
    e.version ≤ e'.version := by
  rw [List.foldl_append] at he'
  have hbefore := (advances_foldl_moved before b₀).numbered hnumbered
  exact ((advances_foldl_moved after _).reached (hbefore.reached he)).entry e' he'

/-- **Revisions and failures.** After any run of a new store an operation that changes a key is
carried out exactly if the key is as the operation asks and all dates that are compared exist. It
takes the next revision, and revisions count what was carried out. What fails takes none, and no
later answer tells that it was tried. No two keys have the same version, none is newer than the
store, and the version of a key does not go down. -/
theorem revisions_and_failures (durable : Bool) (grace : Span) (moves : List StoreMove) :
    let b := moves.foldl moved (fresh durable grace)
    (∀ now op key, op.target? = some key →
      ((b.apply now op).1.isAnswer = true ↔
        op.Admitted (b.live? now key).isSome ∧ b.DatableAt now key ∧ op.Datable now)) ∧
    (∀ now op key reply, op.target? = some key → (b.apply now op).1 = .answer reply →
      (b.apply now op).2.revision = b.revision + 1 ∧
        (∃ e, Backend.entry? (b.apply now op).2 key = some e ∧ e.version = b.revision + 1) ∧
        ∀ v, op.version? reply = some v → v = b.revision + 1) ∧
    b.revision = (fresh durable grace).changes moves ∧
    (∀ now op, (b.apply now op).1.isAnswer = false →
      (b.apply now op).2.revision = b.revision ∧
        ∀ later stop, Onward now later stop →
          (b.apply now op).2.answers later = b.answers later) ∧
    (∀ key e key' e', b.entry? key = some e → b.entry? key' = some e' →
      e.version = e'.version → key = key') ∧
    (∀ key e, b.entry? key = some e → e.version ≤ b.revision) ∧
    (∀ before after, moves = before ++ after → ∀ key e e',
      Backend.entry? (before.foldl moved (fresh durable grace)) key = some e → b.entry? key = some e' →
        e.version ≤ e'.version) := by
  intro b
  have hnumbered := numbered_fresh durable grace
  have hdistinct : (fresh durable grace).Distinct := by
    intro key e key' e' he
    rw [no_entry_fresh] at he
    cases he
  refine ⟨fun now op key htarget => answers_iff htarget,
    fun now op key reply htarget hanswer => version_of_answer htarget hanswer, ?_,
    fun now op hfailed => ⟨(sheds_of_not_answer hfailed).revision, fun later stop honward =>
      (twins_of_not_answer hfailed).answers_eq honward⟩,
    hdistinct.foldl_moved hnumbered moves, (advances_foldl_moved moves _).numbered hnumbered, ?_⟩
  · have hcount := revision_foldl_moved moves (fresh durable grace)
    rw [revision_fresh, Nat.zero_add] at hcount
    exact hcount
  · rintro before after rfl key e e' he he'
    exact version_le_of_append hnumbered before after he he'

/-- A key that was written and deleted is written anew, with the third revision; the attempt to
replace it in between takes none and goes unnoticed. -/
theorem deleted_key_comes_back :
    let at' := fun seconds : Nat => (⟨seconds * 1000000000, false⟩ : Instant)
    let b := [StoreMove.ask (at' 0) (.set "a" [1]), .ask (at' 1) (.delete "a")].foldl moved
      (fresh false defaultGrace)
    (b.apply (at' 2) (.create "a" [2])).1.isAnswer = true ∧
      (b.apply (at' 2) (.create "a" [2])).2.revision = 3 ∧
      (b.apply (at' 2) (.replace "a" [2])).2.revision = 2 ∧
      ∀ later stop, Onward (at' 2) later stop →
        (b.apply (at' 2) (.replace "a" [2])).2.answers later = b.answers later := by
  intro at' b
  obtain ⟨hadmitted, hnext, -, hfailed, -⟩ := revisions_and_failures false defaultGrace
    [StoreMove.ask (at' 0) (.set "a" [1]), .ask (at' 1) (.delete "a")]
  have hdated : b.DatableAt (at' 2) "a" := by
    have hentry : b.entry? "a" = some ⟨[1], 2, none, some (at' 1)⟩ := by decide
    intro e he
    obtain rfl := Option.some.inj (hentry.symm.trans he)
    decide
  have hcreated : (b.apply (at' 2) (.create "a" [2])).1.isAnswer = true :=
    (hadmitted (at' 2) (.create "a" [2]) "a" rfl).2 ⟨⟨by decide, by decide⟩, hdated, trivial⟩
  obtain ⟨reply, hreply⟩ := (Outcome.isAnswer_iff _).1 hcreated
  obtain ⟨hrevision, hanswers⟩ := hfailed (at' 2) (.replace "a" [2]) (by decide)
  exact ⟨hcreated, (hnext (at' 2) (.create "a" [2]) "a" reply rfl hreply).1, hrevision, hanswers⟩

/-- Nothing stands against this write but its time to live, which ends beyond the last date. -/
theorem write_aborted_beyond_calendar :
    let now : Instant := ⟨1735689600000000000, false⟩
    ¬ ∀ (durable : Bool) (ttl : Span) (key : String), key ≠ "" →
      ((fresh durable defaultGrace).apply now (.setFor key [49] ttl)).1.isAnswer = true := by
  intro now h
  have hanswer := h false (Span.ofMillis 9000000000000000) "a" (by decide)
  revert hanswer
  decide

end Simulation.Backend

end FleetControl
