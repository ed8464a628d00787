import FleetControl.Proofs.Store.Histories
import FleetControl.Proofs.Store.Reads
import FleetControl.Proofs.Text.ByteOrder

/-!
# Scans in memory go unnoticed

A scan starts at its scope and stops at the first key that is not under it. Keys are ordered as their
bytes are, so this is a filter of the whole store. On the way the scan drops what is gone. Nobody can
tell: an entry that is gone stays gone, so a store answers at any later instant as it would without
the entries that were gone before, and what it keeps is the same but for such entries. That is said
by comparing a store with itself after they were pruned, one operation at a time, whether the
instants of the operations ascend or not.

* `Memory.pruned` — the store without what was gone for good at an instant;
* `Memory.alike_pruned` — every operation at that instant or later is answered as by the pruned store;
* `Memory.replies_pruned` — so is every sequence of operations, walks and compactions;
* `Memory.Scanned` — what a scan is to show, as a filter of the whole store;
* `Memory.scan_is_filter` — what a scan shows and drops, and that nobody notices;
* `Memory.scan_aborted_beyond_calendar` — a tombstone that a scan does not show.
-/

namespace FleetControl

open Simulation (Backend)

namespace Memory

/-! ## Stores without what is gone -/

/-- The store without the entries that are gone for good at an instant. -/
def pruned (since : Instant) (m : Memory) : Memory :=
  { m with entries := unspent m.grace since m.entries }

/-- Results with the same answer, and with stores that differ in what is gone at most. -/
structure AlikeSince (since : Instant) {α : Type} (x y : Outcome α × Memory) : Prop where
  answer : x.1 = y.1
  pruned : x.2.pruned since = y.2.pruned since

variable {since now : Instant} {m : Memory}

@[simp]
theorem grace_pruned (since : Instant) (m : Memory) : (m.pruned since).grace = m.grace := rfl

@[simp]
theorem revision_pruned (since : Instant) (m : Memory) :
    (m.pruned since).revision = m.revision := rfl

theorem pruned_pruned (since : Instant) (m : Memory) :
    (m.pruned since).pruned since = m.pruned since := by
  simp only [pruned, unspent_later (Int.le_refl _)]

/-- Stores with the same entries but for what is gone are pruned to the same store. -/
theorem pruned_ext {m m' : Memory} (hrevision : m.revision = m'.revision)
    (hgrace : m.grace = m'.grace)
    (hget : ∀ key, (m.entries.get? key).filter (fun e => !e.spent m.grace since) =
      (m'.entries.get? key).filter fun e => !e.spent m.grace since) :
    m.pruned since = m'.pruned since := by
  have hentries : unspent m.grace since m.entries = unspent m.grace since m'.entries := by
    apply KeyMap.ext_get?
    intro key
    rw [get?_unspent, get?_unspent]
    exact hget key
  simp only [pruned]
  rw [hentries, hrevision, hgrace]

/-- A store and its pruned form agree with the same table. -/
theorem agree_pruned (hle : since.nanos ≤ now.nanos) :
    Agree now m ⟨(m.pruned since).entries, m.revision, m.grace⟩ := by
  have hsince : Agree since m ⟨(m.pruned since).entries, m.revision, m.grace⟩ :=
    ⟨rfl, rfl, (unspent_later (Int.le_refl _) _).symm⟩
  exact hsince.later hle

/-- Writing the same entry keeps stores apart in what is gone at most. -/
theorem pruned_insert (since : Instant) (m : Memory) (key : String) (e : Entry) (revision : Nat) :
    (⟨m.entries.insert key e, revision, m.grace⟩ : Memory).pruned since =
      (⟨(m.pruned since).entries.insert key e, revision, m.grace⟩ : Memory).pruned since := by
  simp only [pruned]
  rw [unspent_insert]

/-! ## Operations on a pruned store -/

/-- **A look-up** finds the same in a pruned store, and what it leaves there is pruned. -/
theorem find_pruned (hle : since.nanos ≤ now.nanos) (key : String) :
    (m.pruned since).find now key =
      ((m.find now key).1, (m.find now key).2.pruned since) := by
  have hkey : (m.pruned since).entries.get? key =
      (m.entries.get? key).filter fun e => !e.spent m.grace since :=
    get?_unspent m.grace since m.entries key
  cases hget : m.entries.get? key with
  | none => simp [find, hkey, hget]
  | some e =>
      have hstages : e.stage m.grace now = .live ∨ e.stage m.grace now = .tombstone ∨
          e.stage m.grace now = .gone := by
        cases e.stage m.grace now <;> simp
      cases hspent : e.spent m.grace since with
      | true =>
          -- The entry is gone now as it was then, so either store goes on without it.
          have hnow := Entry.spent_of_le hle hspent
          simp only [Entry.spent, Bool.and_eq_true, beq_iff_eq] at hnow
          have herase : (⟨m.entries.erase key, m.revision, m.grace⟩ : Memory).pruned since =
              m.pruned since := by
            simp only [pruned]
            rw [unspent_erase fun other hother => ?_]
            rw [hget] at hother
            obtain rfl := Option.some.inj hother
            exact hspent
          simp [find, hkey, hget, hspent, Option.filter_some, hnow.1, hnow.2, herase]
      | false =>
          have hkept : (m.pruned since).entries.get? key = some e := by
            simp [hkey, hget, hspent, Option.filter_some]
          cases hdatable : e.datable m.grace now with
          | false => simp [find, hkept, hget, hdatable]
          | true =>
              have herase : (⟨m.entries.erase key, m.revision, m.grace⟩ : Memory).pruned since =
                  ⟨(m.pruned since).entries.erase key, m.revision, m.grace⟩ := by
                simp only [pruned, unspent_erase_comm]
              rcases hstages with hstage | hstage | hstage <;>
                simp [find, hkept, hget, hdatable, hstage, herase]

theorem get_pruned (hle : since.nanos ≤ now.nanos) (key : String) :
    AlikeSince since (m.get now key) ((m.pruned since).get now key) := by
  unfold get
  rw [find_pruned hle]
  generalize m.find now key = looked
  obtain ⟨found, m'⟩ := looked
  rcases found with _ | ⟨e, _ | _ | _⟩ | _ <;> exact ⟨rfl, (pruned_pruned since m').symm⟩

theorem getAny_pruned (hle : since.nanos ≤ now.nanos) (key : String) :
    AlikeSince since (m.getAny now key) ((m.pruned since).getAny now key) := by
  unfold getAny
  rw [find_pruned hle]
  generalize m.find now key = looked
  obtain ⟨found, m'⟩ := looked
  rcases found with _ | ⟨e, stage⟩ | _ <;> exact ⟨rfl, (pruned_pruned since m').symm⟩

theorem contains_pruned (hle : since.nanos ≤ now.nanos) (key : String) :
    AlikeSince since (m.contains now key) ((m.pruned since).contains now key) := by
  unfold contains
  rw [find_pruned hle]
  generalize m.find now key = looked
  obtain ⟨found, m'⟩ := looked
  rcases found with _ | ⟨e, _ | _ | _⟩ | _ <;> exact ⟨rfl, (pruned_pruned since m').symm⟩

theorem delete_pruned (hle : since.nanos ≤ now.nanos) (key : String) :
    AlikeSince since (m.delete now key) ((m.pruned since).delete now key) := by
  unfold delete
  rw [find_pruned hle]
  generalize m.find now key = looked
  obtain ⟨found, m'⟩ := looked
  rcases found with _ | ⟨e, _ | _ | _⟩ | _
  case entry.live => exact ⟨rfl, pruned_insert since _ _ _ _⟩
  all_goals exact ⟨rfl, (pruned_pruned since m').symm⟩

theorem write_pruned (hle : since.nanos ≤ now.nanos) (key : String) (data : Bytes)
    (ttl : Option Span) (condition : Precondition) :
    AlikeSince since (m.write now key data ttl condition)
      ((m.pruned since).write now key data ttl condition) := by
  rw [write_eq, write_eq]
  split
  · exact ⟨rfl, (pruned_pruned since m).symm⟩
  · rw [find_pruned hle]
    generalize (m.find now key).1.live?.elim .undatable (condition.verdict now key ttl) = verdict
    generalize (m.find now key).2 = m'
    cases verdict with
    | refused e => exact ⟨rfl, (pruned_pruned since m').symm⟩
    | undatable => exact ⟨rfl, (pruned_pruned since m').symm⟩
    | answer expiry => exact ⟨rfl, pruned_insert since m' _ _ _⟩

/-! ## Scans and compactions of a pruned store -/

/-- A scan ends, or it is broken off and leaves the store as it was. -/
theorem list_ends_or_not (m : Memory) (now : Instant) (scope : String) :
    (∃ found m', m.list now scope = (.answer found, m')) ∨
      m.list now scope = (.undatable, m) := by
  unfold list
  simp only
  split
  · exact .inl ⟨_, _, rfl⟩
  · exact .inr rfl

theorem list_frame (m : Memory) (now : Instant) (scope : String) :
    (m.list now scope).2.revision = m.revision ∧ (m.list now scope).2.grace = m.grace := by
  have hsheds := Backend.sheds_list (.memory m) now scope
  exact ⟨hsheds.revision, hsheds.grace⟩

/-- What a scan leaves in a pruned store is what it leaves of the store, pruned. -/
theorem list_pruned (hle : since.nanos ≤ now.nanos) (scope : String) :
    AlikeSince since (m.list now scope) ((m.pruned since).list now scope) := by
  have hanswer : (m.list now scope).1 = ((m.pruned since).list now scope).1 :=
    (agree_pruned hle).list_answer_eq (Agree.of_rows now _) scope
  refine ⟨hanswer, ?_⟩
  obtain ⟨hrevision, hgrace⟩ := m.list_frame now scope
  obtain ⟨hrevision', hgrace'⟩ := (m.pruned since).list_frame now scope
  rcases m.list_ends_or_not now scope with ⟨found, m', hlist⟩ | hlist
  · rcases (m.pruned since).list_ends_or_not now scope with ⟨found', p', hlist'⟩ | hlist'
    · rw [hlist] at hrevision hgrace ⊢
      rw [hlist'] at hrevision' hgrace' ⊢
      refine pruned_ext (hrevision.trans hrevision'.symm) (hgrace.trans hgrace'.symm) fun key => ?_
      -- Both drop what is gone now, and one had dropped before what was gone then.
      rw [get?_list hlist, get?_list hlist', grace_pruned, hgrace]
      simp only [pruned, get?_unspent, Option.filter_filter]
      congr 1
      funext e
      cases e.spent m.grace since <;> simp
    · rw [hlist, hlist'] at hanswer
      cases hanswer
  · rcases (m.pruned since).list_ends_or_not now scope with ⟨found', p', hlist'⟩ | hlist'
    · rw [hlist, hlist'] at hanswer
      cases hanswer
    · rw [hlist, hlist']
      exact (pruned_pruned since m).symm

/-- A compaction drops what a scan of the whole store drops. -/
theorem compact_eq_list (m : Memory) (now : Instant) :
    (m.compact now).2 = (m.list now "").2 := by
  have hall : m.under "" = m.entries.toList := by
    rw [under_eq_filter]
    exact List.filter_eq_self.2 fun _ _ => rfl
  by_cases hdatable : (m.entries.toList.all fun x => x.2.datable m.grace now) = true
  · rcases m.list_ends_or_not now "" with ⟨found, m', hlist⟩ | hlist
    · have hentries : (m.entries.filter fun _ e => e.stage m.grace now != .gone) = m'.entries := by
        apply KeyMap.ext_get?
        intro key
        rw [get?_list hlist, KeyMap.get?_filter]
        rfl
      obtain ⟨hrevision, hgrace⟩ := m.list_frame now ""
      simp only [hlist, compact] at hrevision hgrace ⊢
      rw [if_pos hdatable, hentries, ← hrevision, ← hgrace]
    · simp [list, hall, hdatable] at hlist
  · simp only [compact, list, hall]
    rw [if_neg hdatable, if_neg hdatable]

/-! ## Operations and sequences of them -/

/-- **Every operation** at an instant or later is answered as if what was gone then had been dropped,
and what it leaves differs in such entries at most. -/
theorem alike_pruned (hle : since.nanos ≤ now.nanos) (op : StoreOp) :
    AlikeSince since (m.apply now op) ((m.pruned since).apply now op) := by
  cases op with
  | get key => exact get_pruned hle key
  | getAny key => exact getAny_pruned hle key
  | set key data => exact write_pruned hle key data none .any
  | setFor key data ttl => exact write_pruned hle key data (some ttl) .any
  | delete key => exact delete_pruned hle key
  | contains key => exact contains_pruned hle key
  | list scope => exact list_pruned hle scope
  | create key data => exact write_pruned hle key data none .absent
  | replace key data => exact write_pruned hle key data none .present

/-- A use gets the same reply from a pruned store. -/
theorem use_pruned {σ : Type} (hle : since.nanos ≤ now.nanos) (m : Memory) (u : StoreUse σ) :
    ∃ reply n n', (Backend.memory m).use now u = (reply, .memory n) ∧
      (Backend.memory (m.pruned since)).use now u = (reply, .memory n') ∧
      n.pruned since = n'.pruned since := by
  cases u with
  | ask op =>
      have halike := alike_pruned (m := m) hle op
      exact ⟨_, _, _, rfl, Prod.ext halike.answer.symm rfl, halike.pruned⟩
  | walk scope visitor start =>
      have halike := list_pruned (m := m) hle scope
      have hreply := congrArg (Outcome.map fun found => visitSnapshots visitor found start)
        halike.answer
      exact ⟨_, _, _, rfl, Prod.ext hreply.symm rfl, halike.pruned⟩

/-- **What a client gets back** from an instant on, in any order of the later instants, is what it
gets back from the store without what was gone at that instant. -/
theorem replies_pruned {σ : Type} {moves : List (Move σ)}
    (hsince : ∀ move ∈ moves, since.nanos ≤ move.now.nanos) (m : Memory) :
    (Backend.memory m).replies moves = (Backend.memory (m.pruned since)).replies moves := by
  induction moves generalizing m with
  | nil => rfl
  | cons move rest ih =>
      obtain ⟨hle, hrest⟩ := List.forall_mem_cons.1 hsince
      -- Stores that are pruned to the same store get the same replies from the rest.
      have hsame : ∀ n n' : Memory, n.pruned since = n'.pruned since →
          (Backend.memory n).replies rest = (Backend.memory n').replies rest := by
        intro n n' hpruned
        rw [ih hrest n, hpruned, ← ih hrest n']
      cases move with
      | use now u =>
          have hnow : since.nanos ≤ now.nanos := hle
          obtain ⟨reply, n, n', huse, huse', hpruned⟩ := use_pruned hnow m u
          simp only [Backend.replies, huse, huse', hsame n n' hpruned]
      | compact now =>
          have halike : AlikeSince since (m.list now "") ((m.pruned since).list now "") :=
            list_pruned hle ""
          change (Backend.memory (m.compact now).2).replies rest =
            (Backend.memory ((m.pruned since).compact now).2).replies rest
          rw [compact_eq_list, compact_eq_list]
          exact hsame _ _ halike.pruned

/-! ## Scans -/

variable {scope : String}

/-- **A scan drops nothing that counts.** -/
theorem pruned_list (m : Memory) (now : Instant) (scope : String) :
    (m.list now scope).2.pruned now = m.pruned now := by
  have hagree : Agree now (m.list now scope).2 ⟨m.entries, m.revision, m.grace⟩ :=
    (Agree.of_rows now ⟨m.entries, m.revision, m.grace⟩).list_memory scope
  simp only [pruned]
  rw [hagree.entries, hagree.revision, hagree.grace]

/-- A scan ends if the dates that it compares exist. -/
theorem list_answers_iff (m : Memory) (now : Instant) (scope : String) :
    (∃ found, (m.list now scope).1 = .answer found) ↔
      ∀ key e, m.entries.get? key = some e → Utf8.encode scope <+: Utf8.encode key →
        e.datable m.grace now = true := by
  have hall : ((m.under scope).all fun x => x.2.datable m.grace now) = true ↔
      ∀ key e, m.entries.get? key = some e → Utf8.encode scope <+: Utf8.encode key →
        e.datable m.grace now = true := by
    simp only [List.all_eq_true, Prod.forall, mem_under_iff, Utf8.encode_prefix_iff, and_imp]
  rw [← hall]
  simp only [list]
  split
  · next hdatable => exact ⟨fun _ => hdatable, fun _ => ⟨_, rfl⟩⟩
  · next hdatable =>
    refine ⟨?_, fun h => absurd h hdatable⟩
    rintro ⟨found, hfound⟩
    cases hfound

/-- What a scan is to show: the keys that are live or tombstones, as they are stored. -/
structure Scanned (m : Memory) (now : Instant) (scope : String) (found : List Snapshot) : Prop where
  /-- They are filtered from the whole store. -/
  filtered : found = (m.entries.toList.filter fun x =>
      (Utf8.encode scope).isPrefixOf (Utf8.encode x.1) && x.2.stage m.grace now != .gone).map
    fun x => x.2.snapshot x.1 (x.2.stage m.grace now)
  /-- There is one of each key, and they are in the order of the bytes. -/
  ascending : (found.map fun kv => Utf8.encode kv.key).Pairwise (· < ·)
  mem_iff : ∀ kv, kv ∈ found ↔ Utf8.encode scope <+: Utf8.encode kv.key ∧
    ∃ e, m.entries.get? kv.key = some e ∧
      ((e.stage m.grace now = .live ∧ kv = ⟨kv.key, e.data, e.version, e.expiresAt, false⟩) ∨
        (e.stage m.grace now = .tombstone ∧ kv = ⟨kv.key, e.data, e.version, e.expiresAt, true⟩))

/-- Texts begin with each other as their bytes do, also where it is computed. -/
private theorem isPrefixOf_encode (scope key : String) :
    (Utf8.encode scope).isPrefixOf (Utf8.encode key) = scope.toList.isPrefixOf key.toList := by
  rw [Bool.eq_iff_iff, List.isPrefixOf_iff_prefix, List.isPrefixOf_iff_prefix,
    Utf8.encode_prefix_iff]

/-- A snapshot shows an entry that is live or a tombstone. -/
private theorem shows_iff (e : Entry) (stage : Stage) (kv : Snapshot) :
    (stage ≠ .gone ∧ kv = e.snapshot kv.key stage) ↔
      (stage = .live ∧ kv = ⟨kv.key, e.data, e.version, e.expiresAt, false⟩) ∨
        (stage = .tombstone ∧ kv = ⟨kv.key, e.data, e.version, e.expiresAt, true⟩) := by
  have hlive : (Stage.live == Stage.tombstone) = false := rfl
  cases stage <;> simp [Entry.snapshot, hlive]

/-- **A scan that ends is a filter of the whole store.** -/
theorem scanned_of_list {m' : Memory} {found : List Snapshot}
    (h : m.list now scope = (.answer found, m')) : m.Scanned now scope found := by
  refine ⟨?_, ?_, fun kv => ?_⟩
  · simp only [list] at h
    split at h
    · cases h
      rw [under_eq_filter, List.filter_filter]
      congr 2
      funext x
      rw [isPrefixOf_encode, Bool.and_comm]
      rfl
    · cases h
  · have hlist : (Backend.memory m).apply now (.list scope) = (.answer found, .memory m') :=
      congrArg (fun r => (r.1, Backend.memory r.2)) h
    have hkeys := Backend.pairwise_list hlist
    rw [List.pairwise_map] at hkeys ⊢
    exact hkeys.imp fun hlt => (Utf8.encode_lt_iff _ _).2 hlt
  · rw [mem_list_iff h, Utf8.encode_prefix_iff]
    constructor
    · intro hkv
      obtain ⟨e, hget, hunder, hshown⟩ := hkv
      exact ⟨hunder, e, hget, (shows_iff e _ kv).1 hshown⟩
    · intro hkv
      obtain ⟨hunder, e, hget, hstaged⟩ := hkv
      exact ⟨e, hget, hunder, (shows_iff e _ kv).2 hstaged⟩

/-- **A scan in memory is a filter that nobody notices.** It ends exactly if for every key under its
scope the end of the grace has a date, if there is an end. Then it shows each of these keys that is
live or a tombstone, once, as it is stored and in the order of the bytes. Otherwise it is broken off
and leaves the store as it was. It drops nothing but what is gone, and whatever is asked of the store
from then on gets the reply that it would have got without the scan. -/
theorem scan_is_filter (m : Memory) (now : Instant) (scope : String) :
    ((∃ found, (m.list now scope).1 = .answer found) ↔
      ∀ key e, m.entries.get? key = some e → Utf8.encode scope <+: Utf8.encode key →
        e.datable m.grace now = true) ∧
    (∀ found, (m.list now scope).1 = .answer found → m.Scanned now scope found) ∧
    ((∀ found, (m.list now scope).1 ≠ .answer found) → m.list now scope = (.undatable, m)) ∧
    Backend.Sheds now (.memory m) (.memory (m.list now scope).2) ∧
    ∀ (σ : Type) (moves : List (Move σ)), (∀ move ∈ moves, now.nanos ≤ move.now.nanos) →
      (Backend.memory (m.list now scope).2).replies moves = (Backend.memory m).replies moves := by
  refine ⟨m.list_answers_iff now scope, ?_, ?_, Backend.sheds_list (.memory m) now scope, ?_⟩
  · intro found hfound
    exact scanned_of_list (Prod.ext hfound rfl : m.list now scope = (.answer found, _))
  · intro hnone
    rcases m.list_ends_or_not now scope with ⟨found, m', hlist⟩ | hlist
    · exact absurd (congrArg Prod.fst hlist) (hnone found)
    · exact hlist
  · intro σ moves hsince
    rw [replies_pruned hsince, pruned_list, ← replies_pruned hsince]

/-- A scan shows a live key and, after it, a tombstone whose key is written with two bytes for its
last character. It drops what is gone, and nobody notices, whether time goes on or back to the
scan. -/
theorem scan_of_three_stages :
    let at' := fun seconds : Nat => (⟨seconds * 1000000000, false⟩ : Instant)
    let m := [(at' 0, StoreOp.set "a/1" [1]), (at' 1, .delete "a/1"), (at' 2, .set "a/é" [2]),
        (at' 50, .delete "a/é"), (at' 51, .set "a/z" [3]), (at' 51, .set "b" [4])].foldl
      (fun m x => (m.apply x.1 x.2).2) (new defaultGrace)
    let r := m.list (at' 60) "a/"
    let later : List (Move Unit) := [.use (at' 62) (.ask (.getAny "a/1")), .compact (at' 90),
      .use (at' 60) (.ask (.create "a/1" [5]))]
    r.1 = .answer [⟨"a/z", [3], 5, none, false⟩, ⟨"a/é", [2], 4, none, true⟩] ∧ r.2 ≠ m ∧
      (Backend.memory r.2).replies later = (Backend.memory m).replies later := by
  intro at' m r later
  obtain ⟨hends, hshows, -, -, hunnoticed⟩ := scan_is_filter m (at' 60) "a/"
  have hall : (m.entries.toList.all fun x => x.2.datable m.grace (at' 60)) = true := by
    decide +kernel
  obtain ⟨found, hfound⟩ := hends.2 fun key e hget _ =>
    List.all_eq_true.1 hall (key, e) ((KeyMap.mem_toList_iff m.entries key e).2 hget)
  refine ⟨?_, by decide +kernel, hunnoticed Unit later ?_⟩
  · rw [hfound, (hshows found hfound).filtered]
    exact congrArg Outcome.answer (by decide +kernel)
  · simp [later, at', Move.now]

/-- The grace of a tombstone ends beyond the last date, so a scan does not show it. -/
theorem scan_aborted_beyond_calendar :
    let now : Instant := ⟨1735689600000000000, false⟩
    let m := [StoreOp.set "a" [49], .delete "a"].foldl (fun m op => (m.apply now op).2)
      (new (Span.ofMillis 9000000000000000))
    (∃ e, m.entries.get? "a" = some e ∧ e.stage m.grace now = .tombstone) ∧
      ∀ found, (m.list now "").1 ≠ .answer found := by
  intro now m
  have hentry : m.entries.get? "a" = some ⟨[49], 2, none, some now⟩ := by decide +kernel
  have hdatable : ¬ (⟨[49], 2, none, some now⟩ : Entry).datable m.grace now = true := by
    decide +kernel
  refine ⟨⟨_, hentry, by decide +kernel⟩, fun found hfound => hdatable ?_⟩
  exact (m.list_answers_iff now "").1 ⟨found, hfound⟩ "a" _ hentry List.nil_prefix

end Memory

end FleetControl
