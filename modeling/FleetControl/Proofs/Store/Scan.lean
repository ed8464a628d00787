import FleetControl.Proofs.Store.Memory
import Mathlib.Data.List.TakeWhile

/-!
# Scans of the store in memory

Keys are in ascending order and those under a scope stand together, so a scan from the scope on, as
far as keys are under it, misses none of them. A scan shows every entry under the scope that is not
gone, and drops those that are.

* `Memory.mem_under_iff` — the entries that a scan comes across;
* `Memory.mem_list_iff`, `Memory.get?_list` — what it shows and what it leaves.
-/

namespace FleetControl

/-! ## The keys under a scope -/

/-- What is under a scope does not come before it. -/
private theorem not_lt_of_isPrefix {s k : List Char} (h : s <+: k) : ¬ k < s := by
  obtain ⟨rest, rfl⟩ := h
  induction s with
  | nil => exact List.not_lt_nil _
  | cons c s ih =>
      rw [List.cons_append, List.cons_lt_cons_iff]
      rintro (hlt | ⟨-, hlt⟩)
      · exact absurd hlt (Char.lt_irrefl c)
      · exact ih hlt

/-- What comes neither before a scope nor after something under it is under it. -/
private theorem isPrefix_of_between {s x k : List Char} (h : s <+: k) (hs : ¬ x < s)
    (hk : x < k) : s <+: x := by
  induction s generalizing x k with
  | nil => exact List.nil_prefix
  | cons c s ih =>
      obtain ⟨rest, rfl⟩ := h
      cases x with
      | nil => exact absurd (List.nil_lt_cons c s) hs
      | cons d x =>
          rw [List.cons_lt_cons_iff, not_or, not_and] at hs
          rw [List.cons_append, List.cons_lt_cons_iff] at hk
          rcases hk with hlt | ⟨rfl, hlt⟩
          · exact absurd hlt hs.1
          · exact List.prefix_cons_inj d |>.2 (ih (List.prefix_append s rest) (hs.2 rfl) hlt)

namespace Memory

/-- From the scope on, entries are under it as long as there are such entries at all. -/
private theorem mem_takeWhile_iff (scope key : String) (e : Entry) {l : List (String × Entry)}
    (hl : l.Pairwise fun x y => x.1 < y.1) (hfrom : ∀ x ∈ l, ¬ x.1 < scope) :
    (key, e) ∈ l.takeWhile (fun x => scope.toList.isPrefixOf x.1.toList) ↔
      (key, e) ∈ l ∧ scope.toList <+: key.toList := by
  induction l with
  | nil => simp
  | cons x rest ih =>
      obtain ⟨hfirst, hrest⟩ := List.pairwise_cons.1 hl
      have hih := ih hrest fun y hy => hfrom y (by simp [hy])
      rw [List.takeWhile_cons]
      split
      · next hunder =>
        rw [List.mem_cons, hih, List.mem_cons]
        constructor
        · rintro (rfl | ⟨hmem, hpre⟩)
          · exact ⟨.inl rfl, by simpa using hunder⟩
          · exact ⟨.inr hmem, hpre⟩
        · rintro ⟨rfl | hmem, hpre⟩
          · exact .inl rfl
          · exact .inr ⟨hmem, hpre⟩
      · next hunder =>
        simp only [List.not_mem_nil, false_iff, not_and]
        intro hmem hpre
        apply hunder
        rw [List.isPrefixOf_iff_prefix]
        rcases List.mem_cons.1 hmem with rfl | hmem
        · exact hpre
        · exact isPrefix_of_between hpre (hfrom x (by simp)) (hfirst _ hmem)

/-- **A scan comes across the entries under its scope** and no others. -/
theorem mem_under_iff (m : Memory) (scope key : String) (e : Entry) :
    (key, e) ∈ m.under scope ↔
      m.entries.get? key = some e ∧ scope.toList <+: key.toList := by
  unfold under
  rw [← KeyMap.mem_toList_iff]
  have hsorted : m.entries.toList.Pairwise fun x y => x.1 < y.1 := m.entries.ascending
  generalize m.entries.toList = l at hsorted
  induction l with
  | nil => simp
  | cons x rest ih =>
      obtain ⟨hfirst, hrest⟩ := List.pairwise_cons.1 hsorted
      rw [List.dropWhile_cons]
      split
      · next hbefore =>
        have hbefore : x.1 < scope := by simpa using hbefore
        refine (ih hrest).trans ?_
        rw [List.mem_cons]
        constructor
        · rintro ⟨hmem, hpre⟩
          exact ⟨.inr hmem, hpre⟩
        · rintro ⟨rfl | hmem, hpre⟩
          · exact absurd hbefore (not_lt_of_isPrefix hpre)
          · exact ⟨hmem, hpre⟩
      · next hfrom =>
        have hfrom : ¬ x.1 < scope := by simpa using hfrom
        apply mem_takeWhile_iff scope key e hsorted
        intro y hy
        rcases List.mem_cons.1 hy with rfl | hy
        · exact hfrom
        · exact fun hlt => hfrom (String.lt_trans (hfirst y hy) hlt)

/-- What a scan comes across is what is under its scope, in the order of the keys. -/
theorem under_eq_filter (m : Memory) (scope : String) :
    m.under scope = m.entries.toList.filter fun x => scope.toList.isPrefixOf x.1.toList := by
  have hunder : Ascending (m.under scope) :=
    m.entries.ascending.sublist
      ((List.takeWhile_sublist _).trans (List.dropWhile_sublist _))
  refine KeyMap.entries_eq_of_mem hunder (m.entries.ascending.filter _) fun key e => ?_
  rw [mem_under_iff, List.mem_filter, KeyMap.mem_toList_iff, List.isPrefixOf_iff_prefix]

/-! ## What a scan shows and leaves -/

/-- A key that was dropped is not there. -/
private theorem get?_foldl_erase (names : List String) (m : KeyMap Entry) (k : String) :
    (names.foldl KeyMap.erase m).get? k = if k ∈ names then none else m.get? k := by
  induction names generalizing m with
  | nil => simp
  | cons name rest ih =>
      rw [List.foldl_cons, ih, KeyMap.get?_erase]
      by_cases hk : k = name <;> by_cases hmem : k ∈ rest <;> simp [hk, hmem]

variable {m m' : Memory} {now : Instant} {scope : String} {found : List Snapshot}

/-- The shape of a scan that ends. -/
private theorem list_shape (h : m.list now scope = (.answer found, m')) :
    found = ((m.under scope).filter fun x => !(x.2.stage m.grace now == .gone)).map
        (fun x => x.2.snapshot x.1 (x.2.stage m.grace now)) ∧
      m' = { m with
        entries := (((m.under scope).filter fun x => x.2.stage m.grace now == .gone).map
          (·.1)).foldl KeyMap.erase m.entries } := by
  simp only [list] at h
  split at h
  · cases h
    exact ⟨rfl, rfl⟩
  · cases h

/-- **A scan shows what is under its scope and not gone.** -/
theorem mem_list_iff (h : m.list now scope = (.answer found, m')) (kv : Snapshot) :
    kv ∈ found ↔ ∃ e, m.entries.get? kv.key = some e ∧ scope.toList <+: kv.key.toList ∧
      e.stage m.grace now ≠ .gone ∧ kv = e.snapshot kv.key (e.stage m.grace now) := by
  rw [(list_shape h).1, List.mem_map]
  constructor
  · rintro ⟨⟨key, e⟩, hmem, rfl⟩
    obtain ⟨hunder, hkept⟩ := List.mem_filter.1 hmem
    obtain ⟨hget, hpre⟩ := (mem_under_iff m scope key e).1 hunder
    exact ⟨e, hget, hpre, by simpa using hkept, rfl⟩
  · rintro ⟨e, hget, hpre, hkept, hkv⟩
    refine ⟨(kv.key, e), List.mem_filter.2 ⟨(mem_under_iff m scope _ e).2 ⟨hget, hpre⟩, ?_⟩, hkv.symm⟩
    simpa using hkept

/-- **A scan leaves everything but what is gone.** -/
theorem get?_list (h : m.list now scope = (.answer found, m')) (key : String) :
    m'.entries.get? key = (m.entries.get? key).filter fun e =>
      !(scope.toList.isPrefixOf key.toList && e.stage m.grace now == .gone) := by
  obtain ⟨-, rfl⟩ := list_shape h
  rw [get?_foldl_erase]
  have hmem : key ∈ ((m.under scope).filter fun x => x.2.stage m.grace now == .gone).map (·.1) ↔
      ∃ e, m.entries.get? key = some e ∧ scope.toList <+: key.toList ∧
        e.stage m.grace now = .gone := by
    rw [List.mem_map]
    constructor
    · rintro ⟨⟨k, e⟩, hx, rfl⟩
      obtain ⟨hunder, hgone⟩ := List.mem_filter.1 hx
      obtain ⟨hget, hpre⟩ := (mem_under_iff m scope k e).1 hunder
      exact ⟨e, hget, hpre, by simpa using hgone⟩
    · rintro ⟨e, hget, hpre, hgone⟩
      exact ⟨(key, e), List.mem_filter.2 ⟨(mem_under_iff m scope key e).2 ⟨hget, hpre⟩,
        by simpa using hgone⟩, rfl⟩
  cases hget : m.entries.get? key with
  | none => simp
  | some e =>
      by_cases hgone : scope.toList <+: key.toList ∧ e.stage m.grace now = .gone
      · rw [if_pos (hmem.2 ⟨e, hget, hgone⟩)]
        simp [Option.filter_some, hgone.1, hgone.2, List.isPrefixOf_iff_prefix]
      · rw [if_neg fun hin => ?_]
        · simpa [Option.filter_some] using hgone
        · obtain ⟨e', hget', hrest⟩ := hmem.1 hin
          rw [hget] at hget'
          obtain rfl := Option.some.inj hget'
          exact hgone hrest

theorem timelessAt_list (h : m.list now scope = (.answer found, m')) {key : String}
    (htimeless : m.TimelessAt key) : m'.TimelessAt key := by
  intro e he
  rw [get?_list h] at he
  exact htimeless e (Option.filter_eq_some_iff.1 he).1

/-- A scan drops nothing that is live. -/
theorem live?_list (h : m.list now scope = (.answer found, m')) {key : String}
    (htimeless : m.TimelessAt key) (t : Instant) : m'.live? t key = m.live? t key := by
  apply Option.ext
  intro e
  rw [(timelessAt_list h htimeless).live?_eq_some_iff, htimeless.live?_eq_some_iff, get?_list h,
    Option.filter_eq_some_iff]
  constructor
  · rintro ⟨⟨hget, -⟩, hlasting⟩
    exact ⟨hget, hlasting⟩
  · rintro ⟨hget, hlasting⟩
    exact ⟨⟨hget, by simp [hlasting.stage]⟩, hlasting⟩

end Memory

end FleetControl
