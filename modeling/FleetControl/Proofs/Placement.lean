import Mathlib.Algebra.Order.BigOperators.Group.Finset
import Mathlib.Data.List.Perm.Subperm
import FleetControl.Placement
import FleetControl.Proofs.KeyMap

/-!
# Who is chosen, and how often

A policy deals agents out in turn: a call finds the number of pipelines that were placed before it,
and takes the agent at that place in the list of those it may choose from. With labels that list
differs from selector to selector, but there is only one count of turns. So the calls with one
selector need not find successive turns, and then they do not take its agents in turn: between two of
them others may have taken the turns that would have gone to an agent of theirs.

* `Balanced`, `balanced_prefixes_iff` — numbers dealt out evenly: every round has each of them once;
* `Placement.picks` — what successive calls choose;
* `Placement.Fair` — the agents of a selector are chosen equally often at any time, but for one;
* `Placement.label_shares` — who is chosen, and when that is fair;
* `Placement.one_agent_for_all` — calls with two selectors, where the one takes the turns of the other.
-/

namespace FleetControl

/-! ## Dealing out evenly -/

section Even

variable {k : Nat} {l : List Nat}

/-- No number below `k` was dealt out twice more often than another. -/
def Balanced (k : Nat) (l : List Nat) : Prop := ∀ c < k, ∀ d < k, l.count c ≤ l.count d + 1

/-- How often each number was dealt out adds up to all that was dealt out. -/
theorem sum_count_eq_length (hbelow : ∀ r ∈ l, r < k) :
    ∑ c ∈ Finset.range k, l.count c = l.length := by
  have hsum := Multiset.sum_count_eq_card (s := Finset.range k) (m := (l : Multiset Nat))
    fun r hr => Finset.mem_range.2 (hbelow r hr)
  simpa using hsum

/-- After full rounds that were balanced each number was dealt out once a round. -/
theorem Balanced.count_eq (h : Balanced k l) (hbelow : ∀ r ∈ l, r < k) {i : Nat}
    (hrounds : l.length = i * k) {c : Nat} (hc : c < k) : l.count c = i := by
  have hsum := sum_count_eq_length hbelow
  have hconst : ∑ _c ∈ Finset.range k, i = i * k := by simp [Nat.mul_comm]
  have hmem := Finset.mem_range.2 hc
  rcases Nat.lt_trichotomy (l.count c) i with hless | heq | hmore
  · -- Nobody has more than one more than `c`.
    have hlt : ∑ d ∈ Finset.range k, l.count d < ∑ _d ∈ Finset.range k, i :=
      Finset.sum_lt_sum (fun d hd => (h d (Finset.mem_range.1 hd) c hc).trans hless)
        ⟨c, hmem, hless⟩
    omega
  · exact heq
  · -- Nobody has more than one less than `c`.
    have hlt : ∑ _d ∈ Finset.range k, i < ∑ d ∈ Finset.range k, l.count d := by
      refine Finset.sum_lt_sum (fun d hd => ?_) ⟨c, hmem, hmore⟩
      have hd := h c hc d (Finset.mem_range.1 hd)
      omega
    omega

/-- A full round without repetition has each number once. -/
theorem count_eq_one_of_nodup (hnodup : l.Nodup) (hbelow : ∀ r ∈ l, r < k) (hfull : l.length = k)
    {c : Nat} (hc : c < k) : l.count c = 1 := by
  have hperm : l.Perm (List.range k) :=
    (hnodup.subperm fun r hr => List.mem_range.2 (hbelow r hr)).perm_of_length_le (by simp [hfull])
  exact List.count_eq_one_of_mem hnodup (hperm.mem_iff.2 (List.mem_range.2 hc))

/-- After full rounds without repetitions each number was dealt out once a round. -/
theorem count_take_eq (hbelow : ∀ r ∈ l, r < k)
    (hrounds : ∀ i, ((l.drop (i * k)).take k).Nodup) {c : Nat} (hc : c < k) (i : Nat)
    (hlength : i * k ≤ l.length) : (l.take (i * k)).count c = i := by
  induction i with
  | zero => simp
  | succ i ih =>
      rw [Nat.succ_mul] at hlength ⊢
      have hone : ((l.drop (i * k)).take k).count c = 1 := by
        refine count_eq_one_of_nodup (hrounds i) (fun r hr => ?_) ?_ hc
        · exact hbelow r (List.mem_of_mem_drop (List.mem_of_mem_take hr))
        · rw [List.length_take, List.length_drop]
          omega
      rw [List.take_add, List.count_append, ih (by omega), hone]

/-- If numbers are dealt out evenly at any time, no round has one of them twice. -/
theorem nodup_of_balanced (hbelow : ∀ r ∈ l, r < k)
    (hbalanced : ∀ earlier, earlier <+: l → Balanced k earlier) (i : Nat) :
    ((l.drop (i * k)).take k).Nodup := by
  rcases Nat.lt_or_ge l.length (i * k) with hover | hlength
  · simp [List.drop_eq_nil_of_le hover.le]
  have hround : ∀ r ∈ (l.drop (i * k)).take k, r < k := fun r hr =>
    hbelow r (List.mem_of_mem_drop (List.mem_of_mem_take hr))
  have hearlier : ∀ c < k, (l.take (i * k)).count c = i := fun c hc =>
    (hbalanced _ (List.take_prefix _ _)).count_eq (fun r hr => hbelow r (List.mem_of_mem_take hr))
      (by simpa using hlength) hc
  rw [List.nodup_iff_count_le_one]
  intro c
  by_contra hmany
  have hc : c < k := hround c (List.count_pos_iff.1 (by omega))
  -- If one number came twice in the round all came, so the round has too many numbers.
  have hall : ∀ d < k, 1 ≤ ((l.drop (i * k)).take k).count d := by
    intro d hd
    have hle := hbalanced _ (List.take_prefix (i * k + k) l) c hc d hd
    rw [List.take_add, List.count_append, List.count_append, hearlier c hc, hearlier d hd] at hle
    omega
  have hlt : ∑ _d ∈ Finset.range k, 1 < ∑ d ∈ Finset.range k, ((l.drop (i * k)).take k).count d :=
    Finset.sum_lt_sum (fun d hd => hall d (Finset.mem_range.1 hd))
      ⟨c, Finset.mem_range.2 hc, by omega⟩
  have hconst : ∑ _d ∈ Finset.range k, 1 = k := by simp
  have hle := List.length_take_le k (l.drop (i * k))
  rw [sum_count_eq_length hround] at hlt
  omega

/-- If no round has a number twice, numbers are dealt out evenly at any time. -/
theorem balanced_of_nodup (hbelow : ∀ r ∈ l, r < k)
    (hrounds : ∀ i, ((l.drop (i * k)).take k).Nodup) {m : Nat} (hlength : m ≤ l.length) :
    Balanced k (l.take m) := by
  intro c hc d hd
  -- Full rounds, and the beginning of one more.
  have hsplit : m = m / k * k + m % k := by rw [Nat.mul_comm, Nat.div_add_mod]
  have hrest : ((l.drop (m / k * k)).take (m % k)).Nodup :=
    (hrounds (m / k)).sublist (List.take_prefix_take_left (Nat.mod_lt m (by omega)).le).sublist
  have hcount : ∀ e < k, (l.take m).count e =
      m / k + ((l.drop (m / k * k)).take (m % k)).count e := by
    intro e he
    conv_lhs => rw [hsplit, List.take_add, List.count_append]
    rw [count_take_eq hbelow hrounds he _ (by omega)]
  have hle := List.nodup_iff_count_le_one.1 hrest c
  rw [hcount c hc, hcount d hd]
  omega

/-- **Numbers are dealt out evenly at any time** exactly if no round has one of them twice. -/
theorem balanced_prefixes_iff (hbelow : ∀ r ∈ l, r < k) :
    (∀ earlier, earlier <+: l → Balanced k earlier) ↔ ∀ i, ((l.drop (i * k)).take k).Nodup := by
  refine ⟨nodup_of_balanced hbelow, fun hrounds earlier hearlier => ?_⟩
  rw [List.prefix_iff_eq_take.1 hearlier]
  exact balanced_of_nodup hbelow hrounds hearlier.length_le

end Even

/-! ## Labels -/

/-- The agent has every label of a selector, with the value that is asked for. -/
def AgentInfo.Bears (a : AgentInfo) (selector : KeyMap String) : Prop :=
  ∀ label value, selector.get? label = some value → a.labels.get? label = some value

theorem AgentInfo.carries_iff (a : AgentInfo) (selector : KeyMap String) :
    a.carries selector = true ↔ a.Bears selector := by
  simp only [carries, Bears, List.all_eq_true, Prod.forall, KeyMap.mem_toList_iff, beq_iff_eq]

/-- The candidates that carry every label of a selector. -/
def carriers (candidates : List AgentInfo) (selector : KeyMap String) : List AgentInfo :=
  candidates.filter fun a => a.carries selector

theorem mem_carriers_iff {candidates : List AgentInfo} {selector : KeyMap String} {a : AgentInfo} :
    a ∈ carriers candidates selector ↔ a ∈ candidates ∧ a.Bears selector := by
  rw [carriers, List.mem_filter, AgentInfo.carries_iff]

namespace Placement

/-- A call of a policy: what for, how many pipelines were placed before it, and whom it chose. -/
structure Pick where
  spec : PipelineSpec
  turn : Nat
  choice : Option String

/-- Successive calls for pipelines, with the same candidates. -/
def picks (candidates : List AgentInfo) : Placement → List PipelineSpec → List Pick
  | _, [] => []
  | p, spec :: rest =>
    ⟨spec, p.placed, (p.place spec candidates).1⟩ :: picks candidates (p.place spec candidates).2 rest

variable {candidates : List AgentInfo} {p : Placement}

theorem place_label (hkind : p.kind = .label) (spec : PipelineSpec) :
    p.place spec candidates =
      let choice := carriers candidates spec.selector
      ((choice[p.placed % choice.length]?).map (·.name),
        if choice.isEmpty then p else { p with placed := (p.placed + 1) % Word.count64 }) := by
  simp only [place, eligible, hkind, carriers]
  split
  · next hnobody => simp [List.isEmpty_iff.1 hnobody]
  · rfl

theorem kind_place (spec : PipelineSpec) : (p.place spec candidates).2.kind = p.kind := by
  simp only [place]
  split <;> rfl

/-- A call that finds an agent takes a turn. -/
theorem placed_place (spec : PipelineSpec) : (p.place spec candidates).2.placed =
    if (p.place spec candidates).1.isSome then (p.placed + 1) % Word.count64 else p.placed := by
  simp only [place]
  split
  · rfl
  · next hsome =>
    have hpositive : 0 < (p.eligible spec candidates).length :=
      List.length_pos_iff.2 fun hnone => hsome (List.isEmpty_iff.2 hnone)
    simp [List.getElem?_eq_getElem (Nat.mod_lt p.placed hpositive)]

/-- **The turn of a call** is the number of pipelines that were placed before it. -/
theorem turn_eq (hword : p.placed < Word.count64) {specs : List PipelineSpec}
    {earlier later : List Pick} {pick : Pick}
    (hpicks : picks candidates p specs = earlier ++ pick :: later) :
    pick.turn = (p.placed + earlier.countP fun q => q.choice.isSome) % Word.count64 := by
  induction specs generalizing p earlier with
  | nil => cases earlier <;> cases hpicks
  | cons spec rest ih =>
      cases earlier with
      | nil =>
          obtain ⟨rfl, -⟩ := List.cons.inj hpicks
          exact (Nat.mod_eq_of_lt hword).symm
      | cons first earlier =>
          obtain ⟨rfl, hrest⟩ := List.cons.inj hpicks
          have hnext : (p.place spec candidates).2.placed = _ := placed_place spec
          have hword' : (p.place spec candidates).2.placed < Word.count64 := by
            rw [hnext]
            split
            · exact Nat.mod_lt _ (by decide)
            · exact hword
          rw [ih hword' hrest, hnext, List.countP_cons]
          split
          · rw [Nat.mod_add_mod, Nat.add_assoc, Nat.add_comm 1]
          · rfl

/-- A call chose the agent at the place of its turn, counted around the list of those that carry its
selector; nobody if there are none. -/
def Pick.InTurn (candidates : List AgentInfo) (pick : Pick) : Prop :=
  let choice := carriers candidates pick.spec.selector
  pick.choice = (choice[pick.turn % choice.length]?).map (·.name)

/-- **Every call chooses in turn.** -/
theorem inTurn_of_mem_picks (hkind : p.kind = .label) (specs : List PipelineSpec) :
    ∀ pick ∈ picks candidates p specs, pick.InTurn candidates := by
  induction specs generalizing p with
  | nil => exact fun pick hpick => absurd hpick List.not_mem_nil
  | cons spec rest ih =>
      intro pick hpick
      rcases List.mem_cons.1 hpick with rfl | hlater
      · simp only [Pick.InTurn, place_label hkind]
      · exact ih ((kind_place spec).trans hkind) pick hlater

namespace Pick.InTurn

variable {pick : Pick} (h : pick.InTurn candidates)
include h

theorem isSome_iff :
    pick.choice.isSome = true ↔ ∃ a ∈ candidates, a.Bears pick.spec.selector := by
  rw [h, Option.isSome_map, isSome_getElem?]
  constructor
  · intro hturn
    obtain ⟨a, ha⟩ := List.exists_mem_of_length_pos (Nat.zero_lt_of_lt hturn)
    exact ⟨a, mem_carriers_iff.1 ha⟩
  · rintro ⟨a, ha⟩
    exact Nat.mod_lt _ (List.length_pos_of_mem (mem_carriers_iff.2 ha))

theorem bears {name : String} (hname : pick.choice = some name) :
    ∃ a ∈ candidates, a.name = name ∧ a.Bears pick.spec.selector := by
  rw [h] at hname
  obtain ⟨a, ha, rfl⟩ := Option.map_eq_some_iff.1 hname
  obtain ⟨hmem, hbears⟩ := mem_carriers_iff.1 (List.mem_of_getElem? ha)
  exact ⟨a, hmem, rfl, hbears⟩

end Pick.InTurn

/-! ## Shares -/

/-- The turns that the calls with a selector found, in their order. -/
def turns (selector : KeyMap String) (all : List Pick) : List Nat :=
  (all.filter fun pick => pick.spec.selector = selector).map (·.turn)

/-- How often an agent was chosen by the calls with a selector. -/
def times (selector : KeyMap String) (agent : String) (all : List Pick) : Nat :=
  all.countP fun pick => pick.spec.selector = selector ∧ pick.choice = some agent

/-- At any time every two agents that carry a selector were chosen equally often by the calls with it,
but for one. -/
def Fair (candidates : List AgentInfo) (selector : KeyMap String) (all : List Pick) : Prop :=
  ∀ earlier, earlier <+: all → ∀ a ∈ carriers candidates selector,
    ∀ b ∈ carriers candidates selector,
      times selector a.name earlier ≤ times selector b.name earlier + 1

variable {selector : KeyMap String} {all : List Pick}

/-- The turns found up to some time. -/
theorem prefix_turns_iff {l : List Nat} :
    l <+: turns selector all ↔ ∃ earlier, earlier <+: all ∧ l = turns selector earlier := by
  simp only [turns, List.prefix_map_iff, List.prefix_filter_iff]
  constructor
  · rintro ⟨_, ⟨earlier, hearlier, rfl⟩, rfl⟩
    exact ⟨earlier, hearlier, rfl⟩
  · rintro ⟨earlier, hearlier, rfl⟩
    exact ⟨_, ⟨earlier, hearlier, rfl⟩, rfl⟩

/-- Agents with different names are told apart by their places. -/
theorem name_getElem_iff {l : List AgentInfo} (hnames : (l.map (·.name)).Nodup) {i j : Nat}
    (hi : i < l.length) (hj : j < l.length) : l[i].name = l[j].name ↔ i = j := by
  have hi' : i < (l.map (·.name)).length := by rwa [List.length_map]
  have hj' : j < (l.map (·.name)).length := by rwa [List.length_map]
  have hplaces : (l.map (·.name))[i] = (l.map (·.name))[j] ↔ i = j := hnames.getElem_inj_iff
  rwa [List.getElem_map, List.getElem_map] at hplaces

/-- An agent is chosen as often as its place in the list comes up. -/
theorem times_eq_count (hnames : (candidates.map (·.name)).Nodup)
    (hchoice : ∀ pick ∈ all, pick.InTurn candidates) {c : Nat}
    (hc : c < (carriers candidates selector).length) :
    times selector (carriers candidates selector)[c].name all =
      ((turns selector all).map (· % (carriers candidates selector).length)).count c := by
  have hdistinct : ((carriers candidates selector).map (·.name)).Nodup :=
    hnames.sublist (List.filter_sublist.map _)
  simp only [times, turns, List.count, List.map_map, List.countP_map, List.countP_filter]
  refine List.countP_congr fun pick hpick => ?_
  have hpicked := hchoice pick hpick
  simp only [Pick.InTurn] at hpicked
  simp only [Function.comp, Bool.and_eq_true, decide_eq_true_eq, beq_iff_eq]
  rw [and_comm]
  refine and_congr_left ?_
  rintro rfl
  generalize carriers candidates pick.spec.selector = choice at hc hdistinct hpicked ⊢
  have hturn : pick.turn % choice.length < choice.length := Nat.mod_lt _ (by omega)
  rw [List.getElem?_eq_getElem hturn, Option.map_some] at hpicked
  rw [hpicked, Option.some.injEq, name_getElem_iff hdistinct hturn hc]

/-- **A selector is served fairly** exactly if no round of its calls takes an agent twice. -/
theorem fair_iff (hnames : (candidates.map (·.name)).Nodup)
    (hchoice : ∀ pick ∈ all, pick.InTurn candidates) :
    let k := (carriers candidates selector).length
    Fair candidates selector all ↔
      ∀ i, ((((turns selector all).drop (i * k)).take k).map (· % k)).Nodup := by
  intro k
  rcases Nat.eq_zero_or_pos k with hnobody | hk
  · have hnone : carriers candidates selector = [] := List.eq_nil_of_length_eq_zero hnobody
    simp [Fair, hnone, hnobody]
  have hbelow : ∀ r ∈ (turns selector all).map (· % k), r < k := by
    intro r hr
    obtain ⟨turn, -, rfl⟩ := List.mem_map.1 hr
    exact Nat.mod_lt _ hk
  have hcount : ∀ earlier, earlier <+: all → ∀ c (hc : c < k),
      times selector (carriers candidates selector)[c].name earlier =
        ((turns selector earlier).map (· % k)).count c := fun earlier hearlier c hc =>
    times_eq_count hnames (fun pick hpick => hchoice pick (hearlier.subset hpick)) hc
  simp only [List.map_take, List.map_drop]
  rw [← balanced_prefixes_iff hbelow]
  constructor
  · intro hfair l hl c hc d hd
    obtain ⟨_, hturns, rfl⟩ := List.prefix_map_iff.1 hl
    obtain ⟨earlier, hearlier, rfl⟩ := prefix_turns_iff.1 hturns
    have hle := hfair earlier hearlier _ (List.getElem_mem hc) _ (List.getElem_mem hd)
    rwa [hcount earlier hearlier c hc, hcount earlier hearlier d hd] at hle
  · intro hbalanced earlier hearlier a ha b hb
    obtain ⟨c, hc, rfl⟩ := List.mem_iff_getElem.1 ha
    obtain ⟨d, hd, rfl⟩ := List.mem_iff_getElem.1 hb
    rw [hcount earlier hearlier c hc, hcount earlier hearlier d hd]
    exact hbalanced _ (List.prefix_map_iff.2 ⟨_, prefix_turns_iff.2 ⟨earlier, hearlier, rfl⟩, rfl⟩)
      c hc d hd

/-! ## Selectors on their own -/

/-- A policy that is asked for one selector only, as far as it finds anybody, finds one turn after the
other. -/
theorem turns_alone (hkind : p.kind = .label) (hsome : carriers candidates selector ≠ [])
    {specs : List PipelineSpec}
    (halone : ∀ spec ∈ specs, spec.selector = selector ∨ carriers candidates spec.selector = [])
    (hroom : p.placed + specs.length ≤ Word.count64) :
    ∃ n, turns selector (picks candidates p specs) = List.range' p.placed n := by
  induction specs generalizing p with
  | nil => exact ⟨0, rfl⟩
  | cons spec rest ih =>
      obtain ⟨hspec, hrest⟩ := List.forall_mem_cons.1 halone
      rw [List.length_cons] at hroom
      by_cases hselector : spec.selector = selector
      · have hturns : turns selector (picks candidates p (spec :: rest)) =
            p.placed :: turns selector (picks candidates (p.place spec candidates).2 rest) := by
          simp [turns, picks, hselector]
        have hnext : (p.place spec candidates).2.placed = (p.placed + 1) % Word.count64 := by
          simp [place_label hkind, hselector, hsome]
        rw [hturns]
        cases rest with
        | nil => exact ⟨1, rfl⟩
        | cons spec' rest =>
            -- The counter does not wrap before the last call.
            rw [List.length_cons] at hroom
            rw [Nat.mod_eq_of_lt (by omega)] at hnext
            obtain ⟨n, hn⟩ := ih ((kind_place spec).trans hkind) hrest (by
              rw [hnext, List.length_cons]
              omega)
            exact ⟨n + 1, by rw [hn, hnext, List.range'_succ]⟩
      · have hnobody := hspec.resolve_left hselector
        have hsame : (p.place spec candidates).2 = p := by simp [place_label hkind, hnobody]
        obtain ⟨n, hn⟩ := ih hkind hrest (by omega)
        refine ⟨n, ?_⟩
        rw [← hn]
        simp [turns, picks, hselector, hsame]

/-- Successive turns do not take an agent twice in a round. -/
theorem nodup_successive (k start n i : Nat) :
    ((((List.range' start n).drop (i * k)).take k).map (· % k)).Nodup := by
  have hround : ∀ x ∈ ((List.range' start n).drop (i * k)).take k,
      start + i * k ≤ x ∧ x < start + i * k + k := by
    intro x hx
    obtain ⟨j, hj, rfl⟩ := List.mem_iff_getElem.1 hx
    have hlt := List.length_take_le k ((List.range' start n).drop (i * k))
    simp only [List.getElem_take, List.getElem_drop, List.getElem_range']
    omega
  have hnodup : (List.range' start n).Nodup := List.nodup_range'
  refine List.Nodup.map_on (fun x hx y hy hsame => ?_)
    (hnodup.sublist ((List.take_sublist _ _).trans (List.drop_sublist _ _)))
  have hx := hround x hx
  have hy := hround y hy
  have hless := Nat.sub_mod_eq_zero_of_mod_eq hsame
  have hmore := Nat.sub_mod_eq_zero_of_mod_eq hsame.symm
  rw [Nat.mod_eq_of_lt (by omega)] at hless hmore
  omega

/-! ## Who is chosen, and how often -/

/-- Every call is answered. -/
theorem spec_picks (specs : List PipelineSpec) :
    (picks candidates p specs).map (·.spec) = specs := by
  induction specs generalizing p with
  | nil => rfl
  | cons spec rest ih => rw [picks, List.map_cons, ih]

/-- **The shares of a policy with labels.** A call gets an agent exactly if one carries every label of
its selector, and the agent it gets carries them. The turn it takes is the number of pipelines that
were placed before, with whatever selector, modulo the word size. A selector is served fairly exactly
if no round of its calls, as many as agents carry it, has two turns that come to the same place in the
list of those agents. So it is where no other selector finds an agent and the count of turns does not
wrap; where calls with other selectors come between, their turns are missing. -/
theorem label_shares (hnames : (candidates.map (·.name)).Nodup) (hkind : p.kind = .label)
    (hword : p.placed < Word.count64) (specs : List PipelineSpec) :
    let all := picks candidates p specs
    all.map (·.spec) = specs ∧
      (∀ pick ∈ all,
        (pick.choice.isSome = true ↔ ∃ a ∈ candidates, a.Bears pick.spec.selector) ∧
          ∀ name, pick.choice = some name →
            ∃ a ∈ candidates, a.name = name ∧ a.Bears pick.spec.selector) ∧
      (∀ earlier pick later, all = earlier ++ pick :: later →
        pick.turn = (p.placed + earlier.countP fun q => q.choice.isSome) % Word.count64) ∧
      ∀ selector, let k := (carriers candidates selector).length
        (Fair candidates selector all ↔
          ∀ i, ((((turns selector all).drop (i * k)).take k).map (· % k)).Nodup) ∧
        ((∀ spec ∈ specs, spec.selector = selector ∨ carriers candidates spec.selector = []) →
          p.placed + specs.length ≤ Word.count64 → Fair candidates selector all) := by
  intro all
  have hinTurn : ∀ pick ∈ all, pick.InTurn candidates := inTurn_of_mem_picks hkind specs
  refine ⟨spec_picks specs, fun pick hpick => ⟨(hinTurn pick hpick).isSome_iff, ?_⟩, ?_,
    fun selector => ⟨fair_iff hnames hinTurn, fun halone hroom => ?_⟩⟩
  · exact fun name hname => (hinTurn pick hpick).bears hname
  · exact fun earlier pick later hpicks => turn_eq hword hpicks
  · refine (fair_iff hnames hinTurn).2 fun i => ?_
    by_cases hsome : carriers candidates selector = []
    · simp [hsome]
    · obtain ⟨n, hn⟩ := turns_alone hkind hsome halone hroom
      rw [hn]
      exact nodup_successive _ _ _ _

/-- Three agents, two of them in the zone of the pipelines; the third call comes around to the first of
the two. -/
theorem label_shares_alone :
    let zone (name : String) : KeyMap String := .ofList [("zone", name)]
    let candidates : List AgentInfo := [⟨"a", zone "eu"⟩, ⟨"b", zone "eu"⟩, ⟨"c", zone "us"⟩]
    let specs := List.replicate 3 { PipelineSpec.empty with selector := zone "eu" }
    let all := picks candidates (ofKind .label) specs
    (candidates.map (·.name)).Nodup ∧ (ofKind .label).kind = .label ∧
      (ofKind .label).placed < Word.count64 ∧
        all.map (·.choice) = [some "a", some "b", some "a"] ∧ Fair candidates (zone "eu") all := by
  intro zone candidates specs all
  have hnames : (candidates.map (·.name)).Nodup := by decide
  have hword : (ofKind .label).placed < Word.count64 := by decide
  obtain ⟨-, -, -, hshares⟩ := label_shares hnames rfl hword specs
  have halone : ∀ spec ∈ specs,
      spec.selector = zone "eu" ∨ carriers candidates spec.selector = [] := by
    intro spec hspec
    rw [(List.mem_replicate.1 hspec).2]
    exact .inl rfl
  exact ⟨hnames, rfl, hword, by decide, (hshares (zone "eu")).2 halone (by decide)⟩

/-- **A call with another selector in between**: the second agent of the zone is left out. -/
theorem one_agent_for_all :
    let zone (name : String) : KeyMap String := .ofList [("zone", name)]
    let candidates : List AgentInfo := [⟨"a", zone "eu"⟩, ⟨"b", zone "eu"⟩, ⟨"c", zone "us"⟩]
    let specs := ["eu", "us", "eu"].map fun name =>
      { PipelineSpec.empty with selector := zone name }
    let all := picks candidates (ofKind .label) specs
    all.map (·.choice) = [some "a", some "c", some "a"] ∧ ¬ Fair candidates (zone "eu") all := by
  intro zone candidates specs all
  refine ⟨by decide, fun hfair => ?_⟩
  have hle := hfair all List.prefix_rfl ⟨"a", zone "eu"⟩ (by decide) ⟨"b", zone "eu"⟩ (by decide)
  revert hle
  decide

end Placement

end FleetControl
