import FleetControl.Proofs.Workflow.Resolved
import FleetControl.Workflow.Validation
import Mathlib.Logic.Relation

/-!
# Cycles of triggers

The triggers are walked against their direction: a pipeline is marked when it is entered, everything
that it waits for is walked, and then it is marked as done. The marks are shared by all the walks of
one workflow. While the walk is below a pipeline, every pipeline that is being visited waits for
each name that is still to come at that depth, so meeting one of them again closes a cycle. A
pipeline that is done waits only for pipelines that are done, and it was not done when the last of
those was: it cannot wait for itself.

The walk enters a pipeline of the workflow only while it has no mark and marks it then, so it ends,
whatever the triggers are. A bound on its depth that exceeds the number of pipelines without a mark
is never met.

* `WorkflowSpec.Walk` — the walk without a bound on its depth, and what it comes to;
* `WorkflowSpec.walk_visit` — the bounded walk comes to the same;
* `WorkflowSpec.Walk.on_cycle` — the pipeline at which the walk fails lies on a cycle;
* `WorkflowSpec.Walk.settled` — pipelines that are done wait only for such, and none for itself;
* `WorkflowSpec.checkAcyclic_eq_ok_iff` — the check passes exactly when no pipeline waits for
  itself.
-/

namespace FleetControl

namespace WorkflowSpec

/-- A pipeline waits for another, directly or through others. -/
def Awaits (w : WorkflowSpec) : String → String → Prop := Relation.TransGen w.Waits

theorem mem_predecessorsOf (w : WorkflowSpec) (q p : String) :
    p ∈ w.predecessorsOf q ↔ w.Waits q p := by
  rw [waits_iff_mem_predecessors]
  unfold predecessorsOf
  cases w.pipelines.get? q with
  | none => simp
  | some d => simp

/-- Only a pipeline of the workflow waits for anything. -/
theorem contains_of_waits {w : WorkflowSpec} {q p : String} (h : w.Waits q p) :
    w.pipelines.contains q = true := by
  obtain ⟨d, hd, -⟩ := h
  exact (KeyMap.contains_iff _ _).2 ⟨d, hd⟩

/-! ## The walk without a bound -/

/-- Walking a list of names, one after the other, from the given marks: it either leaves new marks
or fails at a pipeline that is being visited. -/
inductive Walk (w : WorkflowSpec) :
    List String → KeyMap Mark → Except ValidationError (KeyMap Mark) → Prop
  | nil (marks : KeyMap Mark) : Walk w [] marks (.ok marks)
  /-- A pipeline that is done is passed over. -/
  | skip {p : String} {rest : List String} {marks : KeyMap Mark}
      {out : Except ValidationError (KeyMap Mark)} (hp : marks.get? p = some .done)
      (hrest : Walk w rest marks out) : Walk w (p :: rest) marks out
  /-- A pipeline that is being visited is met again. -/
  | meet {p : String} {rest : List String} {marks : KeyMap Mark}
      (hp : marks.get? p = some .visiting) :
      Walk w (p :: rest) marks (.error (.triggerCycle p))
  /-- A pipeline is entered, and left when all that it waits for has been walked. -/
  | pass {p : String} {rest : List String} {marks below : KeyMap Mark}
      {out : Except ValidationError (KeyMap Mark)} (hp : marks.get? p = none)
      (hbelow : Walk w (w.predecessorsOf p) (marks.insert p .visiting) (.ok below))
      (hrest : Walk w rest (below.insert p .done) out) : Walk w (p :: rest) marks out
  /-- A pipeline is entered, and the walk fails below it. -/
  | fail {p : String} {rest : List String} {marks : KeyMap Mark} {e : ValidationError}
      (hp : marks.get? p = none)
      (hbelow : Walk w (w.predecessorsOf p) (marks.insert p .visiting) (.error e)) :
      Walk w (p :: rest) marks (.error e)

namespace Walk

variable {w : WorkflowSpec} {names : List String} {marks marks' : KeyMap Mark}
  {out out' : Except ValidationError (KeyMap Mark)}

/-- **The walk comes to one thing only.** -/
theorem unique (h : w.Walk names marks out) (h' : w.Walk names marks out') : out = out' := by
  induction h generalizing out' with
  | nil marks =>
      cases h'
      rfl
  | skip hp _ ih =>
      cases h' with
      | skip _ hrest => exact ih hrest
      | meet hp' => simp [hp] at hp'
      | pass hp' => simp [hp] at hp'
      | fail hp' => simp [hp] at hp'
  | meet hp =>
      cases h' with
      | skip hp' => simp [hp] at hp'
      | meet => rfl
      | pass hp' => simp [hp] at hp'
      | fail hp' => simp [hp] at hp'
  | pass hp _ _ ihbelow ihrest =>
      cases h' with
      | skip hp' => simp [hp] at hp'
      | meet hp' => simp [hp] at hp'
      | pass _ hbelow hrest =>
          obtain rfl := Except.ok.inj (ihbelow hbelow)
          exact ihrest hrest
      | fail _ hbelow => cases ihbelow hbelow
  | fail hp _ ihbelow =>
      cases h' with
      | skip hp' => simp [hp] at hp'
      | meet hp' => simp [hp] at hp'
      | pass _ hbelow => cases ihbelow hbelow
      | fail _ hbelow =>
          obtain rfl := Except.error.inj (ihbelow hbelow)
          rfl

end Walk

/-! ## What the marks say -/

/-- Marks that a walk may leave when it began with `marks`: every mark is still there, and no other
pipeline is being visited. -/
structure Mark.Extends (marks marks' : KeyMap Mark) : Prop where
  kept : ∀ x m, marks.get? x = some m → marks'.get? x = some m
  fresh : ∀ x, marks.get? x = none → marks'.get? x ≠ some .visiting

namespace Mark.Extends

theorem refl (marks : KeyMap Mark) : Mark.Extends marks marks :=
  ⟨fun _ _ h => h, fun _ h => by simp [h]⟩

theorem trans {a b c : KeyMap Mark} (h : Mark.Extends a b) (h' : Mark.Extends b c) :
    Mark.Extends a c := by
  refine ⟨fun x m hx => h'.kept x m (h.kept x m hx), fun x hx => ?_⟩
  cases hb : b.get? x with
  | none => exact h'.fresh x hb
  | some m =>
      rw [h'.kept x m hb]
      exact hb ▸ h.fresh x hx

/-- A pipeline that is entered without a mark is left with one. -/
theorem around {p : String} {marks below : KeyMap Mark} (hp : marks.get? p = none)
    (h : Mark.Extends (marks.insert p .visiting) below) :
    Mark.Extends marks (below.insert p .done) := by
  constructor
  · intro x m hx
    have hne : x ≠ p := fun heq => by simp [heq, hp] at hx
    rw [KeyMap.get?_insert_of_ne _ hne]
    exact h.kept x m (by rwa [KeyMap.get?_insert_of_ne _ hne])
  · intro x hx
    by_cases hne : x = p
    · simp [hne]
    · rw [KeyMap.get?_insert_of_ne _ hne]
      exact h.fresh x (by rwa [KeyMap.get?_insert_of_ne _ hne])

/-- The same pipelines are being visited. -/
theorem visiting_iff {marks marks' : KeyMap Mark} (h : Mark.Extends marks marks') (x : String) :
    marks'.get? x = some .visiting ↔ marks.get? x = some .visiting := by
  constructor
  · intro hx
    cases hm : marks.get? x with
    | none => exact absurd hx (h.fresh x hm)
    | some m => rw [← h.kept x m hm, hx]
  · exact h.kept x .visiting

end Mark.Extends

namespace Walk

variable {w : WorkflowSpec} {names : List String} {marks marks' : KeyMap Mark}
  {out : Except ValidationError (KeyMap Mark)}

/-- **A walk leaves the marks that it found**, and nothing new is being visited. -/
theorem marks_extend (h : w.Walk names marks out) :
    ∀ marks', out = .ok marks' → Mark.Extends marks marks' := by
  induction h with
  | nil marks =>
      rintro _ ⟨⟩
      exact .refl marks
  | skip _ _ ih => exact ih
  | meet => rintro _ ⟨⟩
  | pass hp _ _ ihbelow ihrest =>
      intro marks' hout
      exact (Mark.Extends.around hp (ihbelow _ rfl)).trans (ihrest marks' hout)
  | fail => rintro _ ⟨⟩

/-- Every name that was walked is done. -/
theorem done_of_mem (h : w.Walk names marks out) :
    ∀ marks', out = .ok marks' → ∀ x ∈ names, marks'.get? x = some .done := by
  induction h with
  | nil => simp
  | skip hp hrest ih =>
      intro marks' hout x hx
      rcases List.mem_cons.1 hx with rfl | hx
      · exact (hrest.marks_extend marks' hout).kept _ _ hp
      · exact ih marks' hout x hx
  | meet => rintro _ ⟨⟩
  | pass hp _ hrest _ ihrest =>
      intro marks' hout x hx
      rcases List.mem_cons.1 hx with rfl | hx
      · exact (hrest.marks_extend marks' hout).kept _ _ (KeyMap.get?_insert_self _ _ _)
      · exact ihrest marks' hout x hx
  | fail => rintro _ ⟨⟩

end Walk

/-- Pipelines that are done wait only for pipelines that are done, and none of them for itself. -/
structure Settled (w : WorkflowSpec) (marks : KeyMap Mark) : Prop where
  closed : ∀ p q, marks.get? p = some .done → w.Waits p q → marks.get? q = some .done
  acyclic : ∀ p, marks.get? p = some .done → ¬ w.Awaits p p

namespace Settled

variable {w : WorkflowSpec} {marks : KeyMap Mark} {p : String}

/-- A pipeline that is done leads only to pipelines that are done. -/
theorem reach (h : w.Settled marks) {q : String} (hp : marks.get? p = some .done)
    (hq : Relation.ReflTransGen w.Waits p q) : marks.get? q = some .done := by
  induction hq with
  | refl => exact hp
  | tail _ hwaits ih => exact h.closed _ _ ih hwaits

/-- Entering a pipeline changes nothing about those that are done. -/
theorem enter (h : w.Settled marks) (hp : marks.get? p = none) :
    w.Settled (marks.insert p .visiting) := by
  have hdone : ∀ x, (marks.insert p .visiting).get? x = some .done ↔ marks.get? x = some .done := by
    intro x
    by_cases hx : x = p
    · simp [hx, hp]
    · rw [KeyMap.get?_insert_of_ne _ hx]
  constructor
  · intro x q hx hq
    exact (hdone q).2 (h.closed x q ((hdone x).1 hx) hq)
  · intro x hx
    exact h.acyclic x ((hdone x).1 hx)

/-- **A pipeline that is left does not await itself**: all that it waits for was done while it was
being visited. -/
theorem leave (h : w.Settled marks) (hp : marks.get? p = some .visiting)
    (hall : ∀ q, w.Waits p q → marks.get? q = some .done) : w.Settled (marks.insert p .done) := by
  have hself : ¬ w.Awaits p p := by
    intro hcycle
    obtain ⟨q, hq, hback⟩ := Relation.TransGen.head'_iff.1 hcycle
    have hdone : marks.get? p = some .done := h.reach (hall q hq) hback
    simp [hp] at hdone
  constructor
  · intro x q hx hq
    by_cases hqp : q = p
    · simp [hqp]
    · rw [KeyMap.get?_insert_of_ne _ hqp]
      by_cases hxp : x = p
      · exact hall q (hxp ▸ hq)
      · rw [KeyMap.get?_insert_of_ne _ hxp] at hx
        exact h.closed x q hx hq
  · intro x hx
    by_cases hxp : x = p
    · exact hxp ▸ hself
    · rw [KeyMap.get?_insert_of_ne _ hxp] at hx
      exact h.acyclic x hx

end Settled

namespace Walk

variable {w : WorkflowSpec} {names : List String} {marks : KeyMap Mark}
  {out : Except ValidationError (KeyMap Mark)}

/-- **A walk keeps the marks settled.** -/
theorem settled (h : w.Walk names marks out) (hmarks : w.Settled marks) :
    ∀ marks', out = .ok marks' → w.Settled marks' := by
  induction h with
  | nil marks =>
      rintro _ ⟨⟩
      exact hmarks
  | skip _ _ ih => exact ih hmarks
  | meet => rintro _ ⟨⟩
  | @pass p rest marks below out hp hbelow _ ihbelow ihrest =>
      have hall : ∀ q, w.Waits p q → below.get? q = some .done := fun q hq =>
        hbelow.done_of_mem below rfl q ((w.mem_predecessorsOf p q).2 hq)
      have hvisiting : below.get? p = some .visiting :=
        (hbelow.marks_extend below rfl).kept p _ (KeyMap.get?_insert_self _ _ _)
      exact ihrest ((ihbelow (hmarks.enter hp) below rfl).leave hvisiting hall)
  | fail => rintro _ ⟨⟩

/-- **The pipeline at which a walk fails awaits itself**, as long as every pipeline that is being
visited awaits each name that is to be walked. -/
theorem on_cycle (h : w.Walk names marks out)
    (hpath : ∀ x, marks.get? x = some .visiting → ∀ y ∈ names, w.Awaits x y) :
    ∀ e, out = .error e → ∃ p, e = .triggerCycle p ∧ w.Awaits p p := by
  induction h with
  | nil => rintro _ ⟨⟩
  | skip _ _ ih => exact ih fun x hx y hy => hpath x hx y (List.mem_cons_of_mem _ hy)
  | @meet p rest marks hp =>
      rintro _ ⟨⟩
      exact ⟨p, rfl, hpath p hp p List.mem_cons_self⟩
  | @pass p rest marks below out hp hbelow _ _ ihrest =>
      refine ihrest fun x hx y hy => ?_
      have hvisiting := ((Mark.Extends.around hp (hbelow.marks_extend below rfl)).visiting_iff x).1 hx
      exact hpath x hvisiting y (List.mem_cons_of_mem _ hy)
  | @fail p rest marks e hp _ ihbelow =>
      refine ihbelow fun x hx y hy => ?_
      have hwaits : w.Waits p y := (w.mem_predecessorsOf p y).1 hy
      by_cases hxp : x = p
      · exact .single (hxp ▸ hwaits)
      · rw [KeyMap.get?_insert_of_ne _ hxp] at hx
        exact .tail (hpath x hx p List.mem_cons_self) hwaits

end Walk

/-! ## The bound on the depth -/

/-- How many pipelines of the workflow have no mark. -/
def unmarked (w : WorkflowSpec) (marks : KeyMap Mark) : Nat :=
  (w.pipelines.keys.filter fun p => !marks.contains p).length

theorem unmarked_mono (w : WorkflowSpec) {marks marks' : KeyMap Mark}
    (h : Mark.Extends marks marks') : w.unmarked marks' ≤ w.unmarked marks := by
  refine (List.monotone_filter_right _ fun p hp => ?_).length_le
  rw [Bool.not_eq_true', KeyMap.contains_eq_false_iff] at hp ⊢
  cases hm : marks.get? p with
  | none => rfl
  | some m => simp [h.kept p m hm] at hp

/-- Entering a pipeline of the workflow leaves fewer without a mark. -/
theorem unmarked_enter (w : WorkflowSpec) {marks : KeyMap Mark} {p : String}
    (hknown : w.pipelines.contains p = true) (hp : marks.get? p = none) :
    w.unmarked (marks.insert p .visiting) < w.unmarked marks := by
  have hfilter : (w.pipelines.keys.filter fun q => !(marks.insert p .visiting).contains q) =
      (w.pipelines.keys.filter fun q => !marks.contains q).filter fun q => q ≠ p := by
    rw [List.filter_filter]
    refine List.filter_congr fun q _ => ?_
    by_cases hqp : q = p
    · simp [KeyMap.contains, hqp]
    · simp [KeyMap.contains, KeyMap.get?_insert_of_ne _ hqp, hqp]
  unfold unmarked
  rw [hfilter, List.length_filter_lt_length_iff_exists]
  refine ⟨p, List.mem_filter.2 ⟨(KeyMap.mem_keys_iff _ p).2 hknown, ?_⟩, by simp⟩
  simp [KeyMap.contains, hp]

theorem unmarked_le_size (w : WorkflowSpec) (marks : KeyMap Mark) :
    w.unmarked marks ≤ w.pipelines.size :=
  (List.length_filter_le _ _).trans (List.length_map _).le

namespace Walk

variable {w : WorkflowSpec} {p : String} {rest : List String} {marks marks' : KeyMap Mark}
  {out : Except ValidationError (KeyMap Mark)}

/-- A walk from one name goes on with the others. -/
theorem cons (h : w.Walk [p] marks (.ok marks')) (hrest : w.Walk rest marks' out) :
    w.Walk (p :: rest) marks out := by
  cases h with
  | skip hp hnil =>
      cases hnil
      exact .skip hp hrest
  | pass hp hbelow hnil =>
      cases hnil
      exact .pass hp hbelow hrest

/-- A walk that fails at one name fails. -/
theorem cons_error {e : ValidationError} (h : w.Walk [p] marks (.error e)) :
    w.Walk (p :: rest) marks (.error e) := by
  cases h with
  | skip _ hnil => cases hnil
  | meet hp => exact .meet hp
  | pass _ _ hnil => cases hnil
  | fail hp hbelow => exact .fail hp hbelow

end Walk

/-- Visiting names one after the other, where each visit is a walk. -/
theorem walk_foldlM {w : WorkflowSpec} {fuel bound : Nat}
    (hvisit : ∀ p marks, w.unmarked marks < bound → w.Walk [p] marks (w.visit fuel p marks))
    (names : List String) (marks : KeyMap Mark) (hbound : w.unmarked marks < bound) :
    w.Walk names marks (names.foldlM (fun marks p => w.visit fuel p marks) marks) := by
  induction names generalizing marks with
  | nil => exact .nil marks
  | cons p rest ih =>
      have hp := hvisit p marks hbound
      rw [List.foldlM_cons]
      cases hout : w.visit fuel p marks with
      | error e => exact .cons_error (hout ▸ hp)
      | ok marks' =>
          rw [hout] at hp
          have hless := w.unmarked_mono (hp.marks_extend marks' rfl)
          exact .cons hp (ih marks' (by omega))

/-- **The bounded walk comes to what the walk comes to** when the bound on its depth exceeds the
number of pipelines without a mark. -/
theorem walk_visit (w : WorkflowSpec) (fuel : Nat) (p : String) (marks : KeyMap Mark)
    (hfuel : w.unmarked marks < fuel) : w.Walk [p] marks (w.visit fuel p marks) := by
  induction fuel generalizing p marks with
  | zero => omega
  | succ fuel ih =>
      unfold visit
      cases hp : marks.get? p with
      | some m =>
          cases m with
          | visiting => exact .meet hp
          | done => exact .skip hp (.nil marks)
      | none =>
          have hbelow : w.Walk (w.predecessorsOf p) (marks.insert p .visiting)
              ((w.predecessorsOf p).foldlM (fun marks q => w.visit fuel q marks)
                (marks.insert p .visiting)) := by
            cases hknown : w.pipelines.contains p with
            | true =>
                have hless := w.unmarked_enter hknown hp
                exact walk_foldlM ih _ _ (by omega)
            | false =>
                -- An unknown pipeline waits for nothing, so the depth ends here.
                have hnone : w.predecessorsOf p = [] := by
                  rw [predecessorsOf, (KeyMap.contains_eq_false_iff _ p).1 hknown]
                rw [hnone]
                exact .nil _
          simp only
          cases hout : (w.predecessorsOf p).foldlM (fun marks q => w.visit fuel q marks)
              (marks.insert p .visiting) with
          | error e => exact .fail hp (hout ▸ hbelow)
          | ok below => exact .pass hp (hout ▸ hbelow) (.nil _)

/-! ## The check -/

/-- What the walk from every pipeline of the workflow comes to. -/
def walked (w : WorkflowSpec) : Except ValidationError (KeyMap Mark) :=
  w.pipelines.keys.foldlM (fun marks p => w.visit (w.pipelines.size + 2) p marks) .empty

theorem checkAcyclic_eq (w : WorkflowSpec) : w.checkAcyclic = w.walked.map fun _ => () := by
  unfold checkAcyclic walked
  cases w.pipelines.keys.foldlM (fun marks p => w.visit (w.pipelines.size + 2) p marks)
    KeyMap.empty <;> rfl

/-- **The walk from every pipeline ends**, and the bound on its depth does not cut it short. -/
theorem walk_walked (w : WorkflowSpec) : w.Walk w.pipelines.keys .empty w.walked := by
  have hsize := w.unmarked_le_size .empty
  exact walk_foldlM (w.walk_visit _) _ _ (by omega)

/-- No pipeline is being visited at the outset, and none is done. -/
theorem settled_empty (w : WorkflowSpec) : w.Settled .empty :=
  ⟨fun _ _ h => by simp at h, fun _ h => by simp at h⟩

/-- **A walk that ends well** shows that no pipeline awaits itself. -/
theorem not_awaits_of_walked {w : WorkflowSpec} {marks : KeyMap Mark} (h : w.walked = .ok marks)
    (p : String) : ¬ w.Awaits p p := by
  intro hcycle
  obtain ⟨q, hq, -⟩ := Relation.TransGen.head'_iff.1 hcycle
  have hdone : marks.get? p = some .done :=
    w.walk_walked.done_of_mem marks h p ((KeyMap.mem_keys_iff _ p).2 (contains_of_waits hq))
  exact (w.walk_walked.settled w.settled_empty marks h).acyclic p hdone hcycle

/-- **A walk that fails** names a pipeline that awaits itself. -/
theorem awaits_of_walked_error {w : WorkflowSpec} {e : ValidationError} (h : w.walked = .error e) :
    ∃ p, e = .triggerCycle p ∧ w.Awaits p p :=
  w.walk_walked.on_cycle (fun x hx => by simp at hx) e h

/-- **The check passes exactly when no pipeline waits for itself**, directly or through others. -/
theorem checkAcyclic_eq_ok_iff (w : WorkflowSpec) :
    w.checkAcyclic = .ok () ↔ ∀ p, ¬ w.Awaits p p := by
  rw [checkAcyclic_eq]
  cases hw : w.walked with
  | ok marks => exact iff_of_true rfl (not_awaits_of_walked hw)
  | error e =>
      obtain ⟨p, -, hcycle⟩ := awaits_of_walked_error hw
      exact iff_of_false (by rintro ⟨⟩) fun hall => hall p hcycle

/-- The check fails only with a pipeline that lies on a cycle. -/
theorem checkAcyclic_eq_error {w : WorkflowSpec} {e : ValidationError}
    (h : w.checkAcyclic = .error e) : ∃ p, e = .triggerCycle p ∧ w.Awaits p p := by
  rw [checkAcyclic_eq] at h
  cases hw : w.walked with
  | ok marks =>
      rw [hw] at h
      cases h
  | error e' =>
      rw [hw] at h
      cases h
      exact awaits_of_walked_error hw

end WorkflowSpec

end FleetControl
