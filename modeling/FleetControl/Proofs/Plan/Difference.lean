import FleetControl.Proofs.Plan

/-!
# A plan is the whole difference and nothing more

Carrying out an action gives a pipeline its desired spec, or takes it away. A plan has one action for
each name on which the two workflows disagree, so carrying all of it out turns the pipelines that were
applied last into the desired ones, and leaving any of it out does not.

* `PlannedAction.enact`, `PlannedAction.enactAll` — the pipelines once actions are carried out;
* `mem_plan_names_iff` — a plan is about the names on which the workflows disagree;
* `plan_sound_complete_minimal` — plans are sorted, of the right kinds, sufficient and necessary.
-/

namespace FleetControl

namespace PlannedAction

/-! ## In ascending order -/

theorem place_pairwise (a : PlannedAction) {l : List PlannedAction}
    (h : l.Pairwise fun x y => x.pipeline ≤ y.pipeline) :
    (place a l).Pairwise fun x y => x.pipeline ≤ y.pipeline := by
  induction l with
  | nil => simp [place]
  | cons b rest ih =>
      have hb := List.pairwise_cons.1 h
      unfold place
      split
      · next hba =>
        refine List.pairwise_cons.2 ⟨fun x hx => ?_, ih hb.2⟩
        rcases List.mem_cons.1 ((place_perm a rest).mem_iff.1 hx) with rfl | hx
        · exact String.not_lt.1 (String.lt_asymm hba)
        · exact hb.1 x hx
      · next hba =>
        have hab : a.pipeline ≤ b.pipeline := String.not_lt.1 hba
        refine List.pairwise_cons.2 ⟨fun x hx => ?_, h⟩
        rcases List.mem_cons.1 hx with rfl | hx
        · exact hab
        · exact String.le_trans hab (hb.1 x hx)

theorem sort_pairwise (l : List PlannedAction) :
    (sort l).Pairwise fun x y => x.pipeline ≤ y.pipeline := by
  induction l with
  | nil => exact .nil
  | cons a rest ih => exact place_pairwise a ih

/-! ## Carrying out -/

/-- The pipelines once an action is carried out: what is scheduled or updated has its desired spec,
what is removed is gone. -/
def enact (desired : WorkflowSpec) (a : PlannedAction) (m : KeyMap PipelineSpec) :
    KeyMap PipelineSpec :=
  match a.action with
  | .remove => m.erase a.pipeline
  | .schedule | .update =>
    match desired.pipelines.get? a.pipeline with
    | some d => m.insert a.pipeline d
    | none => m

/-- The pipelines once actions are carried out one after the other. -/
def enactAll (desired : WorkflowSpec) (actions : List PlannedAction) (m : KeyMap PipelineSpec) :
    KeyMap PipelineSpec :=
  actions.foldl (fun m a => a.enact desired m) m

/-- An action is of the kind that its pipeline calls for: what is scheduled is desired and was not
applied, what is updated is desired and was applied, what is removed was applied and is not
desired. -/
def Fits (desired last : WorkflowSpec) (a : PlannedAction) : Prop :=
  match a.action with
  | .schedule =>
    last.pipelines.contains a.pipeline = false ∧ desired.pipelines.contains a.pipeline = true
  | .update =>
    last.pipelines.contains a.pipeline = true ∧ desired.pipelines.contains a.pipeline = true
  | .remove =>
    last.pipelines.contains a.pipeline = true ∧ desired.pipelines.contains a.pipeline = false

variable {desired last : WorkflowSpec} {a : PlannedAction}

/-- An action of the right kind brings its pipeline to what is desired, and no other. -/
theorem get?_enact (h : a.Fits desired last) (m : KeyMap PipelineSpec) (p : String) :
    (a.enact desired m).get? p =
      if p = a.pipeline then desired.pipelines.get? p else m.get? p := by
  obtain ⟨name, action⟩ := a
  have insert (hd : desired.pipelines.contains name = true) :
      (match desired.pipelines.get? name with
        | some d => m.insert name d
        | none => m).get? p = if p = name then desired.pipelines.get? p else m.get? p := by
    obtain ⟨d, hd⟩ := (KeyMap.contains_iff _ _).1 hd
    rw [hd]
    simp only [KeyMap.get?_insert]
    by_cases hp : p = name
    · rw [if_pos hp, if_pos hp, hp, hd]
    · rw [if_neg hp, if_neg hp]
  cases action with
  | schedule => exact insert h.2
  | update => exact insert h.2
  | remove =>
      have hd := (KeyMap.contains_eq_false_iff _ _).1 h.2
      simp only [enact, KeyMap.get?_erase]
      by_cases hp : p = name
      · rw [if_pos hp, if_pos hp, hp, hd]
      · rw [if_neg hp, if_neg hp]

/-- Actions of the right kinds bring the pipelines that they are about to what is desired, and no
others. -/
theorem get?_enactAll {actions : List PlannedAction} (h : ∀ a ∈ actions, a.Fits desired last)
    (m : KeyMap PipelineSpec) (p : String) :
    (enactAll desired actions m).get? p =
      if p ∈ actions.map (·.pipeline) then desired.pipelines.get? p else m.get? p := by
  induction actions generalizing m with
  | nil => simp [enactAll]
  | cons a rest ih =>
      have ha : a.Fits desired last := h a (by simp)
      have hrest := ih (fun b hb => h b (List.mem_cons_of_mem _ hb)) (a.enact desired m)
      rw [get?_enact ha] at hrest
      refine hrest.trans ?_
      by_cases hp : p = a.pipeline <;> simp [hp]

end PlannedAction

/-! ## What a plan is about -/

variable (desired last : WorkflowSpec)

/-- A plan is what a pass attempts that finds nothing unconfirmed. -/
theorem plan_eq_manifestActions :
    plan desired last = manifestActions desired ⟨last, .empty, .empty⟩ := rfl

/-- Nothing is unconfirmed, so nothing is both applied and unconfirmed. -/
private theorem apart_of_confirmed : (⟨last, .empty, .empty⟩ : Applied).Apart := by
  intro p hp
  cases hp

/-- The actions of a plan are of the kinds that their pipelines call for. -/
theorem fits_of_mem_plan {a : PlannedAction} (h : a ∈ plan desired last) :
    a.Fits desired last := by
  rw [plan_eq_manifestActions, mem_manifestActions_iff] at h
  obtain ⟨name, action⟩ := a
  cases Applied.needed h with
  | schedule wanted unapplied =>
      exact ⟨(KeyMap.contains_eq_false_iff _ _).2 unapplied, (KeyMap.contains_iff _ _).2 ⟨_, wanted⟩⟩
  | update wanted applied =>
      exact ⟨(KeyMap.contains_iff _ _).2 ⟨_, applied⟩, (KeyMap.contains_iff _ _).2 ⟨_, wanted⟩⟩
  | remove unwanted claimed =>
      exact ⟨claimed.resolve_right nofun, (KeyMap.contains_eq_false_iff _ _).2 unwanted⟩

/-- **A plan is about the names on which the workflows disagree.** -/
theorem mem_plan_names_iff (p : String) :
    p ∈ (plan desired last).map (·.pipeline) ↔
      last.pipelines.get? p ≠ desired.pipelines.get? p := by
  have hneeds : (⟨last, .empty, .empty⟩ : Applied).needs desired p = none ↔
      last.pipelines.get? p = desired.pipelines.get? p := by
    rw [Applied.needs_eq_none_iff]
    simp
  rw [← not_iff_not, not_not, ← hneeds, Option.eq_none_iff_forall_not_mem, List.mem_map, not_exists]
  constructor
  · intro h action hact
    refine h ⟨p, action⟩ ⟨?_, rfl⟩
    rw [plan_eq_manifestActions, mem_manifestActions_iff]
    exact hact
  · rintro h ⟨name, action⟩ ⟨hmem, rfl⟩
    rw [plan_eq_manifestActions, mem_manifestActions_iff] at hmem
    exact h action hmem

/-- The actions of a plan come in strictly ascending order of their pipelines. -/
theorem plan_ascending : (plan desired last).Pairwise fun a b => a.pipeline < b.pipeline := by
  have hle : (plan desired last).Pairwise fun a b => a.pipeline ≤ b.pipeline :=
    PlannedAction.sort_pairwise _
  have hne : (plan desired last).Pairwise fun a b => a.pipeline ≠ b.pipeline :=
    List.pairwise_map.1 (nodup_manifestActions desired (apart_of_confirmed last))
  refine hle.imp₂ (fun a b hle hne => ?_) hne
  by_contra hnot
  exact hne (String.le_antisymm hle (String.not_lt.1 hnot))

/-- Part of a plan suffices only if it is about every name on which the workflows disagree. -/
theorem enactAll_eq_iff {kept : List PlannedAction} (h : kept.Sublist (plan desired last)) :
    PlannedAction.enactAll desired kept last.pipelines = desired.pipelines ↔
      ∀ p ∈ (plan desired last).map (·.pipeline), p ∈ kept.map (·.pipeline) := by
  have hget := PlannedAction.get?_enactAll (fun a ha => fits_of_mem_plan desired last (h.subset ha))
    last.pipelines
  constructor
  · intro heq p hp
    by_contra hkept
    refine (mem_plan_names_iff desired last p).1 hp ?_
    rw [← heq, hget, if_neg hkept]
  · intro hall
    apply KeyMap.ext_get?
    intro p
    rw [hget]
    split
    · rfl
    · next hkept =>
      by_contra hne
      exact hkept (hall p ((mem_plan_names_iff desired last p).2 hne))

/-- A sublist of a plan that is about every name of it is the plan. -/
theorem eq_plan_of_names {kept : List PlannedAction} (h : kept.Sublist (plan desired last))
    (hall : ∀ p ∈ (plan desired last).map (·.pipeline), p ∈ kept.map (·.pipeline)) :
    kept = plan desired last := by
  have hnodup : ((plan desired last).map (·.pipeline)).Nodup :=
    nodup_manifestActions desired (apart_of_confirmed last)
  refine h.eq_of_length_le ?_
  simpa using (List.subperm_of_subset hnodup hall).length_le

/-- **A plan is the whole difference and nothing more.** Its actions come in strictly ascending order
of their pipelines, so each pipeline has at most one. Each is of the kind that its pipeline calls
for: schedules of what is absent from the last workflow, updates of what is in both, removals of what
is absent from the desired one. Carrying out the plan turns the last pipelines into the desired
ones, and leaving out one of its actions, or several, does not. So a plan is empty exactly if the
pipelines are equal already. -/
theorem plan_sound_complete_minimal :
    ((plan desired last).Pairwise fun a b => a.pipeline < b.pipeline) ∧
      (∀ a ∈ plan desired last, a.Fits desired last) ∧
      PlannedAction.enactAll desired (plan desired last) last.pipelines = desired.pipelines ∧
      (∀ kept, kept.Sublist (plan desired last) → kept ≠ plan desired last →
        PlannedAction.enactAll desired kept last.pipelines ≠ desired.pipelines) ∧
      (plan desired last = [] ↔ desired.pipelines = last.pipelines) := by
  have hwhole : PlannedAction.enactAll desired (plan desired last) last.pipelines =
      desired.pipelines :=
    (enactAll_eq_iff desired last (List.Sublist.refl _)).2 fun _ hp => hp
  have hpart : ∀ kept, kept.Sublist (plan desired last) → kept ≠ plan desired last →
      PlannedAction.enactAll desired kept last.pipelines ≠ desired.pipelines := by
    intro kept hsub hne heq
    exact hne (eq_plan_of_names desired last hsub ((enactAll_eq_iff desired last hsub).1 heq))
  refine ⟨plan_ascending desired last, fun a ha => fits_of_mem_plan desired last ha, hwhole, hpart,
    ?_⟩
  constructor
  · intro hempty
    rw [hempty] at hwhole
    exact hwhole.symm
  · intro heq
    by_contra hne
    exact hpart [] (List.nil_sublist _) (Ne.symm hne) heq.symm

end FleetControl
