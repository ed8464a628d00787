import FleetControl.Proofs.Fleet.Record

/-!
# A pass and a removal that overlap

A pass over a manifest and a removal of the same workflow may be suspended at every request while the
other one proceeds. Both read the document, make their calls and write or delete the document at the
end, so the one that ends last decides what is on record.

A removal gives no agent a pipeline. So what the pass tells stays enough: its working copy tells every
holder, and if it ends last so does the document. What the removal tells is not enough once the pass
has ended in between. Its working copy then has what was on record when both started, without the
pipelines whose removal was heard of; what the pass sent out beyond that is lost.

* `Fleet.HeardRemoval` — a removal was heard of since the start;
* `Fleet.Traced` — what the removal's working copy has of a pipeline;
* `Site.Joint` — the invariant of both callbacks, by how far they are.
-/

namespace FleetControl

namespace Fleet

/-! ## Calls since the start -/

/-- The calls that were carried out before are still remembered. -/
def Continues (x x' : Fleet) : Prop := ∃ recent, x'.deeds = recent ++ x.deeds

/-- Since a fleet was as it was first, the removal of a pipeline was heard of. -/
def HeardRemoval (x x' : Fleet) (w p : String) : Prop :=
  ∃ recent, x'.deeds = recent ++ x.deeds ∧ ∃ deed ∈ recent,
    deed.heard = true ∧ deed.action = .remove ∧ deed.About w p = true

variable {x₀ x x' : Fleet} {w p : String}

theorem Continues.refl (x : Fleet) : Continues x x := ⟨[], rfl⟩

theorem Continues.idle (h : Continues x₀ x) (hidle : Idle x x') : Continues x₀ x' := by
  obtain ⟨recent, hrecent⟩ := h
  exact ⟨recent, hidle.deeds.trans hrecent⟩

theorem Continues.did (h : Continues x₀ x) {name : String} {deed : Deed}
    (hdid : Did x x' name deed) : Continues x₀ x' := by
  obtain ⟨recent, hrecent⟩ := h
  exact ⟨deed :: recent, by rw [hdid.deeds, hrecent, List.cons_append]⟩

/-- At the start nothing has been heard of. -/
theorem not_heardRemoval_self (x : Fleet) (w p : String) : ¬ HeardRemoval x x w p := by
  rintro ⟨recent, hrecent, deed, hdeed, -⟩
  obtain rfl : [] = recent := by simpa using hrecent
  cases hdeed

theorem heardRemoval_idle (hidle : Idle x x') :
    HeardRemoval x₀ x' w p ↔ HeardRemoval x₀ x w p := by
  unfold HeardRemoval
  rw [hidle.deeds]

/-- What was heard of stays so, and a call that is carried out may add to it. -/
theorem heardRemoval_did (h : Continues x₀ x) {name : String} {deed : Deed}
    (hdid : Did x x' name deed) : HeardRemoval x₀ x' w p ↔ HeardRemoval x₀ x w p ∨
      (deed.heard = true ∧ deed.action = .remove ∧ deed.About w p = true) := by
  obtain ⟨recent, hrecent⟩ := h
  have hboth : ∀ others, x'.deeds = others ++ x₀.deeds ↔ others = deed :: recent := by
    intro others
    rw [hdid.deeds, hrecent, ← List.cons_append, List.append_cancel_right_eq]
    exact eq_comm
  have hbefore : ∀ others, x.deeds = others ++ x₀.deeds ↔ others = recent := by
    intro others
    rw [hrecent, List.append_cancel_right_eq]
    exact eq_comm
  simp only [HeardRemoval, hboth, hbefore, exists_eq_left, List.mem_cons, exists_eq_or_imp]
  exact or_comm

variable {spec : PipelineSpec} {slot slot' : Slot} {named : Option String}
variable {action : PipelineAction}

theorem Continues.moved (h : Continues x₀ x)
    (hmoved : Moved x w p spec slot named action slot' x') : Continues x₀ x' := by
  rcases hmoved.idle_or_did with hidle | ⟨name, heard, hdid⟩
  · exact h.idle hidle
  · exact h.did hdid

theorem HeardRemoval.moved (hc : Continues x₀ x)
    (hmoved : Moved x w p spec slot named action slot' x') {q : String}
    (h : HeardRemoval x₀ x w q) : HeardRemoval x₀ x' w q := by
  rcases hmoved.idle_or_did with hidle | ⟨name, heard, hdid⟩
  · exact (heardRemoval_idle hidle).2 h
  · exact (heardRemoval_did hc hdid).2 (.inl h)

/-- What is heard of after an action was heard of before, or the action is a removal of the pipeline
that an agent carried out. -/
theorem HeardRemoval.of_moved (hc : Continues x₀ x)
    (hmoved : Moved x w p spec slot named action slot' x') {q : String}
    (h : HeardRemoval x₀ x' w q) : HeardRemoval x₀ x w q ∨ (action = .remove ∧ p = q) := by
  rcases hmoved.idle_or_did with hidle | ⟨name, heard, hdid⟩
  · exact .inl ((heardRemoval_idle hidle).1 h)
  · rcases (heardRemoval_did hc hdid).1 h with hbefore | ⟨-, hremove, habout⟩
    · exact .inl hbefore
    · simp only [Deed.About, Scheduler.request, Bool.and_eq_true, beq_iff_eq] at habout
      exact .inr ⟨hremove, habout.2⟩

/-- A removal gives nobody a pipeline. -/
theorem Moved.holds_of_remove (h : Moved x w p spec slot named .remove slot' x')
    {name v q : String} (hholds : x'.Holds name v q) : x.Holds name v q := by
  unfold Holds at hholds ⊢
  rcases h.idle_or_did with hidle | ⟨other, heard, hdid⟩
  · rwa [hidle.held] at hholds
  · by_cases hown : name = other ∧ v = w ∧ q = p
    · obtain ⟨rfl, rfl, rfl⟩ := hown
      have hgone := hdid.own
      simp only [Scheduler.request, Deed.leaves, Option.map_eq_none_iff] at hgone
      rw [hgone] at hholds
      cases hholds
    · rwa [hdid.others name v q hown] at hholds

/-! ## What working copies tell -/

theorem Covered.idle {a : Applied} (h : x.Covered w a) (hidle : Idle x x') : x'.Covered w a := by
  intro name p hholds
  rw [Holds, hidle.held] at hholds
  exact h name p hholds

/-- An action of the callback that works on the copy. -/
theorem Covered.moved {a a' : Applied} (h : x.Covered w a)
    (hmoved : Moved x w p spec (a.slot p) named action (a'.slot p) x')
    (htells : (a.slot p).Tells named) (hothers : ∀ q, q ≠ p → a'.slot q = a.slot q) :
    x'.Covered w a' := by
  intro name q hholds
  by_cases hq : q = p
  · subst hq
    exact hmoved.holders htells (fun other hother => htells.unique (h other q hother)) name hholds
  · rw [Holds, (hmoved.sameAt fun heq => hq heq.2).held] at hholds
    rw [hothers q hq]
    exact h name q hholds

/-- A removal by the other callback. -/
theorem Covered.of_removal {a : Applied} (h : x.Covered w a)
    (hmoved : Moved x w p spec slot named .remove slot' x') : x'.Covered w a :=
  fun name q hholds => h name q (hmoved.holds_of_remove hholds)

/-- What the removal's working copy `b` has of a pipeline, compared with the record `a` at the start:
the same, and then no removal was heard of, unless the pipeline is not wanted and nobody holds it; or
nothing. -/
inductive Traced (x₀ x : Fleet) (w : String) (desired : WorkflowSpec) (a b : Applied)
    (p : String) : Prop where
  | kept (same : b.slot p = a.slot p)
      (unheld : HeardRemoval x₀ x w p →
        desired.pipelines.get? p = none ∧ ∀ name, ¬ x.Holds name w p)
  | gone (lacks : (b.slot p).Tells none)
      (why : (a.slot p).Tells none ∨ HeardRemoval x₀ x w p)

variable {desired : WorkflowSpec} {a b : Applied}

/-- The removal's working copy tells a holder exactly if the record at the start does and no removal
was heard of. -/
theorem Traced.tells_iff (h : Traced x₀ x w desired a b p) {name : String}
    (hholds : x.Holds name w p) :
    (b.slot p).Tells (some name) ↔
      (a.slot p).Tells (some name) ∧ ¬ HeardRemoval x₀ x w p := by
  cases h with
  | kept same unheld =>
      rw [same]
      exact ⟨fun htells => ⟨htells, fun hheard => (unheld hheard).2 name hholds⟩, And.left⟩
  | gone lacks why =>
      constructor
      · intro htells
        cases lacks.unique htells
      · rintro ⟨htells, hnot⟩
        rcases why with hlacked | hheard
        · cases hlacked.unique htells
        · exact absurd hheard hnot

theorem Traced.idle {q : String} (h : Traced x₀ x w desired a b q) (hidle : Idle x x') :
    Traced x₀ x' w desired a b q := by
  cases h with
  | kept same unheld =>
      refine .kept same fun hheard => ?_
      obtain ⟨hunwanted, hnobody⟩ := unheld ((heardRemoval_idle hidle).1 hheard)
      refine ⟨hunwanted, fun name hholds => hnobody name ?_⟩
      rwa [Holds, hidle.held] at hholds
  | gone lacks why => exact .gone lacks (why.imp_right (heardRemoval_idle hidle).2)

/-- An action of the pass: the pipelines that it removes are not wanted, and nobody holds them any
more once a removal was heard of. -/
theorem Traced.of_pass {q : String} (h : Traced x₀ x w desired a b q) (hc : Continues x₀ x)
    {c c' : Applied} (hmoved : Moved x w p spec (c.slot p) named action (c'.slot p) x')
    (hneeds : c.needs desired p = some action)
    (hholders : ∀ name, x.Holds name w p → named = some name) :
    Traced x₀ x' w desired a b q := by
  cases h with
  | gone lacks why => exact .gone lacks (why.imp_right (HeardRemoval.moved hc hmoved))
  | kept same unheld =>
      refine .kept same fun hheard => ?_
      by_cases hq : q = p
      · subst hq
        have hunwanted : desired.pipelines.get? q = none := by
          rcases hheard.of_moved hc hmoved with hbefore | ⟨rfl, -⟩
          · exact (unheld hbefore).1
          · cases Applied.needed hneeds with
            | remove unwanted => exact unwanted
        obtain rfl := Applied.remove_of_needs hneeds hunwanted
        have hexecutor : ∀ {name : String}, named = some name →
            ∀ other, x.Holds other w q → other = name := fun hname other hother =>
          (Option.some.inj (hname.symm.trans (hholders other hother))).symm
        refine ⟨hunwanted, ?_⟩
        generalize c'.slot q = slot' at hmoved
        cases hmoved with
        | refused hidle =>
            intro name hholds
            rw [Holds, hidle.held] at hholds
            exact (unheld ((heardRemoval_idle hidle).1 hheard)).2 name hholds
        | unheard hname _ hdid => exact hdid.not_holds (hexecutor hname)
        | removed hname hdid => exact hdid.not_holds (hexecutor hname)
      · rcases hheard.of_moved hc hmoved with hbefore | ⟨-, rfl⟩
        · obtain ⟨hunwanted, hnobody⟩ := unheld hbefore
          refine ⟨hunwanted, fun name hholds => hnobody name ?_⟩
          rwa [Holds, (hmoved.sameAt fun heq => hq heq.2).held] at hholds
        · exact absurd rfl hq

/-- An action of the removal: the pipeline is taken out of the working copy when its removal is heard
of. -/
theorem Traced.of_removal {q : String} (h : Traced x₀ x w desired a b q) (hc : Continues x₀ x)
    {b' : Applied} (hmoved : Moved x w p spec (b.slot p) named .remove (b'.slot p) x')
    (hothers : ∀ q, q ≠ p → b'.slot q = b.slot q) : Traced x₀ x' w desired a b' q := by
  -- A slot that stays as it is, with nothing heard of.
  have hstays : b'.slot q = b.slot q → (HeardRemoval x₀ x' w q → HeardRemoval x₀ x w q) →
      Traced x₀ x' w desired a b' q := by
    intro hslot hbefore
    cases h with
    | gone lacks why =>
        exact .gone (hslot ▸ lacks) (why.imp_right (HeardRemoval.moved hc hmoved))
    | kept same unheld =>
        refine .kept (hslot.trans same) fun hheard => ?_
        obtain ⟨hunwanted, hnobody⟩ := unheld (hbefore hheard)
        exact ⟨hunwanted, fun name hholds => hnobody name (hmoved.holds_of_remove hholds)⟩
  by_cases hq : q = p
  · subst hq
    generalize hslot : b'.slot q = slot' at hmoved
    cases hmoved with
    | refused hidle => exact hstays hslot (heardRemoval_idle hidle).1
    | unheard _ _ hdid =>
        refine hstays hslot fun hheard => ?_
        simpa using (heardRemoval_did hc hdid).1 hheard
    | removed _ hdid =>
        refine .gone (hslot ▸ .nothing) (.inr ((heardRemoval_did hc hdid).2 (.inr ?_)))
        simp [Deed.About, Scheduler.request]
  · refine hstays (hothers q hq) fun hheard => ?_
    rcases hheard.of_moved hc hmoved with hbefore | ⟨-, rfl⟩
    · exact hbefore
    · exact absurd rfl hq

end Fleet

/-! ## Both callbacks -/

/-- The working copy of a callback that has one. -/
def Standing.copy (g : Standing) (a : Applied) : Applied :=
  match g with
  | .working b => b
  | _ => a

/-- The second program took a turn before some later turn of the first. The turns are listed with the
last one first. -/
def Turn.Crossed (past : List Turn) : Prop := [Turn.first, .second].Sublist past

theorem Turn.crossed_cons_second (past : List Turn) :
    Turn.Crossed (.second :: past) ↔ Turn.Crossed past := by
  unfold Crossed
  refine ⟨fun h => ?_, fun h => h.cons _⟩
  cases h with
  | cons _ h => exact h

theorem Turn.Crossed.mem {past : List Turn} (h : Turn.Crossed past) : .second ∈ past :=
  h.subset (by simp)

theorem Turn.crossed_cons_first {past : List Turn} (h : .second ∈ past) :
    Turn.Crossed (.first :: past) :=
  (List.singleton_sublist.2 h).cons_cons _

namespace Site

open Fleet (Covered Traced Continues HeardRemoval Moved Idle)

/-- Where a pass and a removal of a workflow stand, with the pass first and the removal second. The
record at the start is that of `s₀`. -/
inductive Joint (w : String) (desired : WorkflowSpec) (s₀ : Site Fleet) (past : List Turn)
    (s : Site Fleet) : Standing → Standing → Prop where
  /-- The removal has not read the document, and the pass has not ended. -/
  | before {m : Standing} (hm : m ≠ .finished) (turns : .second ∉ past)
      (same : s.document w = s₀.document w)
      (traced : ∀ p, Traced s₀.side s.side w desired (s₀.copy w) (s₀.copy w) p)
      (covered : s.side.Covered w (m.copy (s₀.copy w))) : Joint w desired s₀ past s m .waiting
  /-- The removal is under way, and the pass has not ended. -/
  | during {m : Standing} {b : Applied} (hm : m ≠ .finished) (turns : .second ∈ past)
      (same : s.document w = s₀.document w)
      (traced : ∀ p, Traced s₀.side s.side w desired (s₀.copy w) b p)
      (covered : s.side.Covered w (m.copy b)) : Joint w desired s₀ past s m (.working b)
  /-- The removal has ended, and the pass has not. -/
  | alone {m : Standing} (hm : m ≠ .finished) (covered : s.side.Covered w (m.copy (s.copy w))) :
      Joint w desired s₀ past s m .finished
  /-- The pass has ended, and the removal has not read the document. -/
  | unread (turns : .second ∉ past) (covered : s.side.Covered w (s.copy w)) :
      Joint w desired s₀ past s .finished .waiting
  /-- The removal is under way, and it started after the pass had ended. -/
  | late {b : Applied} (turns : ¬ Turn.Crossed past) (covered : s.side.Covered w b) :
      Joint w desired s₀ past s .finished (.working b)
  /-- The removal is under way, and the pass ended after it had started. -/
  | crossed {b : Applied} (turns : Turn.Crossed past)
      (traced : ∀ p, Traced s₀.side s.side w desired (s₀.copy w) b p) :
      Joint w desired s₀ past s .finished (.working b)
  /-- Both have ended, and the document tells every holder. -/
  | settled (turns : ¬ (Turn.Crossed past ∧ past.head? = some .second))
      (covered : s.side.Covered w (s.copy w)) : Joint w desired s₀ past s .finished .finished
  /-- Both have ended, and the pass ended while the removal was under way. -/
  | overtaken {b : Applied} (turns : Turn.Crossed past) (last : past.head? = some .second)
      (traced : ∀ p, Traced s₀.side s.side w desired (s₀.copy w) b p)
      (told : ∀ p named, (b.slot p).Tells named → ((s.copy w).slot p).Tells named) :
      Joint w desired s₀ past s .finished .finished

namespace Joint

variable {w : String} {desired : WorkflowSpec} {s₀ s s' : Site Fleet} {past : List Turn}
variable {m r : Standing} {a : Applied}

theorem copy_eq (hdoc : s'.document w = s.document w) : s'.copy w = s.copy w := by
  rw [copy, hdoc, copy]

/-- A document that tells what a working copy told tells every holder that the copy told. -/
theorem covered_copy (h : s.side.Covered w a) (hside : s'.side = s.side)
    (hdoc : ∀ p named, (a.slot p).Tells named → ((s'.copy w).slot p).Tells named) :
    s'.side.Covered w (s'.copy w) := by
  intro name p hholds
  rw [hside] at hholds
  exact hdoc p _ (h name p hholds)

/-! ### Turns of the pass -/

/-- The pass asks something that changes nothing. -/
theorem pass_idle (h : Joint w desired s₀ past s (.working a) r) (hidle : Idle s.side s'.side)
    (hdoc : s'.document w = s.document w) :
    Joint w desired s₀ (.first :: past) s' (.working a) r := by
  cases h with
  | before hm turns same traced covered =>
      exact .before hm (by simpa using turns) (hdoc.trans same) (fun p => (traced p).idle hidle)
        (covered.idle hidle)
  | during hm turns same traced covered =>
      exact .during hm (by simpa using turns) (hdoc.trans same) (fun p => (traced p).idle hidle)
        (covered.idle hidle)
  | alone hm covered => exact .alone hm (covered.idle hidle)

/-- The pass makes a call. -/
theorem pass_moved (h : Joint w desired s₀ past s (.working a) r)
    (hc : Continues s₀.side s.side) {a' : Applied} {p : String} {spec : PipelineSpec}
    {named : Option String} {action : PipelineAction} (hneeds : a.needs desired p = some action)
    (htells : (a.slot p).Tells named)
    (hmoved : Moved s.side w p spec (a.slot p) named action (a'.slot p) s'.side)
    (hothers : ∀ q, q ≠ p → a'.slot q = a.slot q) (hdoc : s'.document w = s.document w) :
    Joint w desired s₀ (.first :: past) s' (.working a') r := by
  have hholders : s.side.Covered w a → ∀ name, s.side.Holds name w p → named = some name :=
    fun covered name hholds => htells.unique (covered name p hholds)
  cases h with
  | before hm turns same traced covered =>
      exact .before (by simp) (by simpa using turns) (hdoc.trans same)
        (fun q => (traced q).of_pass hc hmoved hneeds (hholders covered))
        (covered.moved hmoved htells hothers)
  | during hm turns same traced covered =>
      exact .during (by simp) (by simpa using turns) (hdoc.trans same)
        (fun q => (traced q).of_pass hc hmoved hneeds (hholders covered))
        (covered.moved hmoved htells hothers)
  | alone hm covered => exact .alone (by simp) (covered.moved hmoved htells hothers)

/-- What the pass reads tells every holder, because a removal gives no agent a pipeline. -/
theorem pass_read (h : Joint w desired s₀ past s .waiting r) :
    Joint w desired s₀ past s (.working (s.copy w)) r := by
  cases h with
  | before hm turns same traced covered =>
      refine .before (by simp) turns same traced ?_
      rw [copy_eq same]
      exact covered
  | during hm turns same traced covered =>
      refine .during (by simp) turns same traced fun name p hholds => ?_
      have htells := covered name p hholds
      rw [copy_eq same]
      cases traced p with
      | kept hslot _ => exact hslot ▸ htells
      | gone lacks _ => cases lacks.unique htells
  | alone hm covered => exact .alone (by simp) covered

/-- The pass ends, with a document that tells what its working copy told. -/
theorem pass_ended (h : Joint w desired s₀ past s (.working a) r) (hside : s'.side = s.side)
    (hdoc : ∀ p named, (a.slot p).Tells named → ((s'.copy w).slot p).Tells named) :
    Joint w desired s₀ (.first :: past) s' .finished r := by
  cases h with
  | before hm turns same traced covered =>
      exact .unread (by simpa using turns) (covered_copy covered hside hdoc)
  | during hm turns same traced covered =>
      refine .crossed (Turn.crossed_cons_first turns) ?_
      rw [hside]
      exact traced
  | alone hm covered => exact .settled (by simp) (covered_copy covered hside hdoc)

/-! ### Turns of the removal -/

/-- The removal asks something that changes nothing. -/
theorem removal_idle {b : Applied} (h : Joint w desired s₀ past s m (.working b))
    (hidle : Idle s.side s'.side) (hdoc : s'.document w = s.document w) :
    Joint w desired s₀ (.second :: past) s' m (.working b) := by
  cases h with
  | during hm turns same traced covered =>
      exact .during hm (by simp) (hdoc.trans same) (fun p => (traced p).idle hidle)
        (covered.idle hidle)
  | late turns covered =>
      exact .late (mt (Turn.crossed_cons_second past).1 turns) (covered.idle hidle)
  | crossed turns traced =>
      exact .crossed ((Turn.crossed_cons_second past).2 turns) fun p => (traced p).idle hidle

/-- The removal makes a call. -/
theorem removal_moved {b b' : Applied} (h : Joint w desired s₀ past s m (.working b))
    (hc : Continues s₀.side s.side) {p : String} {spec : PipelineSpec} {named : Option String}
    (htells : (b.slot p).Tells named)
    (hmoved : Moved s.side w p spec (b.slot p) named .remove (b'.slot p) s'.side)
    (hothers : ∀ q, q ≠ p → b'.slot q = b.slot q) (hdoc : s'.document w = s.document w) :
    Joint w desired s₀ (.second :: past) s' m (.working b') := by
  cases h with
  | during hm turns same traced covered =>
      refine .during hm (by simp) (hdoc.trans same)
        (fun q => (traced q).of_removal hc hmoved hothers) ?_
      cases m with
      | waiting => exact covered.moved hmoved htells hothers
      | working a => exact covered.of_removal hmoved
      | finished => exact absurd rfl hm
  | late turns covered =>
      exact .late (mt (Turn.crossed_cons_second past).1 turns)
        (covered.moved hmoved htells hothers)
  | crossed turns traced =>
      exact .crossed ((Turn.crossed_cons_second past).2 turns)
        fun q => (traced q).of_removal hc hmoved hothers

/-- The removal reads the document. -/
theorem removal_read (h : Joint w desired s₀ past s m .waiting) (hside : s'.side = s.side)
    (hdoc : s'.document w = s.document w) :
    Joint w desired s₀ (.second :: past) s' m (.working (s.copy w)) := by
  cases h with
  | before hm turns same traced covered =>
      rw [copy_eq same]
      refine .during hm (by simp) (hdoc.trans same) ?_ ?_ <;> rw [hside]
      · exact traced
      · exact covered
  | unread turns covered =>
      refine .late (mt (Turn.crossed_cons_second past).1 fun h => turns h.mem) ?_
      rw [hside]
      exact covered

/-- The removal finds no document, and ends. -/
theorem removal_unread (h : Joint w desired s₀ past s m .waiting) (hside : s'.side = s.side)
    (hdoc : s'.document w = s.document w) :
    Joint w desired s₀ (.second :: past) s' m .finished := by
  cases h with
  | before hm turns same traced covered =>
      refine .alone hm ?_
      rw [hside, copy_eq (hdoc.trans same)]
      exact covered
  | unread turns covered =>
      refine .settled (fun h => turns ((Turn.crossed_cons_second past).1 h.1).mem) ?_
      rw [hside, copy_eq hdoc]
      exact covered

/-- The removal ends, with a document, or none, that tells what its working copy told. -/
theorem removal_ended {b : Applied} (h : Joint w desired s₀ past s m (.working b))
    (hside : s'.side = s.side)
    (hdoc : ∀ p named, (b.slot p).Tells named → ((s'.copy w).slot p).Tells named) :
    Joint w desired s₀ (.second :: past) s' m .finished := by
  cases h with
  | during hm turns same traced covered =>
      refine .alone hm ?_
      cases m with
      | waiting => exact covered_copy covered hside hdoc
      | working a =>
          rw [hside]
          exact covered
      | finished => exact absurd rfl hm
  | late turns covered =>
      exact .settled (fun h => turns ((Turn.crossed_cons_second past).1 h.1))
        (covered_copy covered hside hdoc)
  | crossed turns traced =>
      refine .overtaken ((Turn.crossed_cons_second past).2 turns) rfl ?_ hdoc
      rw [hside]
      exact traced

end Joint

end Site

end FleetControl
