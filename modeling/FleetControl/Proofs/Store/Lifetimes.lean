import FleetControl.Proofs.Store.Ledger

/-!
# The life of a key

A store does not keep where a key is in its life. It keeps two instants, the expiry and the deletion, and
every access works the rest out again from the clock. The answers to a run tell these instants, too: a
write that is carried out begins a term, with its expiry, and a deletion ends it. So what a key shows is
told by its term alone: it is live until the earlier of the two instants, a tombstone for the grace from
then on, and gone afterwards. Reads may drop it from memory, but only when it is gone, and nothing brings
it back but the next write.

All reads of a key agree on it, with one exception: in a table a scan under a scope with a NUL in it finds
nothing, whatever is there.

* `Term` and `Term.stage` — what is told of a key, and where that is in its life;
* `Backend.terms` — what the answers to a run tell;
* `StoreMove.Dated` — the dates that a move brings about are in the calendar;
* `Backend.Tallies` — a store has what was told of it, or dropped it when it was gone;
* `Backend.Tallies.moved`, `Backend.Tallies.foldl_moved` — every move keeps that, and so does a run;
* `Backend.Tallies.forward` — a term that is not renewed only goes forward;
* `Backend.life_of_key` — all of it for a run of a new store.
-/

namespace FleetControl

open Simulation (Backend)

/-! ## Terms -/

/-- How far in its life something is. -/
def Stage.rank : Stage → Nat
  | live => 0
  | tombstone => 1
  | gone => 2

theorem Stage.rank_le_gone (s : Stage) : s.rank ≤ gone.rank := by
  cases s <;> decide

/-- What a look-up shows of a key. -/
def Stage.seen : Option Snapshot → Stage
  | none => gone
  | some kv => if kv.dead then tombstone else live

/-- What is told of a key that was written: when it expires, and when it was deleted. -/
structure Term where
  expiresAt : Option Instant
  deletedAt : Option Instant

namespace Term

/-- The end of a term: the earlier of the deletion and the expiry. -/
def ends (t : Term) : Option Instant :=
  match t.deletedAt, t.expiresAt with
  | some d, some x => some (if d.nanos ≤ x.nanos then d else x)
  | some d, none => some d
  | none, expiry => expiry

/-- Where a key is in its life: it is live until its term ends, a tombstone during the grace from then
on, and gone afterwards. A key without a term is gone. -/
def stage (grace : Span) (now : Instant) : Option Term → Stage
  | none => .gone
  | some t =>
    match t.ends with
    | none => .live
    | some d =>
      if now.nanos < d.nanos then .live
      else if now.nanos < (d.add grace).nanos then .tombstone
      else .gone

/-- A deletion is in the past and came before the expiry, and the grace ends in the calendar. -/
structure Sound (grace : Span) (now : Instant) (t : Term) : Prop where
  past : ∀ d, t.deletedAt = some d → d.nanos ≤ now.nanos
  early : ∀ d x, t.deletedAt = some d → t.expiresAt = some x → d.nanos < x.nanos
  dated : ∀ d, t.ends = some d → (d.add? grace).isSome = true ∧ grace.forDates = grace

variable {grace : Span} {now : Instant} {t : Term}

theorem stage_of_endless (h : t.ends = none) (grace : Span) (now : Instant) :
    stage grace now (some t) = .live := by
  simp only [stage, h]

theorem stage_of_ends {d : Instant} (h : t.ends = some d) (grace : Span) (now : Instant) :
    stage grace now (some t) =
      if now.nanos < d.nanos then .live
      else if now.nanos < (d.add grace).nanos then .tombstone
      else .gone := by
  simp only [stage, h]

/-- **A term only goes forward.** -/
theorem rank_stage_mono {now later : Instant} (h : now.nanos ≤ later.nanos) (grace : Span)
    (told : Option Term) : (stage grace now told).rank ≤ (stage grace later told).rank := by
  cases told with
  | none => exact Nat.le_refl _
  | some t =>
      cases hends : t.ends with
      | none => rw [stage_of_endless hends, stage_of_endless hends]
      | some d =>
          rw [stage_of_ends hends, stage_of_ends hends]
          by_cases hended : now.nanos < d.nanos
          · rw [if_pos hended]
            exact Nat.zero_le _
          · have hended' : ¬ later.nanos < d.nanos := by omega
            rw [if_neg hended, if_neg hended']
            by_cases hover : now.nanos < (d.add grace).nanos
            · rw [if_pos hover]
              split <;> simp [Stage.rank]
            · have hover' : ¬ later.nanos < (d.add grace).nanos := by omega
              rw [if_neg hover, if_neg hover']

theorem stage_eq_gone_of_le {now later : Instant} (h : now.nanos ≤ later.nanos)
    {told : Option Term} (hgone : stage grace now told = .gone) :
    stage grace later told = .gone := by
  have hrank := rank_stage_mono h grace told
  rw [hgone] at hrank
  cases hlater : stage grace later told with
  | live | tombstone => rw [hlater] at hrank; simp [Stage.rank] at hrank
  | gone => rfl

theorem Sound.later {now later : Instant} (h : t.Sound grace now) (hle : now.nanos ≤ later.nanos) :
    t.Sound grace later :=
  ⟨fun d hd => Int.le_trans (h.past d hd) hle, h.early, h.dated⟩

/-- A deletion in good time is the end of the term. -/
theorem ends_of_deleted {d : Instant} (hdeleted : t.deletedAt = some d)
    (hearly : ∀ x, t.expiresAt = some x → d.nanos < x.nanos) : t.ends = some d := by
  unfold ends
  rw [hdeleted]
  cases hexpires : t.expiresAt with
  | none => rfl
  | some x => exact congrArg some (if_pos (Int.le_of_lt (hearly x hexpires)))

/-- What is live has not expired. -/
theorem Sound.not_expired (h : t.Sound grace now) (hlive : stage grace now (some t) = .live)
    {x : Instant} (hexpires : t.expiresAt = some x) : now.nanos < x.nanos := by
  have hbefore : ∀ d, t.ends = some d → now.nanos < d.nanos := by
    intro d hends
    rw [stage_of_ends hends] at hlive
    by_contra hended
    rw [if_neg hended] at hlive
    split at hlive <;> cases hlive
  cases hdeleted : t.deletedAt with
  | none =>
      refine hbefore x ?_
      unfold ends
      rw [hdeleted]
      exact hexpires
  | some d =>
      have hends := ends_of_deleted hdeleted fun x hx => h.early d x hdeleted hx
      exact absurd (h.past d hdeleted) (Int.not_le.2 (hbefore d hends))

/-- A term that does not end. -/
theorem sound_of_endless (grace : Span) (now : Instant) : (⟨none, none⟩ : Term).Sound grace now :=
  ⟨nofun, nofun, nofun⟩

end Term

/-- A span that leads from one date to another is added to dates as it is. -/
theorem Span.forDates_of_dated {s : Span} {t : Instant} (ht : t.hasDate = true)
    (hsum : (t.add? s).isSome = true) : s.forDates = s := by
  have hle : t.nanos + s.nanos ≤ Instant.last.nanos := by
    unfold Instant.add? at hsum
    split at hsum
    · next h => exact h
    · cases hsum
  simp only [Instant.hasDate, Bool.and_eq_true, decide_eq_true_eq] at ht
  have hfirst : Instant.first.nanos = -8334601228800000000000 := by decide
  have hlast : Instant.last.nanos = 8210266876799999999999 := by decide
  unfold Span.forDates
  rw [if_pos]
  have hbound : (Word.count63 - 1) * Span.perMilli = 9223372036854775807000000 := by decide
  rw [hbound]
  omega

/-- A sum that has a date is a date. -/
theorem Instant.add?_of_dated {t : Instant} {s : Span} (ht : t.hasDate = true)
    (hsum : (t.add? s).isSome = true) :
    t.add? s = some (t.add s) ∧ (t.add s).hasDate = true := by
  unfold Instant.add? at hsum ⊢
  split at hsum
  · next hle =>
    rw [if_pos hle]
    refine ⟨rfl, ?_⟩
    simp only [hasDate, Bool.and_eq_true, decide_eq_true_eq] at ht ⊢
    have hnanos : (t.add s).nanos = t.nanos + s.nanos := rfl
    exact ⟨by omega, hle⟩
  · cases hsum

namespace Entry

/-- The term of an entry. -/
def term (e : Entry) : Term := ⟨e.expiresAt, e.deletedAt⟩

variable {e : Entry} {grace : Span} {now : Instant}

/-- The instant of death is the end of the term, once that has come. -/
theorem deadSince_eq (h : e.term.Sound grace now) :
    e.deadSince now = e.term.ends.filter fun d => d.nanos ≤ now.nanos := by
  unfold deadSince Term.ends term
  cases hdeleted : e.deletedAt with
  | none => simp
  | some d =>
      have hpast : d.nanos ≤ now.nanos := h.past d hdeleted
      cases hexpires : e.expiresAt with
      | none => simp [hpast, Option.filter_some]
      | some x =>
          have hearly : d.nanos < x.nanos := h.early d x hdeleted hexpires
          simp [hpast, Int.le_of_lt hearly, Option.filter_some]

/-- **Where an entry is in its life is told by its term.** -/
theorem stage_eq_term (h : e.term.Sound grace now) :
    e.stage grace.forDates now = Term.stage grace now (some e.term) := by
  unfold stage
  rw [deadSince_eq h]
  cases hends : e.term.ends with
  | none =>
      rw [Term.stage_of_endless hends]
      rfl
  | some d =>
      obtain ⟨-, hgrace⟩ := h.dated d hends
      rw [hgrace, Term.stage_of_ends hends, Option.filter_some]
      by_cases hended : d.nanos ≤ now.nanos
      · rw [if_pos (decide_eq_true hended), if_neg (Int.not_lt.2 hended)]
      · rw [if_neg (by simpa using hended), if_pos (Int.not_le.1 hended)]

/-- The end of its grace has a date. -/
theorem datable_of_sound (h : e.term.Sound grace now) : e.datable grace.forDates now = true := by
  unfold datable
  rw [deadSince_eq h]
  cases hends : e.term.ends with
  | none => rfl
  | some d =>
      obtain ⟨hsum, hgrace⟩ := h.dated d hends
      rw [hgrace, Option.filter_some]
      by_cases hended : d.nanos ≤ now.nanos
      · simpa [hended] using hsum
      · simp [hended]

end Entry

/-! ## What the answers tell -/

/-- The term of its key after an operation that is carried out. -/
def StoreOp.term (now : Instant) (told : Option Term) : StoreOp → Option Term
  | set .. => some ⟨none, none⟩
  | setFor _ _ ttl => some ⟨some (now.add ttl), none⟩
  | create .. => some ⟨none, none⟩
  | replace .. => some ⟨none, none⟩
  | delete _ => told.map fun t => { t with deletedAt := some now }
  | _ => told

/-- The dates that a move brings about are in the calendar: the expiry of what is written, and the end of
the grace after an expiry or a deletion. -/
def StoreMove.Dated (grace : Span) : StoreMove → Prop
  | ask now (.setFor _ _ ttl) =>
    now.hasDate = true ∧ (now.add? ttl).isSome = true ∧ ((now.add ttl).add? grace).isSome = true
  | ask now (.delete _) => now.hasDate = true ∧ (now.add? grace).isSome = true
  | _ => True

namespace Simulation.Backend

/-- What is told of the keys after a move. A key that is removed without a trace has no term. -/
def tells (b : Backend) (told : String → Option Term) : StoreMove → String → Option Term
  | .ask now op, key =>
    if op.target? = some key ∧ (b.apply now op).1.isAnswer = true then op.term now (told key)
    else told key
  | .compact _, key => told key
  | .purge k, key =>
    match b with
    | memory _ => if key = k then none else told key
    | table _ => told key

/-- What the answers to a run tell of the keys. -/
def terms : List StoreMove → Backend → (String → Option Term) → String → Option Term
  | [], _, told => told
  | move :: rest, b, told => terms rest (b.moved move) (b.tells told move)

/-- A write of a key is carried out. -/
def writes (b : Backend) (key : String) : StoreMove → Prop
  | .ask now op => (∃ w, op.writing? = some w ∧ w.key = key) ∧ (b.apply now op).1.isAnswer = true
  | _ => False

/-- No write of a key is carried out in a run. -/
def Unwritten (key : String) : List StoreMove → Backend → Prop
  | [], _ => True
  | move :: rest, b => ¬ b.writes key move ∧ Unwritten key rest (b.moved move)

/-- What a store has of the keys is what was told of them. What it does not have is gone. -/
structure Tallies (grace : Span) (now : Instant) (b : Backend) (told : String → Option Term) :
    Prop where
  grace_eq : b.grace = grace.forDates
  entry : ∀ key e, b.entry? key = some e → told key = some e.term
  dropped : ∀ key, b.entry? key = none → Term.stage grace now (told key) = .gone
  sound : ∀ key t, told key = some t → t.Sound grace now

namespace Tallies

variable {grace : Span} {now : Instant} {b : Backend} {told : String → Option Term} {key : String}

/-- Of a new store nothing is told. -/
theorem fresh (durable : Bool) (grace : Span) (now : Instant) :
    Tallies grace now (fresh durable grace) fun _ => none := by
  refine ⟨?_, fun key e he => ?_, fun _ _ => rfl, nofun⟩
  · cases durable <;> rfl
  · rw [no_entry_fresh] at he
    cases he

theorem later (h : Tallies grace now b told) {later : Instant} (hle : now.nanos ≤ later.nanos) :
    Tallies grace later b told :=
  ⟨h.grace_eq, h.entry, fun key hnone => Term.stage_eq_gone_of_le hle (h.dropped key hnone),
    fun key t ht => (h.sound key t ht).later hle⟩

/-- An entry is where its term is. -/
theorem stage_eq (h : Tallies grace now b told) {e : Entry} (he : b.entry? key = some e) :
    e.stage b.grace now = Term.stage grace now (told key) := by
  have htold := h.entry key e he
  rw [h.grace_eq, htold, Entry.stage_eq_term (h.sound key _ htold)]

/-- All dates that reads compare exist. -/
theorem datableAt (h : Tallies grace now b told) (key : String) : b.DatableAt now key := by
  intro e he
  rw [h.grace_eq]
  exact Entry.datable_of_sound (h.sound key _ (h.entry key e he))

/-- **What a store shows of a key is told by its term.** -/
theorem seen_eq (h : Tallies grace now b told) (key : String) :
    Stage.seen (b.shown? now key) = Term.stage grace now (told key) := by
  unfold shown?
  cases hentry : b.entry? key with
  | none => exact (h.dropped key hentry).symm
  | some e =>
      rw [← h.stage_eq hentry]
      cases hstage : e.stage b.grace now <;>
        simp [Option.filter_some, hstage, Stage.seen, Entry.snapshot]

/-- What is live has a term that has not ended. -/
theorem live (h : Tallies grace now b told) {e : Entry} (he : b.live? now key = some e) :
    told key = some e.term ∧ Term.stage grace now (told key) = .live := by
  obtain ⟨hentry, hlive⟩ := (live?_eq_some_iff _ _ _ _).1 he
  exact ⟨h.entry key e hentry, by rw [← h.stage_eq hentry, hlive]⟩

/-! ## Moves -/

/-- Dropping what is gone leaves what is told. -/
theorem sheds {b' : Backend} (h : Tallies grace now b told) (hsheds : Sheds now b b') :
    Tallies grace now b' told := by
  refine ⟨hsheds.grace.trans h.grace_eq, fun key e he => h.entry key e (hsheds.before he),
    fun key hnone => ?_, h.sound⟩
  rcases hsheds.entry key with hsame | ⟨e, hentry, hgone, -⟩
  · exact h.dropped key (hsame ▸ hnone)
  · rw [← h.stage_eq hentry, hgone]

/-- **What is carried out puts an entry in place whose term is the one that is told.** -/
theorem entered (h : Tallies grace now b told) {op : StoreOp} {version : Nat} {e : Entry}
    (htarget : op.target? = some key) (hdated : StoreMove.Dated grace (.ask now op))
    (hentered : op.entered now version (b.live? now key) = some e) :
    op.term now (told key) = some e.term ∧ e.term.Sound grace now := by
  cases op with
  | get _ | getAny _ | contains _ | list _ => cases htarget
  | set _ data | create _ data | replace _ data =>
      obtain rfl := Option.some.inj hentered
      exact ⟨rfl, Term.sound_of_endless grace now⟩
  | setFor _ data ttl =>
      obtain rfl := Option.some.inj hentered
      obtain ⟨hnow, hexpiry, hover⟩ := hdated
      obtain ⟨hsum, hdate⟩ := Instant.add?_of_dated hnow hexpiry
      have hgrace := Span.forDates_of_dated hdate hover
      simp only [StoreOp.term, Entry.term, Span.forDates_of_dated hnow hexpiry, hsum, true_and]
      refine ⟨nofun, nofun, fun d hd => ?_⟩
      obtain rfl := Option.some.inj hd
      exact ⟨hover, hgrace⟩
  | delete _ =>
      obtain rfl := Option.some.inj htarget
      obtain ⟨e₀, hlive, rfl⟩ := Option.map_eq_some_iff.1 hentered
      obtain ⟨hnow, hover⟩ := hdated
      obtain ⟨htold, hstage⟩ := h.live hlive
      rw [htold] at hstage ⊢
      -- What is live expires later, so the deletion is the end of the term.
      have hearly : ∀ x, e₀.term.expiresAt = some x → now.nanos < x.nanos := fun x hx =>
        (h.sound _ _ htold).not_expired hstage hx
      have hends := Term.ends_of_deleted (t := ⟨e₀.expiresAt, some now⟩) rfl hearly
      refine ⟨rfl, fun d hd => ?_, fun d x hd hx => ?_, fun d hd => ?_⟩
      · obtain rfl := Option.some.inj hd
        exact Int.le_refl _
      · obtain rfl := Option.some.inj hd
        exact hearly x hx
      · obtain rfl := Option.some.inj (hends.symm.trans hd)
        exact ⟨hover, Span.forDates_of_dated hnow hover⟩

/-- Putting the entry of a told term in place leaves what is told. -/
theorem puts {b' : Backend} {e : Entry} (h : Tallies grace now b told) (hputs : Puts b b' key e)
    (hsound : e.term.Sound grace now) :
    Tallies grace now b' fun k => if k = key then some e.term else told k := by
  refine ⟨hputs.grace.trans h.grace_eq, fun k e' he => ?_, fun k hnone => ?_, fun k t ht => ?_⟩
  · rw [hputs.entry] at he
    split at he
    · next hk =>
      obtain rfl := Option.some.inj he
      rw [if_pos hk]
    · next hk =>
      rw [if_neg hk]
      exact h.entry k e' he
  · rw [hputs.entry] at hnone
    split at hnone
    · cases hnone
    · next hk =>
      rw [if_neg hk]
      exact h.dropped k hnone
  · split at ht
    · obtain rfl := Option.some.inj ht
      exact hsound
    · exact h.sound k t ht

/-- **Every operation** keeps what is told of the keys. -/
theorem ask (h : Tallies grace now b told) {op : StoreOp}
    (hdated : StoreMove.Dated grace (.ask now op)) :
    Tallies grace now (b.apply now op).2 (b.tells told (.ask now op)) := by
  cases b.effect_apply now op with
  | @changed key e target _ entered answered _ puts =>
      obtain ⟨hterm, hsound⟩ := h.entered target hdated entered
      have hafter := h.puts puts hsound
      have htells : b.tells told (.ask now op) = fun k => if k = key then some e.term else told k := by
        funext k
        simp only [tells, target, answered, and_true, Option.some.injEq]
        by_cases hk : k = key
        · rw [if_pos hk.symm, if_pos hk, hk, hterm]
        · rw [if_neg fun heq => hk heq.symm, if_neg hk]
      rw [htells]
      exact hafter
  | kept failed sheds =>
      have htells : b.tells told (.ask now op) = told := by
        funext k
        simp only [tells]
        rw [if_neg]
        rintro ⟨htarget, hanswered⟩
        rw [(failed k htarget).1] at hanswered
        cases hanswered
      rw [htells]
      exact h.sheds sheds

/-- **Every move** keeps what is told of the keys. -/
theorem moved (h : Tallies grace now b told) {move : StoreMove} (hdated : move.Dated grace)
    (hle : now.nanos ≤ (move.instant now).nanos) :
    Tallies grace (move.instant now) (b.moved move) (b.tells told move) := by
  have hlater := h.later hle
  cases move with
  | ask at' op => exact hlater.ask hdated
  | compact at' => exact hlater.sheds (b.sheds_compact at')
  | purge key =>
      cases b with
      | table t => exact h
      | memory m =>
          refine ⟨h.grace_eq, fun k e he => ?_, fun k hnone => ?_, fun k t ht => ?_⟩
          all_goals simp only [tells] at *
          · have herased : (m.entries.erase key).get? k = some e := he
            rw [KeyMap.get?_erase] at herased
            split at herased
            · cases herased
            · next hk =>
              rw [if_neg hk]
              exact h.entry k e herased
          · split
            · rfl
            · next hk =>
              have herased : (m.entries.erase key).get? k = none := hnone
              rw [KeyMap.get?_erase, if_neg hk] at herased
              exact h.dropped k herased
          · split at ht
            · cases ht
            · exact h.sound k t ht

/-- **A run** keeps what is told of the keys. -/
theorem foldl_moved (h : Tallies grace now b told) {moves : List StoreMove} {stop : Instant}
    (honward : Onward now moves stop) (hdated : ∀ move ∈ moves, move.Dated grace) :
    Tallies grace stop (moves.foldl Backend.moved b) (b.terms moves told) := by
  induction moves generalizing now b told with
  | nil => exact h.later honward
  | cons move rest ih =>
      obtain ⟨hle, hrest⟩ := honward
      exact ih (h.moved (hdated move (by simp)) hle) hrest fun other hother =>
        hdated other (by simp [hother])

/-! ## Going forward -/

/-- What was carried out and is no write was the deletion of something live. -/
private theorem deleted_was_live {op : StoreOp} (htarget : op.target? = some key)
    (hanswered : (b.apply now op).1.isAnswer = true) (hunwritten : ¬ b.writes key (.ask now op)) :
    ∃ e, b.live? now key = some e := by
  have hadmitted := ((answers_iff htarget).1 hanswered).1
  cases op with
  | get _ | getAny _ | contains _ | list _ => cases htarget
  | set k _ | setFor k _ _ | create k _ | replace k _ =>
      exact absurd ⟨⟨_, rfl, Option.some.inj htarget⟩, hanswered⟩ hunwritten
  | delete _ => exact Option.isSome_iff_exists.1 hadmitted

/-- A move that is no write of a key takes its term forward. -/
theorem rank_tells (h : Tallies grace now b told) {move : StoreMove}
    (hle : now.nanos ≤ (move.instant now).nanos) (hunwritten : ¬ b.writes key move) :
    (Term.stage grace now (told key)).rank ≤
      (Term.stage grace (move.instant now) (b.tells told move key)).rank := by
  have hmono := Term.rank_stage_mono hle grace (told key)
  cases move with
  | compact at' => exact hmono
  | purge k =>
      cases b with
      | table t => exact hmono
      | memory m =>
          simp only [tells]
          split
          · exact Stage.rank_le_gone _
          · exact hmono
  | ask at' op =>
      simp only [tells]
      split
      · next hcarried =>
        -- What is carried out is a deletion, and only what is live is deleted.
        obtain ⟨htarget, hanswered⟩ := hcarried
        obtain ⟨e, hlive⟩ := deleted_was_live htarget hanswered hunwritten
        have hbefore : Term.stage grace ((StoreMove.ask at' op).instant now) (told key) = .live :=
          ((h.later hle).live hlive).2
        rw [hbefore] at hmono
        exact Nat.le_trans hmono (Nat.zero_le _)
      · exact hmono

/-- **A key that is not written only goes forward.** -/
theorem forward (h : Tallies grace now b told) {moves : List StoreMove} {stop : Instant}
    (honward : Onward now moves stop) (hdated : ∀ move ∈ moves, move.Dated grace)
    (hunwritten : b.Unwritten key moves) :
    (Term.stage grace now (told key)).rank ≤
      (Term.stage grace stop (b.terms moves told key)).rank := by
  induction moves generalizing now b told with
  | nil => exact Term.rank_stage_mono honward grace _
  | cons move rest ih =>
      obtain ⟨hle, hrest⟩ := honward
      have hmoved := h.moved (hdated move (by simp)) hle
      exact Nat.le_trans (h.rank_tells hle hunwritten.1)
        (ih hmoved hrest (fun other hother => hdated other (by simp [hother])) hunwritten.2)

end Tallies

/-! ## What reads agree on -/

section Reads

variable {now : Instant} {b : Backend} {key scope : String}

/-- What is shown and is no tombstone is what is live. -/
theorem shown?_filter_dead (b : Backend) (now : Instant) (key : String) :
    (b.shown? now key).filter (fun kv => !kv.dead) =
      (b.live? now key).map fun e => e.snapshot key .live := by
  unfold shown? live?
  cases b.entry? key with
  | none => rfl
  | some e =>
      cases hstage : e.stage b.grace now <;> simp [Option.filter_some, hstage, Entry.snapshot]

/-- **Reading a key** answers with what a look-up shows, unless that is a tombstone. -/
theorem get_eq_shown (h : b.DatableAt now key) :
    (b.apply now (.get key)).1 =
      ((b.shown? now key).filter fun kv => !kv.dead).elim (.refused (.keyNotFound key)) .answer := by
  rw [get_eq h, shown?_filter_dead]
  cases b.live? now key <;> rfl

/-- **Asking for a key** tells whether a look-up shows it and it is no tombstone. -/
theorem contains_eq_shown (h : b.DatableAt now key) :
    (b.apply now (.contains key)).1 = .answer ((b.shown? now key).any fun kv => !kv.dead) := by
  have hany : (b.shown? now key).any (fun kv => !kv.dead) =
      ((b.shown? now key).filter fun kv => !kv.dead).isSome := by
    cases b.shown? now key with
    | none => rfl
    | some kv => cases hdead : kv.dead <;> simp [Option.filter_some, hdead]
  rw [contains_eq h, hany, shown?_filter_dead, Option.isSome_map]

/-- **A scan agrees with a look-up** of a key under its scope exactly if it finds anything at all or
there is nothing to find. -/
theorem list_agrees_iff {found : List Snapshot}
    (h : (b.apply now (.list scope)).1 = .answer found) (hunder : under scope key = true) :
    (∀ kv, kv ∈ found ∧ kv.key = key ↔ b.shown? now key = some kv) ↔
      b.scans scope = true ∨ b.shown? now key = none := by
  have hlisted : b.apply now (.list scope) = (.answer found, (b.apply now (.list scope)).2) :=
    Prod.ext h rfl
  have hmem := mem_list_iff hlisted
  constructor
  · intro hagrees
    cases hshown : b.shown? now key with
    | none => exact .inr rfl
    | some kv => exact .inl ((hmem kv).1 ((hagrees kv).2 hshown).1).1
  · rintro (hscans | hnone) kv
    · rw [hmem]
      constructor
      · rintro ⟨⟨-, -, hshown⟩, rfl⟩
        exact hshown
      · intro hshown
        obtain rfl := key_of_shown? hshown
        exact ⟨⟨hscans, hunder, hshown⟩, rfl⟩
    · rw [hmem, hnone]
      constructor
      · rintro ⟨⟨-, -, hshown⟩, rfl⟩
        rw [hnone] at hshown
        cases hshown
      · nofun

end Reads

/-! ## Runs of a new store -/

/-- **The life of a key.** At the end of a run of a new store whose dates lie in the calendar a look-up
of a key ends and shows what its term tells: live until the earlier of its expiry and its deletion, a
tombstone for the grace from then on, gone afterwards, and gone if it was never written. The other reads
agree with the look-up, scans of the table only if their scope has no NUL in it or there is nothing to
find. However the run goes on, without a write of the key it only goes forward. -/
theorem life_of_key (durable : Bool) (grace : Span) (key : String) {moves more : List StoreMove}
    {start now later : Instant} (honward : Onward start moves now) (hmore : Onward now more later)
    (hdated : ∀ move ∈ moves ++ more, move.Dated grace) :
    let b := moves.foldl moved (fresh durable grace)
    let told := (fresh durable grace).terms moves fun _ => none
    ∃ shown, (b.apply now (.getAny key)).1 = .answer shown ∧
      Stage.seen shown = Term.stage grace now (told key) ∧
      (b.apply now (.get key)).1 =
        (shown.filter fun kv => !kv.dead).elim (.refused (.keyNotFound key)) .answer ∧
      (b.apply now (.contains key)).1 = .answer (shown.any fun kv => !kv.dead) ∧
      (∀ scope, under scope key = true → ∃ found : List Snapshot,
        (b.apply now (.list scope)).1 = .answer found ∧
          ((∀ kv, kv ∈ found ∧ kv.key = key ↔ shown = some kv) ↔
            b.scans scope = true ∨ shown = none)) ∧
      (b.Unwritten key more → ∃ shown',
        ((more.foldl moved b).apply later (.getAny key)).1 = .answer shown' ∧
          (Stage.seen shown).rank ≤ (Stage.seen shown').rank) := by
  intro b told
  have hbefore : Tallies grace now b told :=
    (Tallies.fresh durable grace start).foldl_moved honward fun move hmove =>
      hdated move (List.mem_append_left _ hmove)
  have hrest : ∀ move ∈ more, move.Dated grace := fun move hmove =>
    hdated move (List.mem_append_right _ hmove)
  have hafter := hbefore.foldl_moved hmore hrest
  have hdatable := hbefore.datableAt
  refine ⟨b.shown? now key, getAny_eq (hdatable key), hbefore.seen_eq key, get_eq_shown (hdatable key),
    contains_eq_shown (hdatable key), fun scope hunder => ?_, fun hunwritten => ?_⟩
  · obtain ⟨found, hfound⟩ := (list_answers_iff b now scope).2 fun _ other _ => hdatable other
    exact ⟨found, hfound, list_agrees_iff hfound hunder⟩
  · refine ⟨_, getAny_eq (hafter.datableAt key), ?_⟩
    rw [hbefore.seen_eq, hafter.seen_eq]
    exact hbefore.forward hmore hrest hunwritten

/-- A key that was written for ten seconds is a tombstone after fifteen and not live again after
sixty. -/
theorem expired_key_is_tombstone :
    let at' := fun seconds : Nat => (⟨seconds * 1000000000, false⟩ : Instant)
    let b := [StoreMove.ask (at' 0) (.setFor "a" [1] (Span.ofSeconds 10))].foldl moved
      (fresh false defaultGrace)
    ∃ shown shown', (b.apply (at' 15) (.getAny "a")).1 = .answer shown ∧
      Stage.seen shown = .tombstone ∧
      (b.apply (at' 15) (.contains "a")).1 = .answer (shown.any fun kv => !kv.dead) ∧
      (([StoreMove.compact (at' 50)].foldl moved b).apply (at' 60) (.getAny "a")).1 =
        .answer shown' ∧ Stage.tombstone.rank ≤ (Stage.seen shown').rank := by
  intro at' b
  have honward : Onward (at' 0) [.ask (at' 0) (.setFor "a" [1] (Span.ofSeconds 10))] (at' 15) := by
    simp [Onward, StoreMove.instant, at']
  have hmore : Onward (at' 15) [.compact (at' 50)] (at' 60) := by
    simp [Onward, StoreMove.instant, at']
  obtain ⟨shown, hshown, hstage, -, hcontains, -, hforward⟩ :=
    life_of_key false defaultGrace "a" honward hmore (by
      intro move hmove
      rcases List.mem_cons.1 hmove with rfl | hmove
      · exact ⟨by decide, by decide, by decide⟩
      · obtain rfl := List.mem_singleton.1 hmove
        trivial)
  have htombstone : Stage.seen shown = .tombstone := hstage.trans (by decide)
  obtain ⟨shown', hshown', hrank⟩ := hforward ⟨nofun, trivial⟩
  rw [htombstone] at hrank
  exact ⟨shown, shown', hshown, htombstone, hcontains, hshown', hrank⟩

/-- In a table a key with a NUL in it is live, and the scan of a scope that it is under does not show
it. -/
theorem live_key_missed_under_nul :
    let now : Instant := ⟨1735689600000000000, false⟩
    ¬ ∀ (moves : List StoreMove) (key scope : String) (kv : Snapshot) (found : List Snapshot),
      under scope key = true →
      ((moves.foldl moved (fresh true defaultGrace)).apply now (.getAny key)).1 =
        .answer (some kv) →
      ((moves.foldl moved (fresh true defaultGrace)).apply now (.list scope)).1 = .answer found →
        kv ∈ found := by
  intro now h
  have hmem := h [.ask now (.set "w\x00/x" [49])] "w\x00/x" "w\x00/"
    ⟨"w\x00/x", [49], 1, none, false⟩ [] (by decide) rfl rfl
  cases hmem

end Simulation.Backend

end FleetControl
