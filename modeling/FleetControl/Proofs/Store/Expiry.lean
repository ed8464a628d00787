import FleetControl.Proofs.Store.Lifetimes

/-!
# How long a time to live lasts

A key that is written with a time to live is live from then on and dead from its expiry on, whatever
else is done with the store, as long as nobody writes or deletes the key. Reads, compaction and
attempts that fail may drop its entry, but not before it has expired.

When that is depends on the span in a way that its length alone does not tell. A span of up to `2^63
- 1` milliseconds is added to the date as it is, and the key is not written if the sum lies beyond
the last date; a longer span counts as 365 days. So there are spans in the middle that cannot be
used at all, and of two keys that are written at the same instant the one with the longer time to
live may expire first.

* `Backend.Untouched` — nobody writes or deletes a key in a run;
* `Backend.Keeps` — a store has an entry that expires, or dropped it after that;
* `Backend.Keeps.moved`, `Backend.Keeps.foldl_moved` — every move keeps that, and so does a run;
* `Backend.Keeps.get_iff` — what reading the key then answers;
* `Backend.LivesFor` — a key lives for exactly as long as it was written for;
* `Span.forDates_le_iff` — when a longer span leads to a later date;
* `Backend.time_to_live` — all of it.
-/

namespace FleetControl

open Simulation (Backend)

/-! ## Spans that are added to dates -/

namespace Span

/-- The longest span that is added to dates as it is. -/
def longestForDates : Span := ofMillis (Word.count63 - 1)

/-- What longer spans count as. -/
def year : Span := ofSeconds (365 * 86400)

theorem forDates_of_le {s : Span} (h : s.nanos ≤ longestForDates.nanos) : s.forDates = s :=
  if_pos h

theorem forDates_of_lt {s : Span} (h : longestForDates.nanos < s.nanos) : s.forDates = year :=
  if_neg (Nat.not_le.2 h)

theorem year_le_longestForDates : year.nanos ≤ longestForDates.nanos := by
  decide

/-- **A longer span leads to a date that is not earlier**, unless it is one that counts as 365 days
and the shorter one is longer than that and does not. -/
theorem forDates_le_iff {s s' : Span} (h : s.nanos ≤ s'.nanos) :
    s.forDates.nanos ≤ s'.forDates.nanos ↔
      s.nanos ≤ year.nanos ∨ longestForDates.nanos < s.nanos ∨
        s'.nanos ≤ longestForDates.nanos := by
  have hyear := year_le_longestForDates
  rcases Nat.lt_or_ge longestForDates.nanos s'.nanos with hlong' | hshort'
  · rw [forDates_of_lt hlong']
    rcases Nat.lt_or_ge longestForDates.nanos s.nanos with hlong | hshort
    · rw [forDates_of_lt hlong]
      omega
    · rw [forDates_of_le hshort]
      omega
  · rw [forDates_of_le hshort', forDates_of_le (Nat.le_trans h hshort')]
    omega

end Span

/-- An entry that expires and was not deleted is live before that, and only then. -/
theorem Entry.live_iff_before {e : Entry} {expiry : Instant} (hkept : e.deletedAt = none)
    (hexpires : e.expiresAt = some expiry) (grace : Span) (now : Instant) :
    e.stage grace now = .live ↔ now.nanos < expiry.nanos := by
  unfold stage deadSince
  rw [hkept, hexpires]
  by_cases hover : expiry.nanos ≤ now.nanos
  · have hnot : ¬ now.nanos < expiry.nanos := Int.not_lt.2 hover
    simp only [Option.none_or, Option.orElse_eq_orElse, Option.orElse_eq_or, Option.filter_some, hover,
      decide_true, if_true, hnot, iff_false]
    split <;> nofun
  · simp [Option.filter_some, hover, Int.not_le.1 hover]

namespace Simulation.Backend

/-! ## A key that is left alone -/

/-- A move that a key is written or deleted by, or removed without a trace. -/
def touches (b : Backend) (key : String) : StoreMove → Prop
  | .ask now op => op.target? = some key ∧ (b.apply now op).1.isAnswer = true
  | .compact _ => False
  | .purge other => other = key

/-- Nobody writes or deletes a key in a run. -/
def Untouched (key : String) : List StoreMove → Backend → Prop
  | [], _ => True
  | move :: rest, b => ¬ b.touches key move ∧ Untouched key rest (b.moved move)

/-- A store has an entry that expires, or dropped it after that. -/
structure Keeps (now : Instant) (b : Backend) (key : String) (e : Entry) (expiry : Instant) :
    Prop where
  undeleted : e.deletedAt = none
  expires : e.expiresAt = some expiry
  entry : b.entry? key = some e ∨ b.entry? key = none ∧ expiry.nanos ≤ now.nanos

namespace Keeps

variable {now : Instant} {b b' : Backend} {key : String} {e : Entry} {expiry : Instant}

theorem later (h : Keeps now b key e expiry) {later : Instant} (hle : now.nanos ≤ later.nanos) :
    Keeps later b key e expiry :=
  ⟨h.undeleted, h.expires, h.entry.imp_right fun ⟨hnone, hover⟩ => ⟨hnone, Int.le_trans hover hle⟩⟩

/-- What another store has of the key, this one has, too. -/
theorem congr (h : Keeps now b key e expiry) (hsame : b'.entry? key = b.entry? key) :
    Keeps now b' key e expiry :=
  ⟨h.undeleted, h.expires, hsame ▸ h.entry⟩

/-- The entry is dropped only when it is gone, and then it has expired. -/
theorem sheds (h : Keeps now b key e expiry) (hsheds : Sheds now b b') :
    Keeps now b' key e expiry := by
  rcases hsheds.entry key with hsame | ⟨e', hentry, hgone, hnone⟩
  · exact h.congr hsame
  · refine ⟨h.undeleted, h.expires, .inr ⟨hnone, ?_⟩⟩
    rcases h.entry with hthere | ⟨-, hover⟩
    · obtain rfl := Option.some.inj (hthere.symm.trans hentry)
      by_contra hbefore
      have hlive := (Entry.live_iff_before h.undeleted h.expires b.grace now).2 (Int.not_le.1 hbefore)
      rw [hgone] at hlive
      cases hlive
    · exact hover

/-- **Every move** that does not touch the key keeps its entry until it has expired. -/
theorem moved (h : Keeps now b key e expiry) {move : StoreMove}
    (hle : now.nanos ≤ (move.instant now).nanos) (huntouched : ¬ b.touches key move) :
    Keeps (move.instant now) (b.moved move) key e expiry := by
  have hlater := h.later hle
  cases move with
  | ask at' op =>
      cases b.effect_apply at' op with
      | @changed other _ target _ _ answered _ puts =>
          have hother : key ≠ other := fun heq => huntouched ⟨heq ▸ target, answered⟩
          refine hlater.congr ?_
          rw [Backend.moved, puts.entry, if_neg hother]
      | kept _ sheds => exact hlater.sheds sheds
  | compact at' => exact hlater.sheds (b.sheds_compact at')
  | purge other =>
      refine hlater.congr ?_
      cases b with
      | table t => rfl
      | memory m =>
          have hother : key ≠ other := fun heq => huntouched heq.symm
          exact (KeyMap.get?_erase _ _ _).trans (if_neg hother)

/-- **A run** in which nobody touches the key keeps its entry until it has expired. -/
theorem foldl_moved (h : Keeps now b key e expiry) {moves : List StoreMove} {stop : Instant}
    (honward : Onward now moves stop) (huntouched : b.Untouched key moves) :
    Keeps stop (moves.foldl Backend.moved b) key e expiry := by
  induction moves generalizing now b with
  | nil => exact h.later honward
  | cons move rest ih =>
      obtain ⟨hle, hrest⟩ := honward
      exact ih (h.moved hle huntouched.1) hrest huntouched.2

/-- **Reading the key** shows the entry before its expiry, and nothing from then on. -/
theorem get_iff (h : Keeps now b key e expiry) (reply : Snapshot) :
    (b.apply now (.get key)).1 = .answer reply ↔
      now.nanos < expiry.nanos ∧ reply = e.snapshot key .live := by
  have hbefore := Entry.live_iff_before h.undeleted h.expires b.grace now
  constructor
  · intro hanswer
    obtain ⟨e', hlive, rfl, -⟩ := get_answer (Prod.ext hanswer rfl)
    obtain ⟨hentry, hstage⟩ := (live?_eq_some_iff _ _ _ _).1 hlive
    rcases h.entry with hthere | ⟨hnone, -⟩
    · obtain rfl := Option.some.inj (hthere.symm.trans hentry)
      exact ⟨hbefore.1 hstage, rfl⟩
    · rw [hnone] at hentry
      cases hentry
  · rintro ⟨hearly, rfl⟩
    rcases h.entry with hthere | ⟨-, hover⟩
    · have hlive : b.live? now key = some e :=
        (live?_eq_some_iff _ _ _ _).2 ⟨hthere, hbefore.2 hearly⟩
      rw [get_of_live hlive]
    · omega

/-- Whether reading the key succeeds is told by the clock. -/
theorem get_isAnswer_iff (h : Keeps now b key e expiry) :
    (b.apply now (.get key)).1.isAnswer = true ↔ now.nanos < expiry.nanos := by
  rw [Outcome.isAnswer_iff]
  exact ⟨fun ⟨reply, hreply⟩ => ((h.get_iff reply).1 hreply).1,
    fun hearly => ⟨_, (h.get_iff _).2 ⟨hearly, rfl⟩⟩⟩

end Keeps

/-! ## Times to live -/

variable {now : Instant} {b : Backend} {key : String} {data : Bytes} {ttl : Span}

/-- A key lives for exactly as long as it is written for: the write is carried out, and as long as
nobody touches the key reading it succeeds until the time to live is over. -/
def LivesFor (b : Backend) (now : Instant) (key : String) (data : Bytes) (ttl : Span) : Prop :=
  (b.apply now (.setFor key data ttl)).1.isAnswer = true ∧
    ∀ more stop, Onward now more stop → stop.hasDate = true →
      (b.apply now (.setFor key data ttl)).2.Untouched key more →
      (((more.foldl moved (b.apply now (.setFor key data ttl)).2).apply stop (.get key)).1.isAnswer =
        true ↔ stop.nanos < now.nanos + ttl.nanos)

/-- **A key is written for a time** if it is not empty and all dates that are compared exist. -/
theorem setFor_answers_iff (hkey : key ≠ "") :
    (b.apply now (.setFor key data ttl)).1.isAnswer = true ↔
      b.DatableAt now key ∧ (now.add? ttl.forDates).isSome = true := by
  have htarget : (StoreOp.setFor key data ttl).target? = some key := rfl
  rw [answers_iff htarget]
  exact ⟨And.right, fun h => ⟨hkey, h⟩⟩

/-- A key that was written for a time has its entry. -/
theorem keeps_setFor (h : (b.apply now (.setFor key data ttl)).1.isAnswer = true) :
    Keeps now (b.apply now (.setFor key data ttl)).2 key
      ⟨data, b.revision + 1, some (now.add ttl.forDates), none⟩ (now.add ttl.forDates) := by
  refine ⟨rfl, rfl, .inl ?_⟩
  cases b.effect_apply now (.setFor key data ttl) with
  | changed target grants entered _ _ puts =>
      obtain rfl := Option.some.inj target
      obtain rfl := Option.some.inj entered
      have hsum : now.add? ttl.forDates = some (now.add ttl.forDates) := by
        obtain ⟨expiry, hexpiry⟩ := Option.isSome_iff_exists.1 grants.2.2
        unfold Instant.add? at hexpiry ⊢
        split at hexpiry
        · next hdated => exact if_pos hdated
        · cases hexpiry
      rw [puts.entry, if_pos rfl, hsum]
  | kept failed =>
      rw [(failed key rfl).1] at h
      cases h

/-- **A key lives for exactly as long as it is written for** if the instant after that has a date,
and only then. -/
theorem livesFor_iff (hdate : now.hasDate = true) (hkey : key ≠ "") :
    b.LivesFor now key data ttl ↔ b.DatableAt now key ∧ (now.add? ttl).isSome = true := by
  constructor
  · rintro ⟨hanswer, hlives⟩
    obtain ⟨hdatable, hsum⟩ := (setFor_answers_iff hkey).1 hanswer
    refine ⟨hdatable, ?_⟩
    -- Otherwise the key should live at the last instant, when it has expired long ago.
    by_contra hbeyond
    have hlast : Onward now [] Instant.last := by
      simp only [Instant.hasDate, Bool.and_eq_true, decide_eq_true_eq] at hdate
      exact hdate.2
    have hend := hlives [] Instant.last hlast (by decide) trivial
    rw [List.foldl_nil, (keeps_setFor hanswer |>.later hlast).get_isAnswer_iff] at hend
    obtain ⟨-, hexpiry⟩ := Instant.add?_of_dated hdate hsum
    simp only [Instant.hasDate, Bool.and_eq_true, decide_eq_true_eq] at hexpiry
    have hover : ¬ Instant.last.nanos < (now.add ttl.forDates).nanos := Int.not_lt.2 hexpiry.2
    refine hover (hend.2 ?_)
    unfold Instant.add? at hbeyond
    split at hbeyond
    · exact absurd rfl hbeyond
    · next hlate => exact Int.not_le.1 hlate
  · rintro ⟨hdatable, hsum⟩
    have hsame := Span.forDates_of_dated hdate hsum
    have hanswer : (b.apply now (.setFor key data ttl)).1.isAnswer = true :=
      (setFor_answers_iff hkey).2 ⟨hdatable, hsame.symm ▸ hsum⟩
    refine ⟨hanswer, fun more stop honward _ huntouched => ?_⟩
    rw [((keeps_setFor hanswer).foldl_moved honward huntouched).get_isAnswer_iff, hsame]
    rfl

/-- **The longer a key is written for, the later it expires**, unless the longer span counts as 365
days and the shorter one does not and is longer than that. -/
theorem outlives_iff (hdate : now.hasDate = true) {ttl' : Span} (hle : ttl.nanos ≤ ttl'.nanos)
    (hanswer : (b.apply now (.setFor key data ttl)).1.isAnswer = true)
    (hanswer' : (b.apply now (.setFor key data ttl')).1.isAnswer = true) :
    (∀ stop, now.nanos ≤ stop.nanos → stop.hasDate = true →
      ((b.apply now (.setFor key data ttl)).2.apply stop (.get key)).1.isAnswer = true →
      ((b.apply now (.setFor key data ttl')).2.apply stop (.get key)).1.isAnswer = true) ↔
      ttl.nanos ≤ Span.year.nanos ∨ Span.longestForDates.nanos < ttl.nanos ∨
        ttl'.nanos ≤ Span.longestForDates.nanos := by
  rw [← Span.forDates_le_iff hle]
  have hshorter := fun (stop : Instant) (h : now.nanos ≤ stop.nanos) =>
    ((keeps_setFor hanswer).later h).get_isAnswer_iff
  have hlonger := fun (stop : Instant) (h : now.nanos ≤ stop.nanos) =>
    ((keeps_setFor hanswer').later h).get_isAnswer_iff
  have hnanos : ∀ s : Span, (now.add s).nanos = now.nanos + s.nanos := fun _ => rfl
  constructor
  · intro houtlives
    by_contra hearlier
    -- The key that was written for longer has expired at its expiry, and the other has not.
    have htarget : (StoreOp.setFor key data ttl').target? = some key := rfl
    obtain ⟨-, -, hgranted⟩ := (answers_iff htarget).1 hanswer'
    obtain ⟨-, hexpiry⟩ := Instant.add?_of_dated hdate hgranted
    have honward : now.nanos ≤ (now.add ttl'.forDates).nanos := by
      rw [hnanos]
      omega
    have hlive := (hlonger _ honward).1 (houtlives _ honward hexpiry ((hshorter _ honward).2 ?_))
    · omega
    · rw [hnanos, hnanos]
      omega
  · intro hle' stop honward _ hlive
    rw [hlonger stop honward]
    rw [hshorter stop honward] at hlive
    rw [hnanos] at hlive ⊢
    omega

/-- **How long a time to live lasts.** A key that is not empty is written for a time exactly if its
own dates and the expiry exist. If it is, then for as long as nobody touches it reading it shows
what was written until the expiry and fails from then on, in every run that goes on from there. It
lives for exactly as long as was asked for if the end of that has a date, and in no other case: a
span beyond it is refused with an abort or cut to 365 days. So the longer of two spans may expire
first, but only if it counts as 365 days and the shorter one does not and is longer than that. -/
theorem time_to_live (b : Backend) {now : Instant} {key : String} (hdate : now.hasDate = true)
    (hkey : key ≠ "") :
    (∀ data ttl,
      ((b.apply now (.setFor key data ttl)).1.isAnswer = true ↔
        b.DatableAt now key ∧ (now.add? ttl.forDates).isSome = true) ∧
      ((b.apply now (.setFor key data ttl)).1.isAnswer = true →
        ∀ more stop, Onward now more stop →
          (b.apply now (.setFor key data ttl)).2.Untouched key more → ∀ reply : Snapshot,
            ((more.foldl moved (b.apply now (.setFor key data ttl)).2).apply stop (.get key)).1 =
              .answer reply ↔
            stop.nanos < now.nanos + ttl.forDates.nanos ∧
              reply = ⟨key, data, b.revision + 1, some (now.add ttl.forDates), false⟩) ∧
      (b.LivesFor now key data ttl ↔ b.DatableAt now key ∧ (now.add? ttl).isSome = true)) ∧
    ∀ data ttl ttl', ttl.nanos ≤ ttl'.nanos →
      (b.apply now (.setFor key data ttl)).1.isAnswer = true →
      (b.apply now (.setFor key data ttl')).1.isAnswer = true →
      ((∀ stop, now.nanos ≤ stop.nanos → stop.hasDate = true →
        ((b.apply now (.setFor key data ttl)).2.apply stop (.get key)).1.isAnswer = true →
        ((b.apply now (.setFor key data ttl')).2.apply stop (.get key)).1.isAnswer = true) ↔
        ttl.nanos ≤ Span.year.nanos ∨ Span.longestForDates.nanos < ttl.nanos ∨
          ttl'.nanos ≤ Span.longestForDates.nanos) := by
  refine ⟨fun data ttl => ⟨setFor_answers_iff hkey, fun hanswer more stop honward huntouched reply => ?_,
    livesFor_iff hdate hkey⟩, fun data ttl ttl' hle hanswer hanswer' =>
      outlives_iff hdate hle hanswer hanswer'⟩
  exact ((keeps_setFor hanswer).foldl_moved honward huntouched).get_iff reply

/-- A key that is written anew for ten seconds is read after nine, although somebody tried to create
it meanwhile, and not after ten. -/
theorem key_read_for_ten_seconds :
    let at' := fun seconds : Nat => (⟨seconds * 1000000000, false⟩ : Instant)
    let b := [StoreMove.ask (at' 0) (.set "a" [1])].foldl moved (fresh true defaultGrace)
    let written := (b.apply (at' 1) (.setFor "a" [2] (Span.ofSeconds 10))).2
    let left := [StoreMove.ask (at' 5) (.create "a" [3])].foldl moved written
    (at' 1).hasDate = true ∧ "a" ≠ "" ∧
      (left.apply (at' 10) (.get "a")).1 = .answer ⟨"a", [2], 2, some (at' 11), false⟩ ∧
      ∀ reply, (left.apply (at' 11) (.get "a")).1 ≠ .answer reply := by
  intro at' b written left
  have hdate : (at' 1).hasDate = true := by decide
  have hkey : "a" ≠ "" := by decide
  obtain ⟨-, hread, -⟩ := (time_to_live b hdate hkey).1 [2] (Span.ofSeconds 10)
  have hlater : ∀ seconds, 5 ≤ seconds →
      Onward (at' 1) [.ask (at' 5) (.create "a" [3])] (at' seconds) := by
    intro seconds hle
    simp only [Onward, StoreMove.instant, at']
    omega
  have huntouched : written.Untouched "a" [.ask (at' 5) (.create "a" [3])] :=
    ⟨fun htouched => absurd htouched.2 (by decide), trivial⟩
  refine ⟨hdate, hkey, (hread (by decide) _ (at' 10) (hlater 10 (by decide)) huntouched _).2 ?_,
    fun reply hreply => ?_⟩
  · exact ⟨by decide, by decide⟩
  · have hearly := ((hread (by decide) _ (at' 11) (hlater 11 (by decide)) huntouched reply).1 hreply).1
    exact absurd hearly (by decide)

/-- A key that is written for the longest span there is has expired after 400 days. -/
theorem longest_span_lives_a_year :
    let now : Instant := ⟨1735689600000000000, false⟩
    ¬ ∀ (durable : Bool) (key : String) (data : Bytes) (ttl : Span), key ≠ "" →
      (fresh durable defaultGrace).LivesFor now key data ttl := by
  intro now h
  obtain ⟨-, hlives⟩ := h false "a" [49] Span.longest (by decide)
  have honward : Onward now [] (now.add (Span.ofSeconds (400 * 86400))) := by
    unfold Onward
    decide
  have hend := hlives [] _ honward (by decide) trivial
  exact absurd (hend.2 (by decide)) (by decide)

end Simulation.Backend

end FleetControl
