import FleetControl.Instant.Text
import FleetControl.Proofs.Instant.Calendar
import FleetControl.Proofs.Text.Digits

/-!
# Instants read back from their text

Documents hold instants as text, so what a document says about an instant is what reading that text
gives. The text of a well-formed instant reads back as the instant, part by part: each part is
written with a fixed width or ends at a mark, and the reader stops where the part ended. In the
other direction, whatever the relaxed reader accepts is well formed.

* `Instant.parse?_text` — a well-formed instant reads back from its text;
* `Instant.wellFormed_of_parse?` — a text that is read gives a well-formed instant.
-/

namespace FleetControl.Instant

open FleetControl.Text

/-- An instant that a text can hold: it has a date, and if it is a leap second it is the sixtieth
second of its minute. -/
structure WellFormed (t : Instant) : Prop where
  dated : t.hasDate = true
  leap : t.leap = true → t.nanos % perDay / 1000000000 % 60 = 59

instance (t : Instant) : Decidable t.WellFormed :=
  decidable_of_iff (t.hasDate = true ∧ (t.leap = true → t.nanos % perDay / 1000000000 % 60 = 59))
    ⟨fun h => ⟨h.1, h.2⟩, fun h => ⟨h.dated, h.leap⟩⟩

/-! ## The parts of a text -/

/-- Digits are not blank. -/
theorem isBlank_of_isDigit {c : Char} (h : c.isDigit = true) : isBlank c = false := by
  have hrange : 48 ≤ c.toNat ∧ c.toNat ≤ 57 := by
    simp only [Char.isDigit, Bool.and_eq_true, decide_eq_true_eq, ge_iff_le,
      UInt32.le_iff_toNat_le] at h
    exact h
  simp only [isBlank, Bool.or_eq_false_iff, Bool.and_eq_false_iff, decide_eq_false_iff_not,
    beq_eq_false_iff_ne]
  omega

/-- Nothing is skipped in front of a character that is not blank. -/
theorem skipBlank_cons {c : Char} (h : isBlank c = false) (rest : List Char) :
    skipBlank (c :: rest) = c :: rest := by
  simp [skipBlank, List.dropWhile, h]

/-- Nothing is skipped in front of a padded number. -/
theorem skipBlank_padded (width n : Nat) (rest : List Char) :
    skipBlank (padded width n ++ rest) = padded width n ++ rest := by
  cases hds : padded width n with
  | nil => exact absurd hds (padded_ne_nil width n)
  | cons c ds =>
      have hmem : c ∈ padded width n := by simp [hds]
      exact skipBlank_cons (isBlank_of_isDigit (isDigit_of_mem_padded hmem)) _

/-- The digits of a padded number end where something else begins. -/
theorem takeWhile_padded (width n : Nat) {c : Char} (hc : c.isDigit = false) (rest : List Char) :
    (padded width n ++ c :: rest).takeWhile Char.isDigit = padded width n := by
  rw [List.takeWhile_append_of_pos fun d hd => isDigit_of_mem_padded hd]
  simp [List.takeWhile, hc]

/-- A padded number of full width reads back, whatever follows it. -/
theorem number?_padded {most n : Nat} (hmost : 1 ≤ most) (h : n < 10 ^ most) (rest : List Char) :
    number? most (padded most n ++ rest) = some (n, rest) := by
  have hlen := length_padded hmost h
  have htake : (padded most n ++ rest).take most = padded most n := by
    rw [List.take_append_of_le_length (by omega), List.take_of_length_le (by omega)]
  have hdigits : (padded most n).takeWhile Char.isDigit = padded most n := by
    have happend := @List.takeWhile_append_of_pos _ Char.isDigit (padded most n) []
      fun d hd => isDigit_of_mem_padded hd
    simpa using happend
  have hne : (padded most n).isEmpty = false := by simp [padded_ne_nil]
  simp only [number?, skipBlank_padded, htake, hdigits, hne, Bool.false_eq_true, if_false,
    appendLeadingDigits_padded, List.drop_left]

/-- A field of two digits reads back within its bounds. -/
theorem field?_padded {low high n : Nat} (hlow : low ≤ n) (hhigh : n ≤ high) (h : n < 100)
    (rest : List Char) : field? low high (padded 2 n ++ rest) = some (n, rest) := by
  simp [field?, number?_padded (by omega : 1 ≤ 2) h, hlow, hhigh]

/-- A mark reads back. -/
theorem mark?_self {c : Char} (h : isBlank c = false) (rest : List Char) :
    mark? c (c :: rest) = some rest := by
  simp [mark?, skipBlank_cons h]

/-- A year reads back up to the dash that follows it. -/
theorem year?_yearChars (y : Int) (rest : List Char) :
    year? (yearChars y ++ '-' :: rest) = some (y, '-' :: rest) := by
  unfold yearChars
  split
  · next h =>
    have hsmall : y.toNat < 10 ^ 4 := by omega
    have hnat : ((y.toNat : Nat) : Int) = y := by omega
    unfold year?
    simp only [skipBlank_padded]
    cases hds : padded 4 y.toNat with
    | nil => exact absurd hds (padded_ne_nil 4 _)
    | cons c ds =>
        have hmem : c ∈ padded 4 y.toNat := by simp [hds]
        have hc := isDigit_of_mem_padded hmem
        have hminus : c ≠ '-' := by rintro rfl; simp at hc
        have hplus : c ≠ '+' := by rintro rfl; simp at hc
        have hnumber := number?_padded (by omega : 1 ≤ 4) hsmall ('-' :: rest)
        rw [hds] at hnumber
        simp only [List.cons_append] at hnumber ⊢
        split
        · next heq => exact absurd (List.cons.inj heq).1 hminus
        · next heq => exact absurd (List.cons.inj heq).1 hplus
        · simp [hnumber, hnat]
  · next h =>
    have hdigits := takeWhile_padded 4 y.natAbs (c := '-') (by decide) rest
    have hne : (padded 4 y.natAbs).isEmpty = false := by simp [padded_ne_nil]
    by_cases hneg : y < 0
    · have hblank : skipBlank ('-' :: (padded 4 y.natAbs ++ '-' :: rest)) = _ :=
        skipBlank_cons (by decide) _
      simp only [hneg, if_true, List.cons_append, year?, hblank, hdigits, hne, Bool.false_eq_true,
        if_false, appendLeadingDigits_padded, List.drop_left, Option.map_some]
      congr 2
      omega
    · have hblank : skipBlank ('+' :: (padded 4 y.natAbs ++ '-' :: rest)) = _ :=
        skipBlank_cons (by decide) _
      simp only [hneg, if_false, List.cons_append, year?, hblank, hdigits, hne, Bool.false_eq_true,
        appendLeadingDigits_padded, List.drop_left, Option.map_some]
      congr 2
      omega

/-- A fraction reads back up to the `Z` that follows it. -/
theorem fraction?_fractionChars {n : Nat} (h : n < 1000000000) :
    fraction? (fractionChars n ++ ['Z']) = some (n, ['Z']) := by
  have read (width m : Nat) (hw : 1 ≤ width) (hwidth : width ≤ 9) (hm : m < 10 ^ width) :
      fraction? ('.' :: padded width m ++ ['Z']) = some (m * Nat.pow 10 (9 - width), ['Z']) := by
    have hdigits := takeWhile_padded width m (c := 'Z') (by decide) []
    have hlen := length_padded hw hm
    have hne : (padded width m).isEmpty = false := by simp [padded_ne_nil]
    have htake : (padded width m).take 9 = padded width m := List.take_of_length_le (by omega)
    have hdrop : (padded width m ++ ['Z']).drop width = ['Z'] := List.drop_left' hlen
    simp only [List.cons_append, fraction?, hdigits, htake, hne, Bool.false_eq_true, if_false,
      appendLeadingDigits_padded, hlen, hdrop]
  unfold fractionChars
  split
  · next h0 => subst h0; rfl
  split
  · next h0 h6 =>
    rw [read 3 (n / 1000000) (by omega) (by omega) (by omega)]
    have hpow : Nat.pow 10 (9 - 3) = 1000000 := rfl
    have hexact : n / 1000000 * 1000000 = n := by omega
    rw [hpow, hexact]
  split
  · next h0 h6 h3 =>
    rw [read 6 (n / 1000) (by omega) (by omega) (by omega)]
    have hpow : Nat.pow 10 (9 - 6) = 1000 := rfl
    have hexact : n / 1000 * 1000 = n := by omega
    rw [hpow, hexact]
  · rw [read 9 n (by omega) (by omega) (by omega)]
    simp

/-! ## The whole text -/

/-- The day of a dated instant exists. -/
theorem valid_day {t : Instant} (h : t.hasDate = true) :
    (CalendarDay.ofEpochDay (t.nanos / perDay)).valid = true := by
  have hfirst : first.nanos = -96465292 * perDay := by decide
  have hlast : last.nanos = (95026236 + 1) * perDay - 1 := by decide
  have hlow : (⟨CalendarDay.firstYear, 1, 1⟩ : CalendarDay).toEpochDay = -96465292 := by decide
  have hhigh : (⟨CalendarDay.lastYear, 12, 31⟩ : CalendarDay).toEpochDay = 95026236 := by decide
  have hperDay : perDay = 86400000000000 := by decide
  simp only [hasDate, Bool.and_eq_true, decide_eq_true_eq, hfirst, hlast, hperDay] at h
  apply CalendarDay.valid_ofEpochDay
  · rw [hlow, hperDay]
    omega
  · rw [hhigh, hperDay]
    omega

/-- The parts of a text read back one after the other. -/
theorem ofChars?_parts (d : CalendarDay) (hour minute second nano : Nat)
    (hmonth : 1 ≤ d.month ∧ d.month ≤ 12) (hday : 1 ≤ d.day ∧ d.day ≤ 31) (hhour : hour ≤ 23)
    (hminute : minute ≤ 59) (hsecond : second ≤ 60) (hnano : nano < 1000000000) :
    ofChars? (yearChars d.year ++ '-' :: (padded 2 d.month ++ '-' :: (padded 2 d.day ++
      'T' :: (padded 2 hour ++ ':' :: (padded 2 minute ++ ':' :: (padded 2 second ++
        (fractionChars nano ++ ['Z']))))))) = ofLocal? d hour minute second nano 0 := by
  have hdash : isBlank '-' = false := by decide
  have hcolon : isBlank ':' = false := by decide
  have hzone : offset? ['Z'] = some (0, []) := by decide
  simp only [ofChars?, year?_yearChars, Option.bind_eq_bind, Option.bind_some, mark?_self hdash,
    mark?_self hcolon, field?_padded hmonth.1 hmonth.2 (by omega),
    field?_padded hday.1 hday.2 (by omega), field?_padded (Nat.zero_le hour) hhour (by omega),
    field?_padded (Nat.zero_le minute) hminute (by omega),
    field?_padded (Nat.zero_le second) hsecond (by omega), fraction?_fractionChars hnano, hzone]
  rfl

/-- **A well-formed instant reads back from its text.** -/
theorem parse?_text {t : Instant} (h : t.WellFormed) : parse? t.text = some t := by
  obtain ⟨nanos, leap⟩ := t
  have hvalid := valid_day h.dated
  have hday := CalendarDay.toEpochDay_ofEpochDay (nanos / perDay)
  have hleap := h.leap
  have hperDay : perDay = 86400000000000 := by decide
  simp only [hperDay] at hvalid hday hleap
  simp only [CalendarDay.valid, Bool.and_eq_true, decide_eq_true_eq] at hvalid
  have hday31 : (CalendarDay.ofEpochDay (nanos / 86400000000000)).day ≤ 31 := by
    refine Nat.le_trans hvalid.2 ?_
    simp only [CalendarDay.monthLength]
    split
    · split <;> omega
    · split <;> omega
  have hrange : 0 ≤ nanos % 86400000000000 ∧ nanos % 86400000000000 < 86400000000000 := by omega
  generalize hinDay : (nanos % 86400000000000).toNat = inDay
  have hsecond : inDay / 1000000000 % 60 + (if leap then 1 else 0) ≤ 60 := by
    split <;> omega
  have hparts := ofChars?_parts (CalendarDay.ofEpochDay (nanos / 86400000000000))
    (inDay / 1000000000 / 3600) (inDay / 1000000000 / 60 % 60)
    (inDay / 1000000000 % 60 + (if leap then 1 else 0)) (inDay % 1000000000)
    ⟨by omega, by omega⟩ ⟨by omega, hday31⟩ (by omega) (by omega) hsecond (by omega)
  simp only [parse?, text, String.toList_ofList, chars, hperDay, hinDay, List.append_assoc,
    List.cons_append]
  rw [hparts]
  -- A leap second is written as the sixtieth second and shares its count with the one before it.
  have hlast : leap = true → inDay / 1000000000 % 60 = 59 := by
    intro hl
    have := hleap hl
    omega
  have hflag : decide (inDay / 1000000000 % 60 + (if leap then 1 else 0) = 60) = leap := by
    cases leap with
    | false =>
        have hother : inDay / 1000000000 % 60 ≠ 60 := by omega
        simpa using hother
    | true => simp [hlast rfl]
  have hshown : (if inDay / 1000000000 % 60 + (if leap then 1 else 0) = 60 then 59
      else inDay / 1000000000 % 60 + (if leap then 1 else 0)) = inDay / 1000000000 % 60 := by
    cases leap with
    | false =>
        have hother : inDay / 1000000000 % 60 ≠ 60 := by omega
        simp [hother]
    | true => simp [hlast rfl]
  have hnanos : ((CalendarDay.ofEpochDay (nanos / 86400000000000)).toEpochDay * 86400 +
      ((inDay / 1000000000 / 3600 * 3600 + inDay / 1000000000 / 60 % 60 * 60 +
        inDay / 1000000000 % 60 : Nat) : Int) - 0) * 1000000000 +
      ((inDay % 1000000000 : Nat) : Int) = nanos := by
    rw [hday]
    omega
  have hdate : (⟨nanos, leap⟩ : Instant).hasDate = true := h.dated
  have hexists : (CalendarDay.ofEpochDay (nanos / 86400000000000)).valid = true := by
    simpa only [hperDay] using valid_day h.dated
  simp only [ofLocal?, hshown, hflag, hnanos, hdate, hexists]
  rfl

/-- A signed offset is a whole number of minutes. -/
private theorem signedOffset?_minutes {sign offset : Int} {cs rest : List Char}
    (h : signedOffset? sign cs = some (offset, rest)) : ∃ m : Int, offset = m * 60 := by
  unfold signedOffset? at h
  split at h
  · obtain ⟨tens, -, h⟩ := Option.bind_eq_some_iff.1 h
    obtain ⟨ones, -, h⟩ := Option.bind_eq_some_iff.1 h
    split at h
    · obtain ⟨minuteTens, -, h⟩ := Option.bind_eq_some_iff.1 h
      obtain ⟨minuteOnes, -, h⟩ := Option.bind_eq_some_iff.1 h
      split at h
      · simp only [Option.some.injEq, Prod.mk.injEq] at h
        refine ⟨sign * ((tens * 10 + ones) * 60 + (minuteTens * 10 + minuteOnes) : Nat), ?_⟩
        rw [← h.1]
        push_cast
        rw [Int.mul_assoc]
      · cases h
    · cases h
  · cases h

/-- An offset is a whole number of minutes. -/
private theorem offset?_minutes {cs rest : List Char} {offset : Int}
    (h : offset? cs = some (offset, rest)) : ∃ m : Int, offset = m * 60 := by
  have hzero : ∀ {r : List Char}, some ((0 : Int), r) = some (offset, rest) →
      ∃ m : Int, offset = m * 60 := by
    intro r hr
    simp only [Option.some.injEq, Prod.mk.injEq] at hr
    exact ⟨0, by omega⟩
  unfold offset? at h
  split at h
  · exact hzero h
  · exact hzero h
  · exact signedOffset?_minutes h
  · exact signedOffset?_minutes h
  · exact signedOffset?_minutes h
  · split at h
    · exact hzero h
    · cases h
  · cases h

/-- A fraction stays below a second. -/
private theorem fraction?_lt {cs rest : List Char} {nano : Nat}
    (h : fraction? cs = some (nano, rest)) : nano < 1000000000 := by
  unfold fraction? at h
  split at h
  · next cs =>
    simp only at h
    split at h
    · cases h
    · simp only [Option.some.injEq, Prod.mk.injEq] at h
      rw [← h.1]
      generalize hkept : (cs.takeWhile Char.isDigit).take 9 = kept
      have hlen : kept.length ≤ 9 := by
        rw [← hkept, List.length_take]
        exact Nat.min_le_left _ _
      have hdigits : ∀ c ∈ kept, c.isDigit = true := by
        rw [← hkept]
        intro c hc
        exact (List.all_takeWhile (p := Char.isDigit) (l := cs) |> List.all_eq_true.1) c
          (List.mem_of_mem_take hc)
      have hvalue := appendLeadingDigits_lt hdigits
      calc appendLeadingDigits 0 kept * Nat.pow 10 (9 - kept.length)
          < 10 ^ kept.length * 10 ^ (9 - kept.length) :=
            Nat.mul_lt_mul_of_pos_right hvalue (Nat.pow_pos (by omega))
        _ = 10 ^ 9 := by rw [← Nat.pow_add]; congr 1; omega
        _ = 1000000000 := by rfl
  · simp only [Option.some.injEq, Prod.mk.injEq] at h
    omega

/-- An instant on a clock that is a whole number of minutes ahead is well formed. -/
private theorem wellFormed_of_ofLocal? {d : CalendarDay} {hour minute second nano : Nat}
    {offset : Int} {t : Instant} (hnano : nano < 1000000000) (hoffset : ∃ m : Int, offset = m * 60)
    (h : ofLocal? d hour minute second nano offset = some t) : t.WellFormed := by
  obtain ⟨m, rfl⟩ := hoffset
  simp only [ofLocal?, Option.ite_none_right_eq_some, Bool.and_eq_true, Option.some.injEq] at h
  obtain ⟨⟨-, hdated⟩, rfl⟩ := h
  refine ⟨hdated, ?_⟩
  intro hleap
  have hsecond : second = 60 := by simpa using hleap
  have hperDay : perDay = 86400000000000 := by decide
  subst hsecond
  simp only [hperDay]
  rw [if_pos trivial]
  generalize d.toEpochDay = day
  omega

/-- **A text that is read gives a well-formed instant.** -/
theorem wellFormed_of_parse? {s : String} {t : Instant} (h : parse? s = some t) :
    t.WellFormed := by
  simp only [parse?, ofChars?, Option.bind_eq_bind] at h
  obtain ⟨⟨year, cs⟩, -, h⟩ := Option.bind_eq_some_iff.1 h
  obtain ⟨cs, -, h⟩ := Option.bind_eq_some_iff.1 h
  obtain ⟨⟨month, cs⟩, -, h⟩ := Option.bind_eq_some_iff.1 h
  obtain ⟨cs, -, h⟩ := Option.bind_eq_some_iff.1 h
  obtain ⟨⟨day, cs⟩, -, h⟩ := Option.bind_eq_some_iff.1 h
  split at h
  case h_4 => simp at h
  all_goals
    obtain ⟨cs, -, h⟩ := Option.bind_eq_some_iff.1 h
    obtain ⟨⟨hour, cs⟩, -, h⟩ := Option.bind_eq_some_iff.1 h
    obtain ⟨cs, -, h⟩ := Option.bind_eq_some_iff.1 h
    obtain ⟨⟨minute, cs⟩, -, h⟩ := Option.bind_eq_some_iff.1 h
    obtain ⟨cs, -, h⟩ := Option.bind_eq_some_iff.1 h
    obtain ⟨⟨second, cs⟩, -, h⟩ := Option.bind_eq_some_iff.1 h
    obtain ⟨⟨nano, cs⟩, hnano, h⟩ := Option.bind_eq_some_iff.1 h
    obtain ⟨⟨offset, cs⟩, hoffset, h⟩ := Option.bind_eq_some_iff.1 h
    split at h
    · exact wellFormed_of_ofLocal? (fraction?_lt hnano) (offset?_minutes hoffset) h
    · cases h

end FleetControl.Instant
