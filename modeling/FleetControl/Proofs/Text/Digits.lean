import FleetControl.Text.Digits
import Mathlib.Algebra.Group.Nat.Defs

/-!
# Decimal digits read back

The digits of a number, with or without zeros in front, are digits, and appending them gives the
number again.

* `appendLeadingDigits_padded` — a padded number reads back;
* `length_padded` — a number that fits its width has exactly that width.
-/

namespace FleetControl.Text

/-- A decimal digit is a digit. -/
theorem isDigit_digitChar {d : Nat} (h : d < 10) : (Nat.digitChar d).isDigit = true := by
  have hcases : ∀ d < 10, (Nat.digitChar d).isDigit = true := by decide
  exact hcases d h

/-- A decimal digit has its value. -/
theorem digitValue?_digitChar {d : Nat} (h : d < 10) : digitValue? (Nat.digitChar d) = some d := by
  have hcases : ∀ d < 10, digitValue? (Nat.digitChar d) = some d := by decide
  exact hcases d h

/-- The last digit comes off the end. -/
theorem digits_eq (n : Nat) :
    digits n = if n < 10 then [Nat.digitChar n] else digits (n / 10) ++ [Nat.digitChar (n % 10)] := by
  unfold digits
  rw [Nat.toDigits_eq_if (by omega)]

/-- What stands for a number are digits. -/
theorem isDigit_of_mem_digits {n : Nat} {c : Char} (h : c ∈ digits n) : c.isDigit = true := by
  induction n using Nat.strongRecOn with
  | _ n ih =>
      rw [digits_eq] at h
      split at h
      · next hn =>
        obtain rfl := List.mem_singleton.1 h
        exact isDigit_digitChar hn
      · next hn =>
        rcases List.mem_append.1 h with h | h
        · exact ih (n / 10) (by omega) h
        · obtain rfl := List.mem_singleton.1 h
          exact isDigit_digitChar (Nat.mod_lt _ (by omega))

theorem digits_ne_nil (n : Nat) : digits n ≠ [] := by
  rw [digits_eq]
  split <;> simp

/-- A number below a power of ten has at most as many digits as the exponent says. -/
theorem length_digits_le {n k : Nat} (hk : 1 ≤ k) (h : n < 10 ^ k) : (digits n).length ≤ k := by
  induction k generalizing n with
  | zero => omega
  | succ k ih =>
      rw [digits_eq]
      split
      · simp
      · next hn =>
        have hk' : 1 ≤ k := by
          rcases k with _ | k
          · simp at h; omega
          · omega
        have hdiv : n / 10 < 10 ^ k := by
          rw [Nat.pow_succ] at h
          omega
        have := ih hk' hdiv
        simp only [List.length_append, List.length_singleton]
        omega

/-- Appending digits one part after the other. -/
theorem appendLeadingDigits_append {ds : List Char} (h : ∀ c ∈ ds, c.isDigit = true)
    (acc : Nat) (rest : List Char) :
    appendLeadingDigits acc (ds ++ rest) =
      appendLeadingDigits (appendLeadingDigits acc ds) rest := by
  induction ds generalizing acc with
  | nil => rfl
  | cons c ds ih =>
      have hc : digitValue? c = some (c.toNat - '0'.toNat) := by
        simp [digitValue?, h c (by simp)]
      simp only [List.cons_append, appendLeadingDigits, hc]
      exact ih (fun d hd => h d (by simp [hd])) _

/-- Digits give less than the power of ten of their number. -/
theorem appendLeadingDigits_lt {ds : List Char} (h : ∀ c ∈ ds, c.isDigit = true) :
    appendLeadingDigits 0 ds < 10 ^ ds.length := by
  have bound (acc : Nat) : appendLeadingDigits acc ds < (acc + 1) * 10 ^ ds.length := by
    induction ds generalizing acc with
    | nil => simp [appendLeadingDigits]
    | cons c ds ih =>
        have hc := h c (by simp)
        have hvalue : digitValue? c = some (c.toNat - '0'.toNat) := by simp [digitValue?, hc]
        have hdigit : c.toNat - '0'.toNat < 10 := by
          simp only [Char.isDigit, Bool.and_eq_true, decide_eq_true_eq, ge_iff_le,
            UInt32.le_iff_toNat_le] at hc
          have : c.toNat ≤ 57 := hc.2
          have : '0'.toNat = 48 := rfl
          omega
        simp only [appendLeadingDigits, hvalue, List.length_cons]
        calc appendLeadingDigits (10 * acc + (c.toNat - '0'.toNat)) ds
            < (10 * acc + (c.toNat - '0'.toNat) + 1) * 10 ^ ds.length :=
              ih (fun d hd => h d (by simp [hd])) _
          _ ≤ ((acc + 1) * 10) * 10 ^ ds.length := Nat.mul_le_mul_right _ (by omega)
          _ = (acc + 1) * 10 ^ (ds.length + 1) := by
              rw [Nat.mul_assoc, Nat.pow_succ, Nat.mul_comm 10]
  simpa using bound 0

/-- The digits of a number give the number. -/
theorem appendLeadingDigits_digits (n : Nat) : appendLeadingDigits 0 (digits n) = n := by
  induction n using Nat.strongRecOn with
  | _ n ih =>
      rw [digits_eq]
      split
      · next hn => simp [appendLeadingDigits, digitValue?_digitChar hn]
      · next hn =>
        rw [appendLeadingDigits_append fun c hc => isDigit_of_mem_digits hc, ih (n / 10) (by omega)]
        simp only [appendLeadingDigits, digitValue?_digitChar (Nat.mod_lt n (by omega : 0 < 10))]
        omega

/-- What stands for a padded number are digits. -/
theorem isDigit_of_mem_padded {width n : Nat} {c : Char} (h : c ∈ padded width n) :
    c.isDigit = true := by
  rcases List.mem_append.1 h with h | h
  · obtain rfl := (List.mem_replicate.1 h).2
    rfl
  · exact isDigit_of_mem_digits h

theorem padded_ne_nil (width n : Nat) : padded width n ≠ [] := by
  simp [padded, digits_ne_nil]

/-- A number that fits its width has that width. -/
theorem length_padded {width n : Nat} (hw : 1 ≤ width) (h : n < 10 ^ width) :
    (padded width n).length = width := by
  have := length_digits_le hw h
  simp only [padded, List.length_append, List.length_replicate]
  omega

/-- **A padded number reads back.** -/
theorem appendLeadingDigits_padded (width n : Nat) :
    appendLeadingDigits 0 (padded width n) = n := by
  have hzeros : ∀ k, appendLeadingDigits 0 (List.replicate k '0') = 0 := by
    intro k
    induction k with
    | zero => rfl
    | succ k ih =>
        have hzero : digitValue? '0' = some 0 := by decide
        simpa [List.replicate_succ, appendLeadingDigits, hzero] using ih
  unfold padded
  rw [appendLeadingDigits_append fun c hc => by rw [(List.mem_replicate.1 hc).2]; rfl, hzeros,
    appendLeadingDigits_digits]

end FleetControl.Text
