import FleetControl.Text.Utf8

/-!
# UTF-8 read back

Writing characters as bytes loses nothing: every character's bytes start with a lead byte that tells
their number, so the reader takes exactly those bytes and gets the character.

* `Utf8.decode_encodeChars` — the bytes of characters decode to those characters.
-/

namespace FleetControl.Utf8

/-- A number below 256 as a byte. -/
private theorem toNat_ofNat {n : Nat} (h : n < 256) : (UInt8.ofNat n).toNat = n := by
  rw [UInt8.toNat_ofNat', Nat.mod_eq_of_lt h]

/-- The numbers of characters leave out the surrogates. -/
private theorem toNat_ranges (c : Char) :
    c.toNat < 0xD800 ∨ (0xDFFF < c.toNat ∧ c.toNat < 0x110000) := c.valid

/-- A byte that is written from six bits continues a character and gives the bits back. -/
private theorem tail_ofNat {n : Nat} (h : n < 64) :
    isTail (UInt8.ofNat (0x80 + n)) = true ∧ tailBits (UInt8.ofNat (0x80 + n)) = n := by
  have hbyte : (UInt8.ofNat (0x80 + n)).toNat = 0x80 + n := toNat_ofNat (by omega)
  refine ⟨?_, ?_⟩
  · rw [isTail, hbyte, Bool.and_eq_true]
    exact ⟨decide_eq_true (by omega), decide_eq_true (by omega)⟩
  · unfold tailBits
    omega

/-! ## Characters by the number of their bytes -/

private theorem decodeChar?_one {a : UInt8} (h : a.toNat < 0x80) (rest : Bytes) :
    decodeChar? (a :: rest) = some (Char.ofNat a.toNat, rest) := by
  simp only [decodeChar?]
  rw [if_pos h]

private theorem decodeChar?_two {a b : UInt8} (ha : 0xC2 ≤ a.toNat) (ha' : a.toNat ≤ 0xDF)
    (hb : isTail b = true) (rest : Bytes) :
    decodeChar? (a :: b :: rest) =
      some (Char.ofNat ((a.toNat - 0xC0) * 64 + tailBits b), rest) := by
  have hlead : (decide (0xC2 ≤ a.toNat) && decide (a.toNat ≤ 0xDF)) = true := by
    rw [decide_eq_true ha, decide_eq_true ha']
    rfl
  simp only [decodeChar?]
  rw [if_neg (by omega), if_pos hlead, if_pos hb]

private theorem decodeChar?_three {a b c : UInt8} (ha : 0xE0 ≤ a.toNat) (ha' : a.toNat ≤ 0xEF)
    (hb : isTail b = true) (hc : isTail c = true) {m : Nat}
    (hm : (a.toNat - 0xE0) * 4096 + tailBits b * 64 + tailBits c = m) (hlow : 0x800 ≤ m)
    (hrange : m < 0xD800 ∨ 0xDFFF < m) (rest : Bytes) :
    decodeChar? (a :: b :: c :: rest) = some (Char.ofNat m, rest) := by
  have hlead : (decide (0xE0 ≤ a.toNat) && decide (a.toNat ≤ 0xEF)) = true := by
    rw [decide_eq_true ha, decide_eq_true ha']
    rfl
  have htwo : ¬ (decide (0xC2 ≤ a.toNat) && decide (a.toNat ≤ 0xDF)) = true := by
    rw [Bool.and_eq_true, decide_eq_true_eq, decide_eq_true_eq]
    omega
  have hvalue : (isTail b && isTail c && decide (0x800 ≤ m) &&
      !(decide (0xD800 ≤ m) && decide (m ≤ 0xDFFF))) = true := by
    have : ¬ (0xD800 ≤ m ∧ m ≤ 0xDFFF) := by omega
    rw [hb, hc, decide_eq_true hlow, ← Bool.decide_and, decide_eq_false this]
    rfl
  simp only [decodeChar?, hm]
  rw [if_neg (by omega), if_neg htwo, if_pos hlead, if_pos hvalue]

private theorem decodeChar?_four {a b c d : UInt8} (ha : 0xF0 ≤ a.toNat) (ha' : a.toNat ≤ 0xF4)
    (hb : isTail b = true) (hc : isTail c = true) (hd : isTail d = true) {m : Nat}
    (hm : (a.toNat - 0xF0) * 262144 + tailBits b * 4096 + tailBits c * 64 + tailBits d = m)
    (hlow : 0x10000 ≤ m) (hhigh : m ≤ 0x10FFFF) (rest : Bytes) :
    decodeChar? (a :: b :: c :: d :: rest) = some (Char.ofNat m, rest) := by
  have hlead : (decide (0xF0 ≤ a.toNat) && decide (a.toNat ≤ 0xF4)) = true := by
    rw [decide_eq_true ha, decide_eq_true ha']
    rfl
  have htwo : ¬ (decide (0xC2 ≤ a.toNat) && decide (a.toNat ≤ 0xDF)) = true := by
    rw [Bool.and_eq_true, decide_eq_true_eq, decide_eq_true_eq]
    omega
  have hthree : ¬ (decide (0xE0 ≤ a.toNat) && decide (a.toNat ≤ 0xEF)) = true := by
    rw [Bool.and_eq_true, decide_eq_true_eq, decide_eq_true_eq]
    omega
  have hvalue : (isTail b && isTail c && isTail d && decide (0x10000 ≤ m) &&
      decide (m ≤ 0x10FFFF)) = true := by
    rw [hb, hc, hd, decide_eq_true hlow, decide_eq_true hhigh]
    rfl
  simp only [decodeChar?, hm]
  rw [if_neg (by omega), if_neg htwo, if_neg hthree, if_pos hlead, if_pos hvalue]

/-- **The bytes of a character decode to the character**, whatever follows them. -/
theorem decodeChar?_encodeChar (c : Char) (rest : Bytes) :
    decodeChar? (encodeChar c ++ rest) = some (c, rest) := by
  have hvalid := toNat_ranges c
  have hchar : Char.ofNat c.toNat = c := Char.ofNat_toNat c
  unfold encodeChar
  generalize c.toNat = n at hvalid hchar
  simp only
  split
  · next h1 =>
    have hbyte := toNat_ofNat (by omega : n < 256)
    have hone := decodeChar?_one (a := UInt8.ofNat n) (by omega) rest
    rwa [hbyte, hchar] at hone
  split
  · next h1 h2 =>
    obtain ⟨htail, hbits⟩ := tail_ofNat (by omega : n % 64 < 64)
    have hbyte := toNat_ofNat (by omega : 0xC0 + n / 64 < 256)
    have htwo := decodeChar?_two (a := UInt8.ofNat (0xC0 + n / 64)) (by omega) (by omega) htail rest
    have hvalue : (0xC0 + n / 64 - 0xC0) * 64 + n % 64 = n := by omega
    rwa [hbyte, hbits, hvalue, hchar] at htwo
  split
  · next h1 h2 h3 =>
    obtain ⟨htail, hbits⟩ := tail_ofNat (by omega : n / 64 % 64 < 64)
    obtain ⟨htail', hbits'⟩ := tail_ofNat (by omega : n % 64 < 64)
    have hbyte := toNat_ofNat (by omega : 0xE0 + n / 4096 < 256)
    have hthree := decodeChar?_three (a := UInt8.ofNat (0xE0 + n / 4096)) (m := n) (by omega)
      (by omega) htail htail' (by rw [hbyte, hbits, hbits']; omega) (by omega) (by omega) rest
    rwa [hchar] at hthree
  · next h1 h2 h3 =>
    obtain ⟨htail, hbits⟩ := tail_ofNat (by omega : n / 4096 % 64 < 64)
    obtain ⟨htail', hbits'⟩ := tail_ofNat (by omega : n / 64 % 64 < 64)
    obtain ⟨htail'', hbits''⟩ := tail_ofNat (by omega : n % 64 < 64)
    have hbyte := toNat_ofNat (by omega : 0xF0 + n / 262144 < 256)
    have hfour := decodeChar?_four (a := UInt8.ofNat (0xF0 + n / 262144)) (m := n) (by omega)
      (by omega) htail htail' htail'' (by rw [hbyte, hbits, hbits', hbits'']; omega) (by omega)
      (by omega) rest
    rwa [hchar] at hfour

theorem encodeChar_ne_nil (c : Char) : encodeChar c ≠ [] := by
  unfold encodeChar
  simp only
  split
  · simp
  split
  · simp
  split <;> simp

/-- Reading with enough steps gives the characters back. -/
private theorem decodeFrom_encodeChars {cs : List Char} {fuel : Nat}
    (h : (encodeChars cs).length ≤ fuel) : decodeFrom fuel (encodeChars cs) = cs.map some := by
  induction cs generalizing fuel with
  | nil => cases fuel <;> rfl
  | cons c cs ih =>
      have hstep := decodeChar?_encodeChar c (encodeChars cs)
      have hcons : encodeChars (c :: cs) = encodeChar c ++ encodeChars cs := by
        simp [encodeChars]
      rw [hcons] at h ⊢
      cases hc : encodeChar c with
      | nil => exact absurd hc (encodeChar_ne_nil c)
      | cons b bs =>
          rw [hc] at hstep h
          cases fuel with
          | zero => simp at h
          | succ fuel =>
              have hfuel : (encodeChars cs).length ≤ fuel := by
                simp only [List.cons_append, List.length_cons, List.length_append] at h
                omega
              simp only [List.cons_append] at hstep
              simp only [List.cons_append, decodeFrom, hstep, ih hfuel, List.map_cons]

/-- **The bytes of characters decode to those characters.** -/
theorem decode_encodeChars (cs : List Char) : decode (encodeChars cs) = cs.map some :=
  decodeFrom_encodeChars (Nat.le_refl _)

end FleetControl.Utf8
