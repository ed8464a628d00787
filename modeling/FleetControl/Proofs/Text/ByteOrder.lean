import FleetControl.Proofs.Text.Utf8

/-!
# The order of texts and of their bytes

Texts are compared here character by character, and their keys are kept as bytes by a store that
compares bytes. Both come to the same in UTF-8: the more bytes a character has the greater is its
lead byte, and characters with equally many bytes are written with their leading bits first, so the
first byte in which two characters differ tells which one is greater. Nor is it possible to begin in
the middle of a character, so a text begins with another one exactly if its bytes do.

* `Utf8.encodeChar_append_lt` — characters that differ decide, whatever follows them;
* `Utf8.encode_lt_iff` — texts are ordered as their bytes are;
* `Utf8.encode_prefix_iff` — a text begins with another one exactly if its bytes do.
-/

namespace FleetControl.Utf8

/-- A smaller byte decides. -/
private theorem ofNat_cons_lt_of_lt {a b : Nat} (hlt : a < b) (hb : b < 256) (x y : Bytes) :
    UInt8.ofNat a :: x < UInt8.ofNat b :: y :=
  List.cons_lt_cons_iff.2 (.inl ((UInt8.ofNat_lt_iff_lt (Nat.lt_trans hlt hb) hb).2 hlt))

/-- A byte that is not greater decides unless it is equal. -/
private theorem ofNat_cons_lt {a b : Nat} (hle : a ≤ b) (hb : b < 256) {x y : Bytes}
    (hrest : a = b → x < y) : UInt8.ofNat a :: x < UInt8.ofNat b :: y := by
  rcases Nat.lt_or_eq_of_le hle with hlt | rfl
  · exact ofNat_cons_lt_of_lt hlt hb x y
  · exact List.cons_lt_cons_self.2 (hrest rfl)

/-- **Characters that differ decide** how their bytes compare, whatever follows them. -/
theorem encodeChar_append_lt {c d : Char} (h : c < d) (x y : Bytes) :
    encodeChar c ++ x < encodeChar d ++ y := by
  have hlt : c.toNat < d.toNat := UInt32.lt_iff_toNat_lt.1 (Char.lt_def.1 h)
  have hbound : d.toNat < 0x110000 := by
    have hvalid : d.toNat < 0xD800 ∨ (0xDFFF < d.toNat ∧ d.toNat < 0x110000) := d.valid
    omega
  unfold encodeChar
  generalize c.toNat = n at hlt
  generalize d.toNat = m at hlt hbound
  simp only
  -- Where the numbers of bytes differ the lead bytes do. Else it may be any of the bytes.
  split
  · split
    · exact ofNat_cons_lt_of_lt (by omega) (by omega) _ _
    split
    · exact ofNat_cons_lt_of_lt (by omega) (by omega) _ _
    split
    · exact ofNat_cons_lt_of_lt (by omega) (by omega) _ _
    · exact ofNat_cons_lt_of_lt (by omega) (by omega) _ _
  split
  · rw [if_neg (by omega)]
    split
    · refine ofNat_cons_lt (by omega) (by omega) fun _ => ?_
      exact ofNat_cons_lt_of_lt (by omega) (by omega) _ _
    split
    · exact ofNat_cons_lt_of_lt (by omega) (by omega) _ _
    · exact ofNat_cons_lt_of_lt (by omega) (by omega) _ _
  split
  · rw [if_neg (by omega), if_neg (by omega)]
    split
    · refine ofNat_cons_lt (by omega) (by omega) fun _ => ?_
      refine ofNat_cons_lt (by omega) (by omega) fun _ => ?_
      exact ofNat_cons_lt_of_lt (by omega) (by omega) _ _
    · exact ofNat_cons_lt_of_lt (by omega) (by omega) _ _
  · rw [if_neg (by omega), if_neg (by omega), if_neg (by omega)]
    refine ofNat_cons_lt (by omega) (by omega) fun _ => ?_
    refine ofNat_cons_lt (by omega) (by omega) fun _ => ?_
    refine ofNat_cons_lt (by omega) (by omega) fun _ => ?_
    exact ofNat_cons_lt_of_lt (by omega) (by omega) _ _

theorem encodeChars_cons (c : Char) (cs : List Char) :
    encodeChars (c :: cs) = encodeChar c ++ encodeChars cs := by
  simp [encodeChars]

/-- What comes before in the order of characters does so in the order of bytes. -/
private theorem encodeChars_lt {a b : List Char} (h : a < b) : encodeChars a < encodeChars b := by
  induction a generalizing b with
  | nil =>
      cases b with
      | nil => exact absurd h (List.lt_irrefl [])
      | cons d b =>
          rw [encodeChars_cons]
          cases hbytes : encodeChar d with
          | nil => exact absurd hbytes (encodeChar_ne_nil d)
          | cons byte bytes => exact List.nil_lt_cons _ _
  | cons c a ih =>
      cases b with
      | nil => exact absurd h (List.not_lt_nil _)
      | cons d b =>
          rw [encodeChars_cons, encodeChars_cons]
          rcases List.cons_lt_cons_iff.1 h with hlt | ⟨rfl, hrest⟩
          · exact encodeChar_append_lt hlt _ _
          · exact List.append_left_lt (ih hrest)

theorem encodeChars_lt_iff (a b : List Char) : encodeChars a < encodeChars b ↔ a < b := by
  refine ⟨fun h => Classical.byContradiction fun hnot => ?_, encodeChars_lt⟩
  rcases List.le_iff_lt_or_eq.1 (List.not_lt.1 hnot) with hlt | rfl
  · exact List.lt_asymm h (encodeChars_lt hlt)
  · exact List.lt_irrefl _ h

/-- **Texts are ordered as their bytes are.** -/
theorem encode_lt_iff (s t : String) : encode s < encode t ↔ s < t := by
  rw [String.lt_iff]
  exact encodeChars_lt_iff s.toList t.toList

/-- Bytes that begin with those of characters are read as beginning with these characters. -/
private theorem isPrefix_of_encodeChars {s k : List Char}
    (h : encodeChars s <+: encodeChars k) : s <+: k := by
  induction s generalizing k with
  | nil => exact List.nil_prefix
  | cons c s ih =>
      obtain ⟨rest, hrest⟩ := h
      rw [encodeChars_cons, List.append_assoc] at hrest
      have hfirst := decodeChar?_encodeChar c (encodeChars s ++ rest)
      rw [hrest] at hfirst
      cases k with
      | nil => cases hfirst
      | cons d k =>
          rw [encodeChars_cons, decodeChar?_encodeChar] at hfirst
          obtain ⟨rfl, hk⟩ := Prod.mk.inj (Option.some.inj hfirst)
          exact (List.prefix_cons_inj d).2 (ih ⟨rest, hk.symm⟩)

/-- **A text begins with another one exactly if its bytes do.** -/
theorem encode_prefix_iff (s t : String) :
    encode s <+: encode t ↔ s.toList <+: t.toList := by
  refine ⟨isPrefix_of_encodeChars, ?_⟩
  rintro ⟨rest, hrest⟩
  refine ⟨encodeChars rest, ?_⟩
  rw [encode, encode, ← hrest]
  simp [encodeChars]

end FleetControl.Utf8
