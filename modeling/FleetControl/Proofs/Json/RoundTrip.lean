import FleetControl.Json.Parser
import FleetControl.Json.Printer
import FleetControl.Proofs.Text.Utf8

/-!
# Documents read back

The compact form of a value reads back as the value. Only plain values are covered, those without
numbers: the documents of the control plane hold none. A string is read back piece by piece, since
every character stands for exactly one piece. A value ends where its own text ends, whatever follows,
and it needs no more steps than its text has characters, which is what the reader is given.

* `Json.value?_chars` — a plain value is read off the front of an input that starts with its text;
* `Json.parse_bytes` — a plain value is the value of its bytes.
-/

namespace FleetControl.Json

mutual

/-- A value without numbers and without unreadable parts. -/
def plain : Json → Bool
  | .null => true
  | .bool _ => true
  | .number _ => false
  | .text _ => true
  | .array items => plainItems items
  | .object members => plainMembers members
  | .unreadable => false

/-- Every item is plain. -/
def plainItems : List Json → Bool
  | [] => true
  | j :: rest => plain j && plainItems rest

/-- Every member's value is plain. -/
def plainMembers : List (String × Json) → Bool
  | [] => true
  | (_, j) :: rest => plain j && plainMembers rest

end

theorem plainItems_iff (items : List Json) :
    plainItems items = true ↔ ∀ j ∈ items, j.plain = true := by
  induction items with
  | nil => simp [plainItems]
  | cons j rest ih => simp [plainItems, ih]

theorem plainMembers_iff (members : List (String × Json)) :
    plainMembers members = true ↔ ∀ m ∈ members, m.2.plain = true := by
  induction members with
  | nil => simp [plainMembers]
  | cons m rest ih => simp [plainMembers, ih]

/-! ## Strings -/

/-- The closing quote ends a string. -/
private theorem units_quote (t : Input) : units (some '"' :: t) = some ([], t) := by
  simp only [units]

/-- A character that needs no escape stands for itself. -/
private theorem units_plain {c : Char} (hquote : c ≠ '"') (hslash : c ≠ '\\')
    (hcontrol : ¬ c.toNat < 0x20) (t : Input) :
    units (some c :: t) = (units t).map (consUnit (.char c)) := by
  rw [units.eq_def]
  split
  case h_6 heq =>
    simp only [List.cons.injEq, Option.some.injEq] at heq
    obtain ⟨rfl, rfl⟩ := heq
    rw [if_neg]
    rintro (h | h)
    · exact hcontrol h
    · exact hslash h
  all_goals simp_all

/-- A backslash and a letter stand for one character. -/
private theorem units_letter {e c : Char} (he : e ≠ 'u') (h : unescape? e = some c) (t : Input) :
    units (some '\\' :: some e :: t) = (units t).map (consUnit (.char c)) := by
  rw [units.eq_def]
  split
  case h_6 hnot heq =>
    simp only [List.cons.injEq, Option.some.injEq] at heq
    obtain ⟨rfl, rfl⟩ := heq
    exact absurd rfl (hnot e t rfl)
  all_goals simp_all

/-- A backslash, a `u` and four digits stand for a number. -/
private theorem units_code {a b c d : Char} {n : Nat} (h : hexValue4? a b c d = some n) (t : Input) :
    units (some '\\' :: some 'u' :: some a :: some b :: some c :: some d :: t) =
      (units t).map (consUnit (.code n)) := by
  simp only [units, h]

/-- A number below the surrogates is the character of that number. -/
private theorem joinUnits_code {n : Nat} (h : n < 0xD800) (us : List Unit16) :
    joinUnits (.code n :: us) = (joinUnits us).map (Char.ofNat n :: ·) := by
  have hlow : ¬ 0xD800 ≤ n := by omega
  cases us with
  | nil => simp only [joinUnits, hlow, false_and, if_false]
  | cons u us => cases u <;> simp only [joinUnits, hlow, false_and, if_false]

/-- The text of a character stands for one piece, and the piece is the character. -/
private theorem units_escapeChar (c : Char) (t : Input) :
    ∃ u, units ((escapeChar c).map some ++ t) = (units t).map (consUnit u) ∧
      ∀ us, joinUnits (u :: us) = (joinUnits us).map (c :: ·) := by
  have hchar : ∀ us, joinUnits (.char c :: us) = (joinUnits us).map (c :: ·) := by
    intro us
    rw [joinUnits]
  have hnumber : ∀ {n : Nat}, c.toNat = n → c = Char.ofNat n := by
    rintro n rfl
    exact (Char.ofNat_toNat c).symm
  unfold escapeChar
  split
  · next h => subst h; exact ⟨_, units_letter (by decide) (by decide) t, hchar⟩
  split
  · next h => subst h; exact ⟨_, units_letter (by decide) (by decide) t, hchar⟩
  split
  · next h => rw [hnumber h] at hchar ⊢; exact ⟨_, units_letter (by decide) (by decide) t, hchar⟩
  split
  · next h => rw [hnumber h] at hchar ⊢; exact ⟨_, units_letter (by decide) (by decide) t, hchar⟩
  split
  · next h => subst h; exact ⟨_, units_letter (by decide) (by decide) t, hchar⟩
  split
  · next h => subst h; exact ⟨_, units_letter (by decide) (by decide) t, hchar⟩
  split
  · next h => subst h; exact ⟨_, units_letter (by decide) (by decide) t, hchar⟩
  split
  · next hcontrol =>
    have hhex : ∀ n < 0x20,
        hexValue4? '0' '0' (Nat.digitChar (n / 16)) (Nat.digitChar (n % 16)) = some n := by decide
    refine ⟨.code c.toNat, units_code (hhex _ hcontrol) t, ?_⟩
    intro us
    rw [joinUnits_code (by omega), ← hnumber rfl]
  · next hquote hslash _ _ _ _ _ hcontrol =>
    exact ⟨.char c, units_plain hquote hslash hcontrol t, hchar⟩

/-- The text of a string stands for its characters, up to the closing quote. -/
private theorem units_flatMap_escapeChar (cs : List Char) (rest : Input) :
    ∃ us, units ((cs.flatMap escapeChar).map some ++ some '"' :: rest) = some (us, rest) ∧
      joinUnits us = some cs := by
  induction cs with
  | nil => exact ⟨[], units_quote rest, rfl⟩
  | cons c cs ih =>
      obtain ⟨us, hus, hjoin⟩ := ih
      obtain ⟨u, hu, hc⟩ := units_escapeChar c ((cs.flatMap escapeChar).map some ++ some '"' :: rest)
      refine ⟨u :: us, ?_, ?_⟩
      · rw [List.flatMap_cons, List.map_append, List.append_assoc, hu, hus]
        rfl
      · rw [hc, hjoin]
        rfl

/-- **A string reads back**, whatever follows its closing quote. -/
theorem string?_textChars (s : String) (rest : Input) :
    string? ((s.toList.flatMap escapeChar ++ ['"']).map some ++ rest) = some (some s, rest) := by
  obtain ⟨us, hus, hjoin⟩ := units_flatMap_escapeChar s.toList rest
  rw [List.map_append, List.append_assoc]
  simp only [string?, List.map_cons, List.map_nil, List.cons_append, List.nil_append, hus, hjoin,
    Option.map_some, String.ofList_toList]

/-! ## Values -/

/-- What the text of a plain value can start with. -/
def starters : List Char := ['n', 't', 'f', '"', '[', '\x7b']

/-- The text of a plain value starts with one of those. -/
theorem chars_eq_cons {j : Json} (h : j.plain = true) :
    ∃ c rest, j.chars = c :: rest ∧ c ∈ starters := by
  cases j with
  | null => exact ⟨'n', _, rfl, by decide⟩
  | bool b => cases b with
    | true => exact ⟨'t', _, rfl, by decide⟩
    | false => exact ⟨'f', _, rfl, by decide⟩
  | number n => simp [plain] at h
  | text s => exact ⟨'"', _, rfl, by decide⟩
  | array items => cases items with
    | nil => exact ⟨'[', _, rfl, by decide⟩
    | cons j rest => exact ⟨'[', _, rfl, by decide⟩
  | object members => cases members with
    | nil => exact ⟨'\x7b', _, rfl, by decide⟩
    | cons m rest => exact ⟨'\x7b', _, rfl, by decide⟩
  | unreadable => simp [plain] at h

/-- Nothing is skipped in front of a plain value, and it is not taken for a closing bracket. -/
theorem skipSpace_starter {c : Char} (h : c ∈ starters) (rest : Input) :
    skipSpace (some c :: rest) = some c :: rest ∧ c ≠ ']' := by
  have hcases : c = 'n' ∨ c = 't' ∨ c = 'f' ∨ c = '"' ∨ c = '[' ∨ c = '\x7b' := by
    simpa [starters] using h
  rcases hcases with rfl | rfl | rfl | rfl | rfl | rfl <;> exact ⟨rfl, by decide⟩

/-- Nothing is skipped in front of a mark. -/
private theorem skipSpace_mark {c : Char} (h : c ∈ ['"', '[', ']', '\x7b', '\x7d', ',', ':'])
    (rest : Input) : skipSpace (some c :: rest) = some c :: rest := by
  simp only [List.mem_cons, List.not_mem_nil, or_false] at h
  rcases h with rfl | rfl | rfl | rfl | rfl | rfl | rfl <;> rfl

/-- The members that were written have readable keys. -/
private theorem ofMembers_some (members : List (String × Json)) :
    ofMembers (members.map fun m => (some m.1, m.2)) = .object members := by
  have hkeys : (members.map fun m => ((some m.1 : Option String), m.2)).mapM
      (fun m => m.1.map fun k => (k, m.2)) = some members := by
    induction members with
    | nil => rfl
    | cons m rest ih => simp [List.mapM_cons, ih]
  simp only [ofMembers, hkeys]

/-- The items of a text that is not empty. -/
def listChars : List Json → List Char
  | [] => []
  | j :: rest => j.chars ++ itemsChars rest

/-- The members of a text that is not empty. -/
def pairsChars : List (String × Json) → List Char
  | [] => []
  | (k, j) :: rest => textChars k ++ ':' :: (j.chars ++ membersChars rest)

mutual

/-- **A plain value is read off the front** of an input that starts with its text. -/
theorem value?_chars : ∀ (j : Json) (fuel : Nat) (rest : Input), j.plain = true →
    j.chars.length ≤ fuel → value? fuel (j.chars.map some ++ rest) = some (j, rest)
  | j, 0, _, hplain, h => by
    obtain ⟨c, tail, hchars, -⟩ := chars_eq_cons hplain
    simp [hchars] at h
  | .null, fuel + 1, rest, _, _ => rfl
  | .bool true, fuel + 1, rest, _, _ => rfl
  | .bool false, fuel + 1, rest, _, _ => rfl
  | .number _, _ + 1, _, h, _ => by simp [plain] at h
  | .text s, fuel + 1, rest, _, _ => by
    have hstring := string?_textChars s rest
    simp only [chars, textChars, List.map_cons, List.cons_append, value?,
      skipSpace_mark (by decide : '"' ∈ _), hstring, Option.map_some]
  | .array [], fuel + 1, rest, _, _ => rfl
  | .array (j :: more), fuel + 1, rest, hplain, h => by
    have hfuel : (listChars (j :: more)).length ≤ fuel := by
      simp only [chars, List.length_cons] at h
      simp only [listChars]
      omega
    have hitems := items?_chars (j :: more) fuel rest (by simp) hplain hfuel
    have hj : j.plain = true := (plainItems_iff _).1 hplain j (by simp)
    obtain ⟨c, tail, hchars, hstart⟩ := chars_eq_cons hj
    obtain ⟨hskip, hbracket⟩ := skipSpace_starter hstart
      ((tail ++ itemsChars more).map some ++ rest)
    simp only [listChars, hchars, List.cons_append, List.map_cons] at hitems
    simp only [chars, hchars, List.cons_append, List.map_cons, value?,
      skipSpace_mark (by decide : '[' ∈ _), hskip]
    split
    · next heq =>
      simp only [List.cons.injEq, Option.some.injEq] at heq
      exact absurd heq.1 hbracket
    · rw [hitems]
      rfl
  | .object [], fuel + 1, rest, _, _ => rfl
  | .object ((k, j) :: more), fuel + 1, rest, hplain, h => by
    have hfuel : (pairsChars ((k, j) :: more)).length ≤ fuel := by
      simp only [chars, List.length_cons] at h
      simp only [pairsChars]
      omega
    have hmembers := members?_chars ((k, j) :: more) fuel rest (by simp) hplain hfuel
    simp only [pairsChars, textChars, List.cons_append, List.map_cons] at hmembers
    have hobject := ofMembers_some ((k, j) :: more)
    simp only [List.map_cons] at hobject
    simp only [chars, textChars, List.cons_append, List.map_cons, value?,
      skipSpace_mark (by decide : '\x7b' ∈ _), skipSpace_mark (by decide : '"' ∈ _)]
    split
    · next heq => simp at heq
    · rw [hmembers]
      simp only [Option.map_some, hobject]
  | .unreadable, _ + 1, _, h, _ => by simp [plain] at h

/-- Plain items are read up to the closing bracket. -/
theorem items?_chars : ∀ (items : List Json) (fuel : Nat) (rest : Input), items ≠ [] →
    plainItems items = true → (listChars items).length ≤ fuel →
    items? fuel ((listChars items).map some ++ rest) = some (items, rest)
  | [], _, _, h, _, _ => absurd rfl h
  | j :: more, 0, _, _, hplain, h => by
    obtain ⟨c, tail, hchars, -⟩ := chars_eq_cons ((plainItems_iff _).1 hplain j (by simp))
    simp [listChars, hchars] at h
  | [j], fuel + 1, rest, _, hplain, h => by
    have hj : j.plain = true := (plainItems_iff _).1 hplain j (by simp)
    simp only [listChars, itemsChars, List.length_append, List.length_singleton] at h
    have hvalue := value?_chars j fuel (some ']' :: rest) hj (by omega)
    simp only [listChars, itemsChars, List.map_append, List.map_cons, List.map_nil,
      List.append_assoc, List.cons_append, List.nil_append, items?, hvalue,
      skipSpace_mark (by decide : ']' ∈ _)]
  | j :: j' :: more, fuel + 1, rest, _, hplain, h => by
    have hj : j.plain = true := (plainItems_iff _).1 hplain j (by simp)
    have hmore : plainItems (j' :: more) = true :=
      (plainItems_iff _).2 fun x hx => (plainItems_iff _).1 hplain x (by simp [hx])
    simp only [listChars, itemsChars, List.length_append, List.length_cons] at h
    have hitems := items?_chars (j' :: more) fuel rest (by simp) hmore (by
      simp only [listChars, List.length_append]
      omega)
    have hvalue := value?_chars j fuel (some ',' :: ((listChars (j' :: more)).map some ++ rest)) hj
      (by omega)
    simp only [listChars, List.map_append, List.append_assoc] at hvalue hitems
    simp only [listChars, itemsChars, List.map_append, List.map_cons, List.append_assoc,
      List.cons_append, items?, hvalue, skipSpace_mark (by decide : ',' ∈ _), hitems,
      Option.map_some]

/-- Plain members are read up to the closing brace. -/
theorem members?_chars : ∀ (members : List (String × Json)) (fuel : Nat) (rest : Input),
    members ≠ [] → plainMembers members = true → (pairsChars members).length ≤ fuel →
    members? fuel ((pairsChars members).map some ++ rest) =
      some (members.map fun m => (some m.1, m.2), rest)
  | [], _, _, h, _, _ => absurd rfl h
  | (k, j) :: more, 0, _, _, _, h => by simp [pairsChars, textChars] at h
  | [(k, j)], fuel + 1, rest, _, hplain, h => by
    have hj : j.plain = true := (plainMembers_iff _).1 hplain (k, j) (by simp)
    simp only [pairsChars, membersChars, List.length_append, List.length_cons,
      List.length_nil] at h
    have hvalue := value?_chars j fuel (some '\x7d' :: rest) hj (by omega)
    have hstring := string?_textChars k (some ':' :: (j.chars.map some ++ some '\x7d' :: rest))
    simp only [List.map_append, List.map_cons, List.map_nil, List.append_assoc, List.cons_append,
      List.nil_append] at hstring
    simp only [pairsChars, textChars, membersChars, List.map_append, List.map_cons, List.map_nil,
      List.append_assoc, List.cons_append, List.nil_append, members?,
      skipSpace_mark (by decide : '"' ∈ _), hstring, skipSpace_mark (by decide : ':' ∈ _), hvalue,
      skipSpace_mark (by decide : '\x7d' ∈ _)]
  | (k, j) :: (k', j') :: more, fuel + 1, rest, _, hplain, h => by
    have hj : j.plain = true := (plainMembers_iff _).1 hplain (k, j) (by simp)
    have hmore : plainMembers ((k', j') :: more) = true :=
      (plainMembers_iff _).2 fun x hx => (plainMembers_iff _).1 hplain x (by simp [hx])
    simp only [pairsChars, membersChars, List.length_append, List.length_cons] at h
    have hmembers := members?_chars ((k', j') :: more) fuel rest (by simp) hmore (by
      simp only [pairsChars, List.length_append, List.length_cons]
      omega)
    have hvalue := value?_chars j fuel (some ',' :: ((pairsChars ((k', j') :: more)).map some ++ rest))
      hj (by omega)
    have hstring := string?_textChars k (some ':' :: (j.chars.map some ++
      some ',' :: ((pairsChars ((k', j') :: more)).map some ++ rest)))
    simp only [pairsChars, List.map_append, List.map_cons, List.map_nil, List.append_assoc,
      List.cons_append, List.nil_append] at hvalue hmembers hstring
    simp only [pairsChars, textChars, membersChars, List.map_append, List.map_cons, List.map_nil,
      List.append_assoc, List.cons_append, List.nil_append, members?] at hvalue hmembers hstring ⊢
    simp only [skipSpace_mark (by decide : '"' ∈ _), hstring,
      skipSpace_mark (by decide : ':' ∈ _), hvalue, skipSpace_mark (by decide : ',' ∈ _),
      hmembers, Option.map_some]

end

/-- **A plain value is the value of its bytes.** -/
theorem parse_bytes {j : Json} (h : j.plain = true) : parse j.bytes = some j := by
  have hvalue := value?_chars j ((j.chars.map some).length + 1) [] h (by simp)
  rw [List.append_nil] at hvalue
  simp only [parse, bytes, Utf8.decode_encodeChars, parseInput, hvalue, skipSpace, List.isEmpty_nil,
    if_true]

end FleetControl.Json
