import FleetControl.Json.Number
import FleetControl.Text.Utf8

/-!
# Reading JSON

A strict reader: no byte-order mark, no comments, no trailing commas, nothing but white space after
the value. It reads characters, some of which may be missing where the bytes were not UTF-8; inside
a string that makes the string `unreadable`, anywhere else it is a fault.

* `parse` and `parseText` — the value that takes up a whole byte string or text.
-/

namespace FleetControl.Json

/-- What is left to read; `none` stands for a byte that belongs to no character. -/
abbrev Input := List (Option Char)

/-- Skip the four white-space characters of JSON. -/
def skipSpace : Input → Input
  | some ' ' :: rest => skipSpace rest
  | some '\n' :: rest => skipSpace rest
  | some '\r' :: rest => skipSpace rest
  | some '\t' :: rest => skipSpace rest
  | input => input

/-! ## Strings -/

/-- A piece of a string: a character, a number after `\u`, or a byte that is no character. -/
inductive Unit16 where
  | char (c : Char)
  | code (n : Nat)
  | broken

/-- The value of a hexadecimal digit. -/
def hexValue? (c : Char) : Option Nat :=
  if '0' ≤ c ∧ c ≤ '9' then some (c.toNat - '0'.toNat)
  else if 'a' ≤ c ∧ c ≤ 'f' then some (c.toNat - 'a'.toNat + 10)
  else if 'A' ≤ c ∧ c ≤ 'F' then some (c.toNat - 'A'.toNat + 10)
  else none

/-- The value of four hexadecimal digits. -/
def hexValue4? (a b c d : Char) : Option Nat := do
  let a ← hexValue? a
  let b ← hexValue? b
  let c ← hexValue? c
  let d ← hexValue? d
  some (((a * 16 + b) * 16 + c) * 16 + d)

/-- The character that a backslash and a letter stand for. -/
def unescape? (c : Char) : Option Char :=
  if c = '"' ∨ c = '\\' ∨ c = '/' then some c
  else if c = 'b' then some '\x08'
  else if c = 'f' then some '\x0c'
  else if c = 'n' then some '\n'
  else if c = 'r' then some '\r'
  else if c = 't' then some '\t'
  else none

/-- Put a piece in front of what was read. -/
def consUnit (u : Unit16) (r : List Unit16 × Input) : List Unit16 × Input := (u :: r.1, r.2)

/-- The pieces up to the closing quote, and what follows it. -/
def units : Input → Option (List Unit16 × Input)
  | [] => none
  | some '"' :: rest => some ([], rest)
  | some '\\' :: some 'u' :: some a :: some b :: some c :: some d :: rest =>
    match hexValue4? a b c d with
    | some n => (units rest).map (consUnit (.code n))
    | none => none
  | some '\\' :: some e :: rest =>
    match unescape? e with
    | some c => (units rest).map (consUnit (.char c))
    | none => none
  | none :: rest => (units rest).map (consUnit .broken)
  | some c :: rest =>
    if c.toNat < 0x20 ∨ c = '\\' then none else (units rest).map (consUnit (.char c))

/-- The characters of the pieces: two numbers after `\u` that are a surrogate pair are one
character, and a surrogate that stands alone has no character. -/
def joinUnits : List Unit16 → Option (List Char)
  | [] => some []
  | .broken :: _ => none
  | .char c :: rest => (joinUnits rest).map (c :: ·)
  | .code hi :: .code lo :: rest =>
    if 0xD800 ≤ hi ∧ hi ≤ 0xDBFF ∧ 0xDC00 ≤ lo ∧ lo ≤ 0xDFFF then
      (joinUnits rest).map (Char.ofNat (0x10000 + (hi - 0xD800) * 1024 + (lo - 0xDC00)) :: ·)
    else if 0xD800 ≤ hi ∧ hi ≤ 0xDFFF then none
    else (joinUnits (.code lo :: rest)).map (Char.ofNat hi :: ·)
  | .code n :: rest =>
    if 0xD800 ≤ n ∧ n ≤ 0xDFFF then none else (joinUnits rest).map (Char.ofNat n :: ·)

/-- A string after its opening quote: its characters, if it has any meaning, and what follows. -/
def string? (input : Input) : Option (Option String × Input) :=
  (units input).map fun r => ((joinUnits r.1).map String.ofList, r.2)

/-! ## Numbers -/

/-- The digits at the front, and what follows them. -/
def takeDigits : Input → List Char × Input
  | some c :: rest =>
    if c.isDigit then
      let r := takeDigits rest
      (c :: r.1, r.2)
    else ([], some c :: rest)
  | input => ([], input)

/-- One digit or more. -/
def someDigits? (input : Input) : Option (List Char × Input) :=
  let r := takeDigits input
  if r.1.isEmpty then none else some r

/-- The digits after a point, if there is a point. -/
def fraction? : Input → Option (Option (List Char) × Input)
  | some '.' :: rest => (someDigits? rest).map fun r => (some r.1, r.2)
  | input => some (none, input)

/-- The sign of an exponent, and what follows it. -/
def exponentSign : Input → Int × Input
  | some '-' :: rest => (-1, rest)
  | some '+' :: rest => (1, rest)
  | rest => (1, rest)

/-- The number after an `e`, if there is an `e`. -/
def exponent? : Input → Option (Option Int × Input)
  | some c :: rest =>
    if c = 'e' ∨ c = 'E' then
      let s := exponentSign rest
      (someDigits? s.2).map fun r => (some (s.1 * (Text.appendLeadingDigits 0 r.1 : Nat)), r.2)
    else some (none, some c :: rest)
  | input => some (none, input)

/-- A number after its sign. The digits before the point start with a zero only if it is the only
one. -/
def number? (minus : Bool) (input : Input) : Option (Json × Input) := do
  let (whole, rest) ← someDigits? input
  if whole.head? = some '0' ∧ 1 < whole.length then none
  else do
    let (fraction, rest) ← fraction? rest
    let (exponent, rest) ← exponent? rest
    match JsonNumber.ofDecimal minus whole fraction exponent with
    | some n => some (.number n, rest)
    | none => some (.unreadable, rest)

/-! ## Values -/

/-- What follows a given word. -/
def word? : List Char → Input → Option Input
  | [], input => some input
  | w :: ws, some c :: rest => if w = c then word? ws rest else none
  | _ :: _, _ => none

/-- An object from its members; a member whose key is unreadable makes it unreadable. -/
def ofMembers (members : List (Option String × Json)) : Json :=
  match members.mapM fun m => m.1.map fun k => (k, m.2) with
  | some ms => .object ms
  | none => .unreadable

mutual

/-- A value at the front, read with at most `fuel` nested steps. -/
def value? : Nat → Input → Option (Json × Input)
  | 0, _ => none
  | fuel + 1, input =>
    match skipSpace input with
    | some '"' :: rest =>
      (string? rest).map fun r =>
        (match r.1 with | some s => .text s | none => .unreadable, r.2)
    | some '[' :: rest =>
      match skipSpace rest with
      | some ']' :: rest => some (.array [], rest)
      | rest => (items? fuel rest).map fun r => (.array r.1, r.2)
    | some '\x7b' :: rest =>
      match skipSpace rest with
      | some '\x7d' :: rest => some (.object [], rest)
      | rest => (members? fuel rest).map fun r => (ofMembers r.1, r.2)
    | some '-' :: rest => number? true rest
    | some 'n' :: rest => (word? ['u', 'l', 'l'] rest).map fun r => (.null, r)
    | some 't' :: rest => (word? ['r', 'u', 'e'] rest).map fun r => (.bool true, r)
    | some 'f' :: rest => (word? ['a', 'l', 's', 'e'] rest).map fun r => (.bool false, r)
    | rest => number? false rest

/-- One item or more, separated by commas, up to the closing bracket. -/
def items? : Nat → Input → Option (List Json × Input)
  | 0, _ => none
  | fuel + 1, input =>
    match value? fuel input with
    | none => none
    | some (j, rest) =>
      match skipSpace rest with
      | some ']' :: rest => some ([j], rest)
      | some ',' :: rest => (items? fuel rest).map fun r => (j :: r.1, r.2)
      | _ => none

/-- One member or more, separated by commas, up to the closing brace. -/
def members? : Nat → Input → Option (List (Option String × Json) × Input)
  | 0, _ => none
  | fuel + 1, input =>
    match skipSpace input with
    | some '"' :: rest =>
      match string? rest with
      | none => none
      | some (key, rest) =>
        match skipSpace rest with
        | some ':' :: rest =>
          match value? fuel rest with
          | none => none
          | some (j, rest) =>
            match skipSpace rest with
            | some '\x7d' :: rest => some ([(key, j)], rest)
            | some ',' :: rest => (members? fuel rest).map fun r => ((key, j) :: r.1, r.2)
            | _ => none
        | _ => none
    | _ => none

end

/-- The value that takes up the whole input. Every step reads a character at least, so the length of
the input bounds the steps. -/
def parseInput (input : Input) : Option Json :=
  match value? (input.length + 1) input with
  | some (j, rest) => if (skipSpace rest).isEmpty then some j else none
  | none => none

/-- The value that takes up a whole byte string. -/
def parse (bytes : Bytes) : Option Json := parseInput (Utf8.decode bytes)

/-- The value that takes up a whole text. -/
def parseText (s : String) : Option Json := parseInput (s.toList.map some)

end FleetControl.Json
