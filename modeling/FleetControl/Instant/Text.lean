import FleetControl.Instant.Basic
import FleetControl.Text.Blank

/-!
# Instants as text

Documents hold instants as RFC 3339 text.

* `text` writes an instant in UTC with a `Z`, the fraction of a second left out when it is zero and
  otherwise of three, six or nine digits, the fewest that are exact. Years outside 0 to 9999 carry
  a sign.
* `parse?` reads a relaxed form: blanks between the parts, one-digit months, days, hours, minutes
  and seconds, a signed year of any length, a `t` or a blank instead of the `T`, a fraction of any
  length (cut after nine digits), and an offset that is `Z`, `UTC` or a signed hour and minute with
  or without colons. Seconds and offset must be there. The sixtieth second is a leap second.
-/

namespace FleetControl.Instant

open FleetControl.Text

/-! ## Writing -/

/-- The year of a date: four digits, with a sign and at least four digits beyond 9999 or below 0. -/
def yearChars (y : Int) : List Char :=
  if 0 ≤ y ∧ y ≤ 9999 then padded 4 y.toNat
  else (if y < 0 then '-' else '+') :: padded 4 y.natAbs

/-- The fraction of a second, of none, three, six or nine digits. -/
def fractionChars (n : Nat) : List Char :=
  if n = 0 then []
  else if n % 1000000 = 0 then '.' :: padded 3 (n / 1000000)
  else if n % 1000 = 0 then '.' :: padded 6 (n / 1000)
  else '.' :: padded 9 n

/-- An instant in UTC. -/
def chars (t : Instant) : List Char :=
  let d := CalendarDay.ofEpochDay (t.nanos / perDay)
  let inDay := (t.nanos % perDay).toNat
  let second := inDay / 1000000000
  yearChars d.year ++ '-' :: padded 2 d.month ++ '-' :: padded 2 d.day ++
    'T' :: padded 2 (second / 3600) ++ ':' :: padded 2 (second / 60 % 60) ++
    ':' :: padded 2 (second % 60 + (if t.leap then 1 else 0)) ++
    fractionChars (inDay % 1000000000) ++ ['Z']

/-- An instant in UTC. -/
def text (t : Instant) : String := String.ofList t.chars

/-! ## Reading -/

/-- Drop blank characters at the front. -/
def skipBlank (cs : List Char) : List Char := cs.dropWhile isBlank

/-- A number of one digit at least and `most` digits at most, after blanks. -/
def number? (most : Nat) (cs : List Char) : Option (Nat × List Char) :=
  let cs := skipBlank cs
  let ds := (cs.take most).takeWhile Char.isDigit
  if ds.isEmpty then none else some (appendLeadingDigits 0 ds, cs.drop ds.length)

/-- A number of one or two digits between two bounds. -/
def field? (low high : Nat) (cs : List Char) : Option (Nat × List Char) :=
  (number? 2 cs).filter fun r => low ≤ r.1 && r.1 ≤ high

/-- A year: up to four digits, or a sign and any number of digits. -/
def year? (cs : List Char) : Option (Int × List Char) :=
  let signed (cs : List Char) : Option (Nat × List Char) :=
    let ds := cs.takeWhile Char.isDigit
    if ds.isEmpty then none else some (appendLeadingDigits 0 ds, cs.drop ds.length)
  match skipBlank cs with
  | '-' :: rest => (signed rest).map fun r => (-(r.1 : Int), r.2)
  | '+' :: rest => (signed rest).map fun r => ((r.1 : Int), r.2)
  | rest => (number? 4 rest).map fun r => ((r.1 : Int), r.2)

/-- A given character, after blanks. -/
def mark? (c : Char) (cs : List Char) : Option (List Char) :=
  match skipBlank cs with
  | d :: rest => if d = c then some rest else none
  | [] => none

/-- The nanoseconds of an optional fraction; digits after the ninth are dropped. -/
def fraction? (cs : List Char) : Option (Nat × List Char) :=
  match cs with
  | '.' :: rest =>
    let ds := rest.takeWhile Char.isDigit
    let kept := ds.take 9
    if ds.isEmpty then none
    else some (appendLeadingDigits 0 kept * Nat.pow 10 (9 - kept.length), rest.drop ds.length)
  | cs => some (0, cs)

/-- A signed offset of hours and minutes, in seconds. -/
def signedOffset? (sign : Int) (cs : List Char) : Option (Int × List Char) :=
  match cs with
  | h1 :: h2 :: rest => do
    let tens ← digitValue? h1
    let ones ← digitValue? h2
    match rest.dropWhile fun c => c == ':' || isBlank c with
    | m1 :: m2 :: rest => do
      let minuteTens ← digitValue? m1
      let minuteOnes ← digitValue? m2
      if minuteTens ≤ 5 then
        let minutes := (tens * 10 + ones) * 60 + (minuteTens * 10 + minuteOnes)
        some (sign * (minutes * 60 : Nat), rest)
      else none
    | _ => none
  | _ => none

/-- The offset from UTC in seconds. -/
def offset? (cs : List Char) : Option (Int × List Char) :=
  match skipBlank cs with
  | 'Z' :: rest => some (0, rest)
  | 'z' :: rest => some (0, rest)
  | '+' :: rest => signedOffset? 1 rest
  | '-' :: rest => signedOffset? (-1) rest
  | '\u2212' :: rest => signedOffset? (-1) rest
  | a :: b :: c :: rest => if lowerAscii [a, b, c] = ['u', 't', 'c'] then some (0, rest) else none
  | _ => none

/-- The instant at which a clock that is `offset` seconds ahead of UTC shows a date and a time. -/
def ofLocal? (d : CalendarDay) (hour minute second nano : Nat) (offset : Int) : Option Instant :=
  let shown := if second = 60 then 59 else second
  let local' : Int := d.toEpochDay * 86400 + (hour * 3600 + minute * 60 + shown : Nat)
  let t : Instant := ⟨(local' - offset) * 1000000000 + nano, second = 60⟩
  if d.valid && -86400 < offset && offset < 86400 && t.hasDate then some t else none

/-- Read an instant from characters. -/
def ofChars? (cs : List Char) : Option Instant := do
  let (year, cs) ← year? cs
  let cs ← mark? '-' cs
  let (month, cs) ← field? 1 12 cs
  let cs ← mark? '-' cs
  let (day, cs) ← field? 1 31 cs
  let cs ←
    match cs with
    | 't' :: rest => some rest
    | 'T' :: rest => some rest
    | ' ' :: rest => some rest
    | _ => none
  let (hour, cs) ← field? 0 23 cs
  let cs ← mark? ':' cs
  let (minute, cs) ← field? 0 59 cs
  let cs ← mark? ':' cs
  let (second, cs) ← field? 0 60 cs
  let (nano, cs) ← fraction? cs
  let (offset, cs) ← offset? cs
  if (skipBlank cs).isEmpty then ofLocal? ⟨year, month, day⟩ hour minute second nano offset
  else none

/-- Read an instant. -/
def parse? (s : String) : Option Instant := ofChars? s.toList

end FleetControl.Instant
