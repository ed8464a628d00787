/-!
# UTF-8

Stored values are bytes, and a document is text only if its bytes are UTF-8. `decode` reads a byte
string character by character and answers `none` in the place of a byte that starts no
well-formed sequence, so a reader can still see the ASCII around it. `encode` writes characters.
-/

namespace FleetControl

/-- A stored value. -/
abbrev Bytes := List UInt8

namespace Utf8

/-- The bytes of one character: one to four, by the size of its number. -/
def encodeChar (c : Char) : Bytes :=
  let n := c.toNat
  if n < 0x80 then [UInt8.ofNat n]
  else if n < 0x800 then [UInt8.ofNat (0xC0 + n / 64), UInt8.ofNat (0x80 + n % 64)]
  else if n < 0x10000 then
    [UInt8.ofNat (0xE0 + n / 4096), UInt8.ofNat (0x80 + n / 64 % 64), UInt8.ofNat (0x80 + n % 64)]
  else
    [UInt8.ofNat (0xF0 + n / 262144), UInt8.ofNat (0x80 + n / 4096 % 64),
      UInt8.ofNat (0x80 + n / 64 % 64), UInt8.ofNat (0x80 + n % 64)]

/-- The bytes of a list of characters. -/
def encodeChars (cs : List Char) : Bytes := cs.flatMap encodeChar

/-- The bytes of a text. -/
def encode (s : String) : Bytes := encodeChars s.toList

/-- A byte that continues a character. -/
def isTail (b : UInt8) : Bool := 0x80 ≤ b.toNat && b.toNat ≤ 0xBF

/-- The six payload bits of a continuation byte. -/
def tailBits (b : UInt8) : Nat := b.toNat - 0x80

/-- The character that starts a byte string, and the bytes after it. `none` for an empty string
and for one that starts with no well-formed sequence: overlong forms, surrogates and numbers above
`U+10FFFF` are not well formed. -/
def decodeChar? : Bytes → Option (Char × Bytes)
  | [] => none
  | a :: rest =>
    let n := a.toNat
    if n < 0x80 then some (Char.ofNat n, rest)
    else if 0xC2 ≤ n && n ≤ 0xDF then
      match rest with
      | b :: rest =>
        if isTail b then some (Char.ofNat ((n - 0xC0) * 64 + tailBits b), rest) else none
      | _ => none
    else if 0xE0 ≤ n && n ≤ 0xEF then
      match rest with
      | b :: c :: rest =>
        let m := (n - 0xE0) * 4096 + tailBits b * 64 + tailBits c
        if isTail b && isTail c && 0x800 ≤ m && !(0xD800 ≤ m && m ≤ 0xDFFF) then
          some (Char.ofNat m, rest)
        else none
      | _ => none
    else if 0xF0 ≤ n && n ≤ 0xF4 then
      match rest with
      | b :: c :: d :: rest =>
        let m := (n - 0xF0) * 262144 + tailBits b * 4096 + tailBits c * 64 + tailBits d
        if isTail b && isTail c && isTail d && 0x10000 ≤ m && m ≤ 0x10FFFF then
          some (Char.ofNat m, rest)
        else none
      | _ => none
    else none

/-- Read with at most `fuel` steps; every step takes a byte at least. -/
def decodeFrom : Nat → Bytes → List (Option Char)
  | 0, _ => []
  | _, [] => []
  | fuel + 1, b :: rest =>
    match decodeChar? (b :: rest) with
    | some (c, rest') => some c :: decodeFrom fuel rest'
    | none => none :: decodeFrom fuel rest

/-- The characters of a byte string, with `none` for each byte that belongs to none. -/
def decode (bytes : Bytes) : List (Option Char) := decodeFrom bytes.length bytes

/-- All characters, if every place holds one. -/
def allChars : List (Option Char) → Option (List Char)
  | [] => some []
  | none :: _ => none
  | some c :: rest => (allChars rest).map (c :: ·)

/-- The text of a byte string that is UTF-8 throughout. -/
def decodeText? (bytes : Bytes) : Option String :=
  (allChars (decode bytes)).map String.ofList

end Utf8

end FleetControl
