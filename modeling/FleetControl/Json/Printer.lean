import FleetControl.Json.Number
import FleetControl.Text.Utf8

/-!
# JSON as text

The compact form: no blanks, members in the order of the tree. Inside strings only the quote, the
backslash and the controls below `U+0020` are escaped, five of those by a letter.
-/

namespace FleetControl.Json

/-- The characters that stand for one character inside a string. -/
def escapeChar (c : Char) : List Char :=
  if c = '"' then ['\\', '"']
  else if c = '\\' then ['\\', '\\']
  else if c.toNat = 0x08 then ['\\', 'b']
  else if c.toNat = 0x0C then ['\\', 'f']
  else if c = '\n' then ['\\', 'n']
  else if c = '\r' then ['\\', 'r']
  else if c = '\t' then ['\\', 't']
  else if c.toNat < 0x20 then
    ['\\', 'u', '0', '0', Nat.digitChar (c.toNat / 16), Nat.digitChar (c.toNat % 16)]
  else [c]

/-- A string between quotes. -/
def textChars (s : String) : List Char := '"' :: (s.toList.flatMap escapeChar ++ ['"'])

mutual

/-- The compact form of a value. What cannot be read cannot be written either: it stands as
`null`. -/
def chars : Json → List Char
  | .null => ['n', 'u', 'l', 'l']
  | .bool true => ['t', 'r', 'u', 'e']
  | .bool false => ['f', 'a', 'l', 's', 'e']
  | .number n => n.chars
  | .text s => textChars s
  | .array [] => ['[', ']']
  | .array (j :: rest) => '[' :: (chars j ++ itemsChars rest)
  | .object [] => ['\x7b', '\x7d']
  | .object ((k, j) :: rest) => '\x7b' :: (textChars k ++ ':' :: (chars j ++ membersChars rest))
  | .unreadable => ['n', 'u', 'l', 'l']

/-- The items after the first and the closing bracket. -/
def itemsChars : List Json → List Char
  | [] => [']']
  | j :: rest => ',' :: (chars j ++ itemsChars rest)

/-- The members after the first and the closing brace. -/
def membersChars : List (String × Json) → List Char
  | [] => ['\x7d']
  | (k, j) :: rest => ',' :: (textChars k ++ ':' :: (chars j ++ membersChars rest))

end

/-- The compact form of a value. -/
def render (j : Json) : String := String.ofList j.chars

/-- The bytes of the compact form. -/
def bytes (j : Json) : Bytes := Utf8.encodeChars j.chars

end FleetControl.Json
