/-!
# Blank characters

White space is the Unicode property `White_Space`: twenty-five characters, some of them far
outside ASCII (`U+0085`, `U+2003`, `U+3000`), and none of the zero-width ones (`U+200B`, `U+FEFF`).
Names, schedules and settings are trimmed and tested for emptiness by this one class.

* `trim` — drops blank characters at both ends;
* `fields` — the maximal runs of non-blank characters, in order.
-/

namespace FleetControl.Text

/-- The white space of Unicode. -/
def isBlank (c : Char) : Bool :=
  let n := c.toNat
  (0x9 ≤ n && n ≤ 0xD) || n == 0x20 || n == 0x85 || n == 0xA0 || n == 0x1680 ||
    (0x2000 ≤ n && n ≤ 0x200A) || n == 0x2028 || n == 0x2029 || n == 0x202F ||
    n == 0x205F || n == 0x3000

/-- Drop the blank characters at both ends. -/
def trimChars (cs : List Char) : List Char :=
  ((cs.dropWhile isBlank).reverse.dropWhile isBlank).reverse

/-- Drop the blank characters at both ends of a text. -/
def trim (s : String) : String :=
  String.ofList (trimChars s.toList)

/-- A text that holds nothing but blank characters. -/
def isAllBlank (s : String) : Bool :=
  s.toList.all isBlank

/-- The maximal runs of non-blank characters, left to right: `word` is the run being read. -/
def fieldsFrom (word : List Char) : List Char → List (List Char)
  | [] => if word.isEmpty then [] else [word.reverse]
  | c :: rest =>
    if isBlank c then
      if word.isEmpty then fieldsFrom [] rest else word.reverse :: fieldsFrom [] rest
    else fieldsFrom (c :: word) rest

/-- The maximal runs of non-blank characters, left to right. -/
def fields (cs : List Char) : List (List Char) := fieldsFrom [] cs

/-- Lower-case the ASCII letters and leave every other character alone. -/
def lowerAscii (cs : List Char) : List Char := cs.map Char.toLower

end FleetControl.Text
