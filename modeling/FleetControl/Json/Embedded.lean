import FleetControl.Json.Nesting
import FleetControl.Json.Parser

/-!
# Embedded documents

A value can be given as the text of a document. It is then an object with one member, whose key is
`embeddedKey` and whose value is the text; the object stands for the document. Whoever asks for any
value at all gets the document instead, and a document that is opened this way may embed others.

The key marks an object only as its first member, and nothing may come after it. An object that is
marked and does not hold the text of one document is no value.

* `expand` — a value with every object that stands for a document replaced, given a reader of texts.
* `openText` — the document in a text, expanded itself.
-/

namespace FleetControl.Json

/-- The key of the text of a document in the object that stands for it. -/
def embeddedKey : String := "$serde_json::private::RawValue"

/-- Whether an object with these members stands for a document. -/
def embeds : List (String × Json) → Bool
  | (key, _) :: _ => key == embeddedKey
  | [] => false

/-- The document that an object with these members stands for, given a reader of texts. -/
def document? (read : String → Option Json) : List (String × Json) → Option Json
  | [(_, .text s)] => read s
  | _ => none

mutual

/-- A value with every object that stands for a document replaced by the document. -/
def expand (read : String → Option Json) : Json → Option Json
  | .array items => (expandItems read items).map .array
  | .object members =>
    if embeds members then document? read members
    else (expandMembers read members).map .object
  | j => some j

/-- Every item expanded. -/
def expandItems (read : String → Option Json) : List Json → Option (List Json)
  | [] => some []
  | j :: rest => (expand read j).bind fun j => (expandItems read rest).map (j :: ·)

/-- Every member with its value expanded. -/
def expandMembers (read : String → Option Json) :
    List (String × Json) → Option (List (String × Json))
  | [] => some []
  | (key, j) :: rest =>
    (expand read j).bind fun j => (expandMembers read rest).map ((key, j) :: ·)

end

/-- The document in a text, with at most `fuel` texts one inside the other. It starts with levels
of its own, however deep the text was found. -/
def openWithin : Nat → String → Option Json
  | 0, _ => none
  | fuel + 1, s =>
    (parseText s).bind fun j => if readable levels j then expand (openWithin fuel) j else none

/-- The document in a text. A text inside it is shorter by its quotes at least, so the length of the
text bounds how many there are one inside the other. -/
def openText (s : String) : Option Json := openWithin (s.length + 1) s

end FleetControl.Json
