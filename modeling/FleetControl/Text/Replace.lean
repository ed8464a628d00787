/-!
# Cutting and replacing in text

Occurrences are found from left to right and do not overlap.
-/

namespace FleetControl.Text

/-- Replace occurrences of `pattern`, after skipping the rest of the one just replaced. -/
def replaceFrom (pattern replacement : List Char) : Nat → List Char → List Char
  | _, [] => []
  | skip + 1, _ :: rest => replaceFrom pattern replacement skip rest
  | 0, c :: rest =>
    if pattern.isPrefixOf (c :: rest) then
      replacement ++ replaceFrom pattern replacement (pattern.length - 1) rest
    else c :: replaceFrom pattern replacement 0 rest

/-- Replace every occurrence of a non-empty pattern. -/
def replaceAll (pattern replacement : List Char) (cs : List Char) : List Char :=
  replaceFrom pattern replacement 0 cs

/-- Replace every occurrence of one text by another, in lists of such pairs one after the other. -/
def replaceEach (pairs : List (String × String)) (cs : List Char) : List Char :=
  pairs.foldl (fun cs p => replaceAll p.1.toList p.2.toList cs) cs

/-- The pieces between the occurrences of a character; one more than there are occurrences. -/
def splitAt (mark : Char) : List Char → List (List Char)
  | [] => [[]]
  | c :: rest =>
    if c = mark then [] :: splitAt mark rest
    else
      match splitAt mark rest with
      | piece :: pieces => (c :: piece) :: pieces
      | [] => [[c]]

end FleetControl.Text
