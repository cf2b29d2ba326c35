/-!
# Splitting texts

The parts of a text between separators, and the two sides of its first separator.
-/

namespace Listing.Text

/-- The parts of a text between separators; an empty text is one empty part. -/
def splitAt (separator : Char) : List Char → List (List Char)
  | [] => [[]]
  | c :: cs =>
    if c = separator then [] :: splitAt separator cs
    else match splitAt separator cs with
      | part :: parts => (c :: part) :: parts
      | [] => [[c]]

/-- What stands before the first of some characters, and the rest from it on. -/
def splitBefore (stops : List Char) (cs : List Char) : List Char × List Char :=
  (cs.takeWhile (!stops.contains ·), cs.dropWhile (!stops.contains ·))

/-- The two sides of the first separator, if there is one. -/
def splitFirst? (separator : Char) (cs : List Char) : Option (List Char × List Char) :=
  match splitBefore [separator] cs with
  | (before, _ :: after) => some (before, after)
  | (_, []) => none

/-- The two sides of the last separator, if there is one. -/
def splitLast? (separator : Char) (cs : List Char) : Option (List Char × List Char) :=
  (splitFirst? separator cs.reverse).map fun (after, before) => (before.reverse, after.reverse)

end Listing.Text
