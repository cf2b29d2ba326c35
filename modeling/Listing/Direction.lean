import Listing.Text.Blank
import Listing.Text.Lower

/-!
# Sort directions
-/

namespace Listing

inductive Direction where
  | asc | desc
deriving DecidableEq, Repr, Inhabited

namespace Direction

def all : List Direction := [.asc, .desc]

def word : Direction → String
  | asc => "asc"
  | desc => "desc"

def name : Direction → String
  | asc => "ASC"
  | desc => "DESC"

/-- The direction that a word names: short or long, in any case, with blanks around. -/
def ofWord? (s : String) : Option Direction :=
  match Text.lower (Text.trim s) with
  | "asc" | "ascending" => some .asc
  | "desc" | "descending" => some .desc
  | _ => none

end Direction
end Listing
