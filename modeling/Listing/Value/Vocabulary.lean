import Listing.Value.Basic

/-!
# Words as values

The operator or direction that a value names: a member of the vocabulary names itself, a text names
what its token stands for, and any other value names nothing.
-/

namespace Listing

def Operator.ofValue? (v : Value) : Option Operator := v.text?.bind Operator.ofToken?

/-- The operator that a value names, with or without its mark. -/
def Operator.ofValueWord? (v : Value) : Option Operator := v.text?.bind Operator.ofWord?

def Direction.ofValue? (v : Value) : Option Direction := v.text?.bind Direction.ofWord?

end Listing
