import Listing.Value.Equality

/-!
# Sources of parameters

The raw parameters of a request as a row of pairs: a mapping (with a list for a repeated key), a
multi-valued query object, or anything that runs through pairs.
-/

namespace Listing.Source

def pair? (v : Value) : Except Failure (Value × Value) :=
  match v.iterate with
  | .error _ => .error (.notUnpackable v.kind)
  | .ok [a, b] => .ok (a, b)
  | .ok (_ :: _ :: _ :: _) => .error .tooManyToUnpack
  | .ok xs => .error (.tooFewToUnpack xs.length)

def entryPairs (k : Key) (v : Value) : List (Value × Value) :=
  match v with
  | .list xs | .tuple xs => xs.map (Value.ofKey k, ·)
  | v => [(Value.ofKey k, v)]

/-- The pairs of raw parameters; what has no parts has no pairs. -/
def pairs (raw : Value) : Except Failure (List (Value × Value)) :=
  match raw with
  | .items ps => .ok ps
  | .map es => .ok (es.flatMap fun (k, v) => entryPairs k v)
  | raw =>
    match raw.iterate with
    | .ok xs => xs.mapM pair?
    | .error _ => .ok []

def first? (pairs : List (Value × Value)) (name : String) : Option Value :=
  (pairs.find? fun (k, _) => k.same (.text name)).map (·.2)

end Listing.Source
