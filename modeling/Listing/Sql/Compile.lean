import Listing.Sql.Registry

/-!
# Compiling predicates

Turns a predicate on a model into a clause. A key must name a junction, a relation or a term of the
model that is reached there; a relation takes a predicate on its target, a term takes a condition, and
anything else is unsupported.
-/

namespace Listing.Sql

/-- Whether a key skips the condition entry that it heads. -/
def isModeKey (k : Key) : Bool := k.same (.text NativeKey.mode.name)

def isNotKey (k : Key) : Bool := k.same (.text NativeKey.not.name)

/-- The failure of a value that stands where a predicate must. -/
def notPredicate {α : Type} (v : Value) : Except Failure α := .error (.noMember v.kind "items")

/-- The clause of an operator that a registry has for a key. -/
def applyOperator (registry : Registry) (m : Model) (t : Term) (insensitive : Bool) (k : Key)
    (v : Value) : Except Failure Conjunct :=
  match k.name?.bind registry.get? with
  | some op => do return .clause (← op.apply t v insensitive)
  | none => .error (m.unsupported k)

mutual

/-- The parts of a condition on a term. -/
def conditionParts (registry : Registry) (m : Model) (t : Term) (insensitive : Bool) :
    List (Key × Value) → Except Failure (List Conjunct)
  | [] => .ok []
  | (k, v) :: rest => do
    let part ←
      if isModeKey k then pure none
      else some <$> conditionPart registry m t insensitive k v
    let parts ← conditionParts registry m t insensitive rest
    return part.toList ++ parts
termination_by structural es => es

def conditionPart (registry : Registry) (m : Model) (t : Term) (insensitive : Bool) (k : Key) :
    Value → Except Failure Conjunct
  | .map es =>
    if isNotKey k then do
      let parts ← conditionParts registry m t (Predicate.isInsensitive es) es
      return (Clause.conjunction parts).negate
    else applyOperator registry m t insensitive k (.map es)
  | v => applyOperator registry m t insensitive k v
termination_by structural v => v

end

def compileCondition (registry : Registry) (m : Model) (t : Term) (es : Fields) :
    Except Failure Clause := do
  return Clause.conjunction (← conditionParts registry m t (Predicate.isInsensitive es) es)

def joined (j : Predicate.Junction) (cs : List Clause) : Conjunct :=
  match j with
  | .all => .clause (Clause.conjunction (cs.map .clause))
  | .any => .clause (Clause.disjunction cs)
  | .none => (Clause.disjunction cs).negate

/-- The part of a key with an operand that is no mapping: a junction over one, which is none, or a
term compared with it. -/
def scalarPart (m : Model) (k : Key) (v : Value) : Except Failure Conjunct :=
  if (k.name?.bind m.relation?).isSome then .error (m.unsupported k)
  else do return .clause (← NativeOperator.comparison false (← m.term k) .eq v)

mutual

def predicateParts (schema : Schema) (registry : Registry) (m : Model) :
    List (Key × Value) → Except Failure (List Conjunct)
  | [] => .ok []
  | (k, v) :: rest => do
    let part ← predicatePart schema registry m k v
    return part :: (← predicateParts schema registry m rest)
termination_by structural es => es

def predicatePart (schema : Schema) (registry : Registry) (m : Model) (k : Key) :
    Value → Except Failure Conjunct
  | .map es =>
    match Predicate.junction? k with
    | some j => do
      return joined j [Clause.conjunction (← predicateParts schema registry m es)]
    | none =>
      match k.name?.bind m.relation? with
      | some r =>
        if Predicate.isNativeCondition es then .error (m.unsupported k)
        else
          match schema.model? r.target with
          | some target => do
            let inner ← predicateParts schema registry target es
            return .clause (.related r (Clause.conjunction inner))
          | none => .error (m.unsupported k)
      | none => do
        let t ← m.term k
        if Predicate.isNativeCondition es then return .clause (← compileCondition registry m t es)
        else throw (m.unsupported k)
  | .list ps =>
    match Predicate.junction? k with
    | some j => do return joined j (← predicateAll schema registry m ps)
    | none => scalarPart m k (.list ps)
  | .tuple ps =>
    match Predicate.junction? k with
    | some j => do return joined j (← predicateAll schema registry m ps)
    | none => scalarPart m k (.tuple ps)
  | v =>
    match Predicate.junction? k with
    | some _ => notPredicate v
    | none => scalarPart m k v
termination_by structural v => v

def predicateClause (schema : Schema) (registry : Registry) (m : Model) :
    Value → Except Failure Clause
  | .map es => do return Clause.conjunction (← predicateParts schema registry m es)
  | v => notPredicate v
termination_by structural v => v

def predicateAll (schema : Schema) (registry : Registry) (m : Model) :
    List Value → Except Failure (List Clause)
  | [] => .ok []
  | p :: ps => do
    let c ← predicateClause schema registry m p
    return c :: (← predicateAll schema registry m ps)
termination_by structural ps => ps

end

/-- The clause of a predicate on a model. -/
def compile (schema : Schema) (registry : Registry) (m : Model) (predicate : Value) :
    Except Failure Clause :=
  predicateClause schema registry m predicate

structure SortTerm where
  term : Term
  falling : Bool

/-- The terms that an order names; what counts as false names none. -/
def compileOrder (m : Model) (order : Value) : Except Failure (List SortTerm) :=
  if order.isTrue then do
    (← order.fieldsFor "items").mapM fun (k, direction) => do
      return ⟨← m.term k, direction.same (.text Direction.desc.word)⟩
  else .ok []

end Listing.Sql
