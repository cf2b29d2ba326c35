import Listing.Sql.Schema
import Listing.Text.Lower
import Listing.Value.Display

/-!
# Clauses

The conditions of a statement. Negation is pushed into simple comparisons; a constant that is negated
becomes a truth value, which a conjunction absorbs or is settled by.
-/

namespace Listing.Sql

/-- How a bound value is prepared before it is handed over. -/
inductive BindType where
  | plain | boolean | real | binary
deriving DecidableEq, Inhabited

/-- A value bound to a statement. -/
structure Bind where
  type : BindType
  value : Value
deriving Inhabited

/-- The type of what is bound beside a term: that of the value or, where the value has none, that of
the term. -/
def BindType.beside (t : ColumnType) (v : Value) : BindType :=
  match v with
  | .bool _ => .boolean
  | .float _ => .real
  | .bytes _ => .binary
  | .int _ | .text _ => .plain
  | _ => if t = .real then .real else .plain

/-- A comparison with a bound value. -/
inductive Sign where
  | eq | ne | lt | le | gt | ge
deriving DecidableEq

namespace Sign

def symbol : Sign → String
  | eq => "=" | ne => "!=" | lt => "<" | le => "<=" | gt => ">" | ge => ">="

/-- The sign that holds where another does not, null apart. -/
def negate : Sign → Sign
  | eq => ne | ne => eq | lt => ge | ge => lt | gt => le | le => gt

def holds : Sign → Ordering → Bool
  | eq, o => o == .eq
  | ne, o => o != .eq
  | lt, o => o == .lt
  | le, o => o != .gt
  | gt, o => o == .gt
  | ge, o => o != .lt

end Sign

/-- Where a text is searched for in another. -/
inductive Place where
  | anywhere | start | finish
deriving DecidableEq

/-- A condition of a statement. -/
inductive Clause where
  /-- Holds of all rows or of none. -/
  | constant (b : Bool)
  /-- Compares a term, in lower case if asked for, with a bound value. -/
  | compare (lowered : Bool) (t : Term) (sign : Sign) (bound : Bind)
  /-- Compares a term with a truth value; `equal` tells for equality. -/
  | truth (t : Term) (equal b : Bool)
  /-- Tests for null; `isNull` tells what is asked for. -/
  | null (t : Term) (isNull : Bool)
  /-- Tests whether a term is among bound values, or is not. -/
  | member (t : Term) (among : Bool) (bounds : List Bind)
  /-- Searches for a text, without regard to the case of ASCII letters. -/
  | like (lowered : Bool) (t : Term) (place : Place) (text : String)
  /-- Holds where a related row satisfies a clause. -/
  | related (r : Relation) (inner : Clause)
  | not (c : Clause)
  | all (cs : List Clause)
  | any (cs : List Clause)
deriving Inhabited

/-- A part of a conjunction: a clause, or a truth value that leaves or settles it. -/
inductive Conjunct where
  | clause (c : Clause)
  | settled (b : Bool)

namespace Clause

/-- The parts of a conjunction; any other clause is its own part. -/
def conjuncts : Clause → List Clause
  | all cs => cs
  | c => [c]

/-- The parts of a disjunction; any other clause is its own part. -/
def disjuncts : Clause → List Clause
  | any cs => cs
  | c => [c]

def conjunction (parts : List Conjunct) : Clause :=
  if parts.any fun
      | .settled false => true
      | _ => false
  then constant false
  else
    match parts.filterMap fun
      | .clause c => some c
      | .settled _ => none
    with
    | [] => constant true
    | [c] => c
    | cs => all (cs.flatMap conjuncts)

def disjunction (parts : List Clause) : Clause :=
  match parts with
  | [] => constant false
  | [c] => c
  | cs => any (cs.flatMap disjuncts)

/-- The part of a conjunction that negates a clause. -/
def negate : Clause → Conjunct
  | constant b => .settled !b
  | compare lowered t sign bound => .clause (compare lowered t sign.negate bound)
  | truth t equal b => .clause (truth t (!equal) b)
  | null t isNull => .clause (null t !isNull)
  | member t among bounds => .clause (member t (!among) bounds)
  | not (like lowered t place text) => .clause (like lowered t place text)
  | c => .clause (not c)

/-- The value of a column's multiple, which is bound too. -/
def termBinds : Term → List Bind
  | .column _ => []
  | .multiple _ factor => [⟨.plain, .int factor⟩]

mutual

/-- The values bound to a clause, in the order of its text. -/
def binds : Clause → List Bind
  | constant _ => []
  | compare _ t _ bound => termBinds t ++ [bound]
  | truth t _ _ => termBinds t
  | null t _ => termBinds t
  | member t _ bounds => termBinds t ++ bounds
  | like _ t _ text =>
    termBinds t ++ [⟨.plain, .text (String.ofList (Pattern.literal text.toList))⟩]
  | related _ inner => binds inner
  | not c => binds c
  | all cs => bindsAll cs
  | any cs => bindsAll cs
termination_by structural c => c

def bindsAll : List Clause → List Bind
  | [] => []
  | c :: cs => binds c ++ bindsAll cs
termination_by structural cs => cs

end
end Clause
end Listing.Sql
