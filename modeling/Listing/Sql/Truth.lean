import Listing.Sql.Clause

/-!
# Truth of clauses

Whether a row satisfies a clause, in the logic of three values: a comparison with null is neither true
nor false, and only what is true selects a row.
-/

namespace Listing.Sql

/-! ## Bound values -/

/-- The number that a text writes for binding as a floating-point number. -/
def readReal (s : String) : Except Failure Binary64 :=
  let cs := Text.trimBy Text.isNumberBlank s.toList
  match Numeral.splitDecimal? cs with
  | some (parts, []) => .ok parts.toBinary64
  | _ =>
    let (negative, rest) := Numeral.splitSign cs
    match Text.lower (String.ofList rest) with
    | "inf" | "infinity" => .ok (.infinite negative)
    | "nan" => .ok .nan
    | _ => .error .unfitBinding

/-- A floating-point number as a cell; what is not a number is null. -/
def Cell.ofReal : Binary64 → Cell
  | .nan => .null
  | x => .real x

namespace Bind

/-- Prepares a value for its type. -/
def prepare (b : Bind) : Except Failure Value :=
  match b.type with
  | .plain => .ok b.value
  | .boolean =>
    match b.value with
    | .none => .ok .none
    | v =>
      if v.same (.bool true) then .ok (.int 1) else if v.same (.bool false) then .ok (.int 0)
      else .error .unfitBinding
  | .real =>
    match b.value with
    | .none => .ok .none
    | .bool t => .ok (.float (.ofInt t.toInt))
    | .int n =>
      match Binary64.ofInt n with
      | .infinite _ => .error .unfitBinding
      | x => .ok (.float x)
    | .float x => .ok (.float x)
    | .bytes b => do
      match String.fromUTF8? ⟨b.toArray⟩ with
      | some s => return .float (← readReal s)
      | none => throw .unfitBinding
    | v => do
      match v.text? with
      | some s => return .float (← readReal s)
      | none => throw .unfitBinding
  | .binary =>
    match b.value with
    | .none => .ok .none
    | .bytes b => .ok (.bytes b)
    | _ => .error .unfitBinding

/-- The cell that a prepared value is bound as. -/
def store (v : Value) : Except Failure Cell :=
  match v with
  | .none => .ok .null
  | .bool b => .ok (.integer b.toInt)
  | .int n => if fits n then .ok (.integer n) else .error .integerPastStorage
  | .float x => .ok (Cell.ofReal x)
  | .bytes b => .ok (.blob b)
  | v =>
    match v.text? with
    | some s => .ok (.text s)
    | none => .error .unbindable

def cell (b : Bind) : Except Failure Cell := do store (← b.prepare)

/-- The cell that a value is bound as, for values that can be bound. -/
def cellOrNull (b : Bind) : Cell := b.cell.toOption.getD .null

end Bind

/-- Checks that values can be bound: all are prepared before the first is stored. -/
def checkBinds (binds : List Bind) : Except Failure Unit := do
  let prepared ← binds.mapM Bind.prepare
  for v in prepared do
    let _ ← Bind.store v

/-! ## Three values -/

/-- A truth value, or none where null leaves it open. -/
abbrev Truth := Option Bool

namespace Truth

def not (a : Truth) : Truth := a.map (!·)

/-- Conjunction: false settles it. -/
def and : Truth → Truth → Truth
  | some false, _ | _, some false => some false
  | some true, some true => some true
  | _, _ => none

/-- Disjunction: true settles it. -/
def or : Truth → Truth → Truth
  | some true, _ | _, some true => some true
  | some false, some false => some false
  | _, _ => none

end Truth

/-! ## Clauses -/

namespace Clause

def compareCells (sign : Sign) (a b : Cell) : Truth := (a.compare? b).map sign.holds

def memberOf (a : Cell) : List Cell → Truth
  | [] => some false
  | b :: bs => (compareCells .eq a b).or (memberOf a bs)

def pattern (place : Place) (text : String) : List PatternPart :=
  let inner := Pattern.literal text.toList
  Pattern.read (Pattern.seen (match place with
    | .anywhere => '%' :: inner ++ ['%']
    | .start => inner ++ ['%']
    | .finish => '%' :: inner))

mutual

/-- Whether a row of a database satisfies a clause. -/
def truthOf (db : Database) (row : Row) : Clause → Truth
  | constant b => some b
  | compare lowered t sign bound =>
    let a := t.cell row
    if lowered then compareCells sign a.lower bound.cellOrNull
    else compareCells sign a (bound.cellOrNull.drawn t.draws)
  | truth t equal b =>
    compareCells (if equal then .eq else .ne) (t.cell row) ((Cell.integer b.toInt).drawn t.draws)
  | null t isNull => some ((t.cell row).isNull == isNull)
  | member t among bounds =>
    let found := memberOf (t.cell row) (bounds.map fun b => b.cellOrNull.drawn t.draws)
    if among then found else found.not
  | like _ t place text =>
    (t.cell row).text?.map fun s => Pattern.accepts (pattern place text) (Pattern.seen s.toList)
  | related r inner =>
    some ((r.related db row).any fun other => truthOf db other inner == some true)
  | not c => (truthOf db row c).not
  | all cs => allTruth db row cs
  | any cs => anyTruth db row cs
termination_by structural c => c

def allTruth (db : Database) (row : Row) : List Clause → Truth
  | [] => some true
  | c :: cs => (truthOf db row c).and (allTruth db row cs)
termination_by structural cs => cs

def anyTruth (db : Database) (row : Row) : List Clause → Truth
  | [] => some false
  | c :: cs => (truthOf db row c).or (anyTruth db row cs)
termination_by structural cs => cs

end

/-- Whether a clause selects a row: only if it is true of it. -/
def selects (db : Database) (c : Clause) (row : Row) : Bool := truthOf db row c == some true

end Clause
end Listing.Sql
