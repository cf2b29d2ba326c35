import Listing.Number.Reading
import Listing.Value.Basic

/-!
# Texts of values

How a value reads as a text: a text as it is, and every other value as it would be written down, with
texts inside it quoted. Integers of more than `digitLimit` digits have no text.
-/

namespace Listing

def Value.writeInteger (n : Int) : Except Failure String :=
  if digitLimit < (toString n.natAbs).length then .error .longInteger else .ok (toString n)

def Key.written : Key → Except Failure String
  | .int n => Value.writeInteger n
  | k => .ok (Failure.quotedKey k)

mutual

def Rule.written : Rule → Except Failure String
  | .operators ops =>
    .ok ("OperatorSet(operators=frozenset(" ++
      (if ops.isEmpty then ""
        else "\x7b" ++ ", ".intercalate (ops.map fun op => Failure.quotedKey (.operator op)) ++ "\x7d") ++
      "))")
  | .nested fields => do
    return "NestedPolicy(filterable=\x7b" ++ ", ".intercalate (← Rule.writtenFields fields) ++ "\x7d)"
termination_by structural r => r

def Rule.writtenFields : List (Key × Rule) → Except Failure (List String)
  | [] => .ok []
  | (k, r) :: rest => do
    let k ← k.written
    let r ← Rule.written r
    return (k ++ ": " ++ r) :: (← Rule.writtenFields rest)
termination_by structural fields => fields

end

def SortRule.written : SortRule → String
  | .allowed b => if b then "True" else "False"
  | .forced d => Failure.quotedKey (.direction d)

/-- A row of texts between brackets, marked where it is a tuple of one. -/
def Value.tupleText : List String → String
  | [s] => "(" ++ s ++ ",)"
  | texts => "(" ++ ", ".intercalate texts ++ ")"

def FieldPolicy.written (p : FieldPolicy) : Except Failure String := do
  let filterable ← Rule.writtenFields p.filterable
  let sortable ← p.sortable.mapM fun (k, r) => return (← k.written) ++ ": " ++ r.written
  return "FieldPolicy(filterable=\x7b" ++ ", ".intercalate filterable ++ "\x7d, searchable=" ++
    Value.tupleText (p.searchable.map Text.quoted) ++ ", sortable=\x7b" ++
    ", ".intercalate sortable ++ "\x7d)"

namespace Value

mutual

/-- A value as it is written down. -/
def written : Value → Except Failure String
  | none => .ok "None"
  | bool b => .ok (if b then "True" else "False")
  | int n => writeInteger n
  | float x => .ok x.display
  | text s => .ok (Text.quoted s)
  | bytes b => .ok (Text.quotedBytes b)
  | operator op => .ok (Failure.quotedKey (.operator op))
  | direction d => .ok (Failure.quotedKey (.direction d))
  | list xs => do return "[" ++ ", ".intercalate (← writtenAll xs) ++ "]"
  | tuple xs => do return tupleText (← writtenAll xs)
  | set [] => .ok "set()"
  | set xs => do return "\x7b" ++ ", ".intercalate (← writtenAll xs) ++ "\x7d"
  | map es => do return "\x7b" ++ ", ".intercalate (← writtenEntries es) ++ "\x7d"
  | object .. => .ok "<Obj>"
  | items _ => .ok "<Multi>"
  | rule r => r.written
  | policy p => p.written
termination_by structural v => v

def writtenAll : List Value → Except Failure (List String)
  | [] => .ok []
  | x :: xs => do
    let s ← written x
    return s :: (← writtenAll xs)
termination_by structural xs => xs

def writtenEntries : List (Key × Value) → Except Failure (List String)
  | [] => .ok []
  | (k, v) :: rest => do
    let k ← k.written
    let s ← written v
    return (k ++ ": " ++ s) :: (← writtenEntries rest)
termination_by structural es => es

end

/-- The text of a value: of a text itself, of a member its declared name, of all else what is written
down. -/
def display : Value → Except Failure String
  | text s => .ok s
  | operator op => .ok ("FilterOperator." ++ op.name)
  | direction d => .ok ("SortDirection." ++ d.name)
  | v => v.written

end Value
end Listing
