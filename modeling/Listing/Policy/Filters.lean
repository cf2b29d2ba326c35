import Listing.Journal
import Listing.Value.Vocabulary

/-!
# Filters under a policy

Holds the filters of a client against the rules of a policy and keeps what they allow: conditions with
allowed operators only, relations with something left in them. Everything else is dropped without an
error, since a field that no rule lists must look the same as no filter at all.
-/

namespace Listing

def Operator.allowedBy (op : Operator) (ops : List Operator) : Bool := ops.contains op

/-- The rule for a key; only names have rules. -/
def Rule.forKey? (rules : Entries Rule) (k : Key) : Option Rule :=
  k.name?.bind rules.find

namespace Sanitize

/-- A bare value where a condition is expected: an equality, if that is allowed. -/
def bare (ops : List Operator) (v : Value) : Fields :=
  if Operator.eq.allowedBy ops then [(.text Operator.eq.token, v)] else []

/-- Whether a condition says anything: a mode alone does not. -/
def negates (condition : Fields) : Bool :=
  condition.any fun (k, _) => !k.same (.text Operator.mode.token)

mutual

/-- The allowed entries of a condition. -/
def condition (ops : List Operator) : List (Key × Value) → Fields
  | [] => []
  | (k, v) :: rest =>
    (match k.operator? with
      | some op => if op.allowedBy ops then operand ops op v else []
      | none => []) ++ condition ops rest
termination_by structural es => es

/-- The entry that an allowed operator leaves. A condition under a negation is held to the same
operators. -/
def operand (ops : List Operator) (op : Operator) : Value → Fields
  | .map es =>
    if op = .not then
      let inner := condition ops es
      if negates inner then [(.text op.token, .map inner)] else []
    else [(.text op.token, .map es)]
  | v => [(.text op.token, v)]
termination_by structural v => v

end

mutual

/-- The allowed entries of filters. -/
def fields (rules : Entries Rule) : List (Key × Value) → Fields
  | [] => []
  | (k, v) :: rest =>
    (match Rule.forKey? rules k with
      | some rule =>
        let kept := field rule v
        if kept.isEmpty then [] else [(k, .map kept)]
      | none => []) ++ fields rules rest
termination_by structural es => es

/-- What a rule leaves of the filter on its field. -/
def field (rule : Rule) : Value → Fields
  | .map es =>
    match rule with
    | .operators ops => condition ops es
    | .nested rules => fields rules es
  | v =>
    match rule with
    | .operators ops => bare ops v
    | .nested _ => []
termination_by structural v => v

end

mutual

def fieldsJournal (rules : Entries Rule) : List (Key × Value) → Journal
  | [] => []
  | (k, v) :: rest =>
    (match Rule.forKey? rules k with
      | some rule =>
        fieldJournal rule v ++ if (field rule v).isEmpty then [.noAllowedOperator k] else []
      | none => [.unfilterableField k]) ++ fieldsJournal rules rest
termination_by structural es => es

def fieldJournal (rule : Rule) : Value → Journal
  | .map es =>
    match rule with
    | .operators _ => []
    | .nested rules => fieldsJournal rules es
  | _ => []
termination_by structural v => v

end
end Sanitize

namespace FieldPolicy

/-- The filters that the policy allows. -/
def sanitizeFilters (p : FieldPolicy) (filters : Fields) : Fields :=
  Sanitize.fields p.filterable filters

def filtersJournal (p : FieldPolicy) (filters : Fields) : Journal :=
  Sanitize.fieldsJournal p.filterable filters

end FieldPolicy

/-- The filters or sort that a value is; what is no mapping is none. -/
def Value.asFields (v : Value) : Fields := v.fields?.getD []

end Listing
