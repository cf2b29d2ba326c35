import Listing.Predicate.Basic
import Listing.Value.Vocabulary

/-!
# Predicates of filters

The predicate that sanitized filters stand for: conditions written with native keys, relations as they
are, and bare values as equalities. A negation takes the key that an inequality has as well, and wins
over it; a mode is kept only beside an operator that searches in a text.
-/

namespace Listing.Predicate

/-- Whether a mapping is a condition on a field: at least one entry, and operators only. -/
def isCondition (es : Fields) : Bool := !es.isEmpty && es.all fun (k, _) => k.operator?.isSome

/-- Whether running through a value yields at least one operator and operators only. -/
def isConditionValue (v : Value) : Except Failure Bool :=
  if v.isTrue then do return (← v.iterate).all fun k => (Operator.ofValue? k).isSome
  else .ok false

def equality (v : Value) : Value := Value.single Operator.eq.nativeKey v

/-- The native entries of a condition, without mode and negation. -/
def plainEntries (es : Fields) : Fields :=
  es.filterMap fun (k, v) =>
    match k.operator? with
    | some .mode | some .not | none => none
    | some op => some (.text op.nativeKey, v)

/-- The native entry of the mode of a condition, if the condition searches in a text. -/
def modeEntry (es : Fields) : Fields :=
  match es.find Operator.mode.token with
  | some mode =>
    if mode.isTrue && Operator.textual.any (es.has ·.token) then [(.text Operator.mode.nativeKey, mode)]
    else []
  | none => []

/-- The native entries of a condition whose negation is given in native form. -/
def assemble (es : Fields) (negated : Option Value) : Fields :=
  let plain := plainEntries es
  (match negated with
    | some v => plain.put (.text Operator.not.nativeKey) v
    | none => plain) ++ modeEntry es

mutual

/-- The native form of the negation in a condition, if it has one that says anything. -/
def negation? : List (Key × Value) → Option Value
  | [] => none
  | (k, v) :: rest => if k.operator? = some .not then negated? v else negation? rest
termination_by structural es => es

/-- The native form of what is negated; a condition that says nothing has none. -/
def negated? : Value → Option Value
  | .map es =>
    if isCondition es then
      let inner := assemble es (negation? es)
      if inner.isEmpty then none else some (.map inner)
    else some (equality (.map es))
  | v => some (equality v)
termination_by structural v => v

end

/-- The native form of a condition. -/
def condition (es : Fields) : Fields := assemble es (negation? es)

mutual

/-- The predicate of filters. -/
def ofFilters : List (Key × Value) → Fields
  | [] => []
  | (k, v) :: rest => (k, ofFilter v) :: ofFilters rest
termination_by structural es => es

def ofFilter : Value → Value
  | .map es => if isCondition es then .map (condition es) else .map (ofFilters es)
  | v => equality v
termination_by structural v => v

end
end Listing.Predicate
