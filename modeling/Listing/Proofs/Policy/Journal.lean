import Listing.Params.Tree
import Listing.Policy.Filters
import Listing.Policy.Sort
import Mathlib.Data.List.Forall2

/-!
# Values stay out of the journal

Reading filters and holding them against a policy goes by their outline, the keys of their mappings; what
stands in place of an operand is carried along unread. Blanking the operands before a stage is blanking
them after it, and changes no event. A sort is noted by its names and by whether each word is a direction.
-/

namespace Listing

/-! ## Outlines -/

namespace Value

mutual

/-- A value in which all that is no mapping is blanked. -/
def outline : Value → Value
  | .map es => .map (outlineEntries es)
  | _ => .none
termination_by structural v => v

def outlineEntries : List (Key × Value) → Fields
  | [] => []
  | (k, v) :: rest => (k, outline v) :: outlineEntries rest
termination_by structural es => es

end

theorem outlineEntries_eq (es : Fields) : outlineEntries es = es.map fun e => (e.1, e.2.outline) := by
  induction es with
  | nil => rfl
  | cons e es ih =>
    obtain ⟨k, v⟩ := e
    rw [outlineEntries, ih, List.map_cons]

theorem outlineEntries_append (es fs : Fields) :
    outlineEntries (es ++ fs) = outlineEntries es ++ outlineEntries fs := by
  simp only [outlineEntries_eq, List.map_append]

theorem isEmpty_outlineEntries (es : Fields) : (outlineEntries es).isEmpty = es.isEmpty := by
  cases es <;> rfl

theorem any_outlineEntries (p : Key → Bool) (es : Fields) :
    ((outlineEntries es).any fun e => p e.1) = es.any fun e => p e.1 := by
  rw [outlineEntries_eq, List.any_map]
  rfl

end Value

open Value

/-! ## Reading filters -/

namespace FilterTree

theorem knownOperators_outline (es : Fields) :
    knownOperators (outlineEntries es) = outlineEntries (knownOperators es) := by
  rw [outlineEntries_eq, outlineEntries_eq, knownOperators, knownOperators, List.filterMap_map,
    List.map_filterMap]
  refine List.filterMap_congr fun e _ => ?_
  cases hop : e.1.operator? <;> simp [hop]

theorem entry_outline (k : Key) (es : Fields) :
    entry k (outlineEntries es) = outlineEntries (entry k es) := by
  unfold entry
  rw [isEmpty_outlineEntries]
  split <;> rfl

mutual

theorem ofJson_outline : ∀ es, ofJson (outlineEntries es) = outlineEntries (ofJson es)
  | [] => rfl
  | (k, v) :: rest => by
    rw [outlineEntries, ofJson, ofJson, outlineEntries_append, ofJson_outline rest,
      ofJsonValue_outline k v]
    split <;> rfl

theorem ofJsonValue_outline (k : Key) :
    ∀ v, ofJsonValue k v.outline = outlineEntries (ofJsonValue k v)
  | .map es => by
    rw [outline, ofJsonValue, ofJsonValue, any_outlineEntries isMarked]
    split
    · rw [knownOperators_outline, entry_outline]
    · rw [ofJson_outline es, entry_outline]
  | .none | .bool _ | .int _ | .float _ | .text _ | .bytes _ | .operator _ | .direction _ | .list _
  | .tuple _ | .set _ | .object _ _ | .items _ | .rule _ | .policy _ => rfl

end

mutual

theorem jsonJournal_outline : ∀ es, jsonJournal (outlineEntries es) = jsonJournal es
  | [] => rfl
  | (k, v) :: rest => by
    rw [outlineEntries, jsonJournal, jsonJournal, jsonJournal_outline rest,
      jsonValueJournal_outline k v]

theorem jsonValueJournal_outline (k : Key) :
    ∀ v, jsonValueJournal k v.outline = jsonValueJournal k v
  | .map es => by
    rw [outline, jsonValueJournal, jsonValueJournal, any_outlineEntries isMarked,
      jsonJournal_outline es]
    split
    · rw [outlineEntries_eq, List.filter_map, List.map_map]
      rfl
    · rfl
  | .none | .bool _ | .int _ | .float _ | .text _ | .bytes _ | .operator _ | .direction _ | .list _
  | .tuple _ | .set _ | .object _ _ | .items _ | .rule _ | .policy _ => rfl

end
end FilterTree

/-! ## Holding filters against a policy -/

namespace Sanitize

theorem bare_outline (ops : List Operator) (v : Value) :
    bare ops v.outline = outlineEntries (bare ops v) := by
  unfold bare
  split <;> rfl

mutual

theorem condition_outline (ops : List Operator) :
    ∀ es, condition ops (outlineEntries es) = outlineEntries (condition ops es)
  | [] => rfl
  | (k, v) :: rest => by
    rw [outlineEntries, condition, condition, outlineEntries_append, condition_outline ops rest]
    cases k.operator? with
    | none => rfl
    | some op =>
      dsimp only
      rw [operand_outline ops op v]
      split <;> rfl

theorem operand_outline (ops : List Operator) (op : Operator) :
    ∀ v, operand ops op v.outline = outlineEntries (operand ops op v)
  | .map es => by
    rw [outline, operand, operand, condition_outline ops es]
    split
    · dsimp only
      rw [negates, negates, any_outlineEntries fun k => !k.same (.text Operator.mode.token)]
      split <;> rfl
    · rfl
  | .none | .bool _ | .int _ | .float _ | .text _ | .bytes _ | .operator _ | .direction _ | .list _
  | .tuple _ | .set _ | .object _ _ | .items _ | .rule _ | .policy _ => rfl

end

mutual

theorem fields_outline (rules : Entries Rule) :
    ∀ es, fields rules (outlineEntries es) = outlineEntries (fields rules es)
  | [] => rfl
  | (k, v) :: rest => by
    rw [outlineEntries, fields, fields, outlineEntries_append, fields_outline rules rest]
    cases Rule.forKey? rules k with
    | none => rfl
    | some rule =>
      dsimp only
      rw [field_outline rule v, isEmpty_outlineEntries]
      split <;> rfl

theorem field_outline (rule : Rule) :
    ∀ v, field rule v.outline = outlineEntries (field rule v)
  | .map es => by
    rw [outline]
    cases rule with
    | operators ops => exact condition_outline ops es
    | nested rules => exact fields_outline rules es
  | .none | .bool _ | .int _ | .float _ | .text _ | .bytes _ | .operator _ | .direction _ | .list _
  | .tuple _ | .set _ | .object _ _ | .items _ | .rule _ | .policy _ => by
    cases rule with
    | operators ops => exact bare_outline ops _
    | nested rules => rfl

end

mutual

/-- The events of sanitizing filters are those of sanitizing their outline. -/
theorem fieldsJournal_outline (rules : Entries Rule) :
    ∀ es, fieldsJournal rules (outlineEntries es) = fieldsJournal rules es
  | [] => rfl
  | (k, v) :: rest => by
    rw [outlineEntries, fieldsJournal, fieldsJournal, fieldsJournal_outline rules rest]
    cases Rule.forKey? rules k with
    | none => rfl
    | some rule =>
      dsimp only
      rw [fieldJournal_outline rule v, field_outline rule v, isEmpty_outlineEntries]

theorem fieldJournal_outline (rule : Rule) :
    ∀ v, fieldJournal rule v.outline = fieldJournal rule v
  | .map es => by
    rw [outline]
    cases rule with
    | operators ops => rfl
    | nested rules => exact fieldsJournal_outline rules es
  | .none | .bool _ | .int _ | .float _ | .text _ | .bytes _ | .operator _ | .direction _ | .list _
  | .tuple _ | .set _ | .object _ _ | .items _ | .rule _ | .policy _ => rfl

end
end Sanitize

/-! ## Sorts -/

/-- Whether two entries of a sort have one name, and both or neither of them a direction. -/
def SameSortName (a b : Key × Value) : Prop :=
  a.1 = b.1 ∧ ((Direction.ofValue? a.2).isSome ↔ (Direction.ofValue? b.2).isSome)

/-- What is noted of an entry of a sort. -/
def SortVerdict.event? (k : Key) : SortVerdict → Option Event
  | .sorted _ => none
  | .unsortable => some (.unsortableField k)
  | .undirected => some (.invalidDirection k)

theorem FieldPolicy.sortJournal_eq (p : FieldPolicy) (sort : Fields) :
    p.sortJournal sort = sort.filterMap fun e => (p.judgeSort e.1 e.2).event? e.1 := by
  unfold sortJournal SortVerdict.event?
  rfl

theorem FieldPolicy.event?_judgeSort (p : FieldPolicy) {a b : Key × Value} (h : SameSortName a b) :
    (p.judgeSort a.1 a.2).event? a.1 = (p.judgeSort b.1 b.2).event? b.1 := by
  obtain ⟨k, v⟩ := a
  obtain ⟨k', w⟩ := b
  obtain ⟨rfl, hword⟩ := h
  dsimp only at hword ⊢
  unfold judgeSort
  split
  · rfl
  · cases hv : Direction.ofValue? v <;> cases hw : Direction.ofValue? w <;>
      simp_all [SortVerdict.event?]
  · rfl

theorem FieldPolicy.sortJournal_congr (p : FieldPolicy) {sort sort' : Fields}
    (h : List.Forall₂ SameSortName sort sort') : p.sortJournal sort = p.sortJournal sort' := by
  rw [sortJournal_eq, sortJournal_eq]
  induction h with
  | nil => rfl
  | cons hab _ ih => rw [List.filterMap_cons, List.filterMap_cons, p.event?_judgeSort hab, ih]

/-! ## Filters and sorts -/

/-- **Values stay out of the journal.** Filters that differ in their operands only are noted alike while they
are read and held against a policy, and so are sorts with the same names, of which each has a direction in
both or in neither. -/
theorem values_unnoted (policy : FieldPolicy) {filters filters' sort sort' : Fields}
    (hfilters : outlineEntries filters = outlineEntries filters')
    (hsort : List.Forall₂ SameSortName sort sort') :
    FilterTree.jsonJournal filters ++ policy.filtersJournal (FilterTree.ofJson filters) =
        FilterTree.jsonJournal filters' ++ policy.filtersJournal (FilterTree.ofJson filters') ∧
      policy.sortJournal sort = policy.sortJournal sort' := by
  have houtline : ∀ es, FilterTree.jsonJournal es ++ policy.filtersJournal (FilterTree.ofJson es) =
      FilterTree.jsonJournal (outlineEntries es) ++
        policy.filtersJournal (FilterTree.ofJson (outlineEntries es)) := by
    intro es
    unfold FieldPolicy.filtersJournal
    rw [FilterTree.jsonJournal_outline, FilterTree.ofJson_outline, Sanitize.fieldsJournal_outline]
  exact ⟨by rw [houtline, hfilters, ← houtline], policy.sortJournal_congr hsort⟩

/-- Staff by their names and teams, in the order of their names. -/
def staffPolicy : FieldPolicy where
  filterable := [(.text "name", .operators [.contains, .mode, .not]),
    (.text "team", .nested [(.text "name", .operators [.isIn])])]
  sortable := [(.text "name", .allowed true)]

/-- Filters on a name, a team and a field that is not listed, with the values `v` and `w`. -/
def staffFilters (v w : Value) : Fields :=
  [(.text "salary", v),
    (.text "name", .map [(.text "$like", w), (.text Operator.gt.token, v),
      (.text Operator.not.token, .map [(.text Operator.mode.token, v)])]),
    (.text "team", .map [(.text "name", v), (.text "city", w)])]

/-- A sort by name, and by a field that is not listed. -/
def staffSort (v w : Value) : Fields := [(.text "name", v), (.text "salary", w)]

/-- A number and a list are noted as a text and nothing at all are. -/
theorem values_unnoted_staff :
    outlineEntries (staffFilters (.int 90000) (.list [.text "a"])) =
        outlineEntries (staffFilters (.text "ninety") .none) ∧
      List.Forall₂ SameSortName (staffSort (.text "up") (.text "asc"))
        (staffSort (.int 5) (.text "desc")) ∧
      FilterTree.jsonJournal (staffFilters (.int 90000) (.list [.text "a"])) ++
          staffPolicy.filtersJournal
            (FilterTree.ofJson (staffFilters (.int 90000) (.list [.text "a"]))) =
        [.unknownOperator (.text "name"), .unfilterableField (.text "salary"),
          .noAllowedOperator (.text "name"), .noAllowedOperator (.text "name"),
          .unfilterableField (.text "city"), .noAllowedOperator (.text "team")] ∧
      staffPolicy.sortJournal (staffSort (.text "up") (.text "asc")) =
        [.invalidDirection (.text "name"), .unsortableField (.text "salary")] := by
  have hfilters : outlineEntries (staffFilters (.int 90000) (.list [.text "a"])) =
      outlineEntries (staffFilters (.text "ninety") .none) := rfl
  have hsort : List.Forall₂ SameSortName (staffSort (.text "up") (.text "asc"))
      (staffSort (.int 5) (.text "desc")) :=
    .cons ⟨rfl, by decide⟩ (.cons ⟨rfl, by decide⟩ .nil)
  obtain ⟨hnoted, hsorted⟩ := values_unnoted staffPolicy hfilters hsort
  exact ⟨hfilters, hsort, hnoted.trans rfl, hsorted.trans rfl⟩

end Listing
