import Listing.Proofs.Predicate.Meaning
import Listing.Proofs.Sql.Compiles
import Listing.Proofs.Sql.Graph

/-!
# Relations told from conditions

A predicate carries no mark that tells a relation from a field: a store looks at the keys of the mapping
it finds there, and takes native keys for a condition. Conditions that sanitizing leaves are conditions to
both stores. Filters on a relation are carried on to what it leads to, unless all the related fields they
ask for happen to be named like native keys: these a store in memory tests on the related record itself,
where a mode passes unseen, and a store over a database rejects.
-/

namespace Listing

open Predicate Sql

/-! ## Names of fields -/

mutual

/-- Whether no name that a rule lists is marked as an operator, nor one further down its relations. -/
def Rule.Unmarked : Rule → Prop
  | .operators _ => True
  | .nested rules => UnmarkedAll rules
termination_by structural r => r

def Rule.UnmarkedAll : List (Key × Rule) → Prop
  | [] => True
  | (k, r) :: rest => FilterTree.isMarked k = false ∧ r.Unmarked ∧ UnmarkedAll rest
termination_by structural rules => rules

end

section

variable {rules : Entries Rule} {k : Key} {r : Rule}

theorem Rule.Unmarked.of_mem (h : (Rule.nested rules).Unmarked) (hmem : (k, r) ∈ rules) :
    FilterTree.isMarked k = false ∧ r.Unmarked := by
  induction rules with
  | nil => cases hmem
  | cons first rest ih =>
    obtain ⟨hk, hr, hrest⟩ := h
    rcases List.mem_cons.mp hmem with rfl | hmem
    · exact ⟨hk, hr⟩
    · exact ih hrest hmem

theorem Rule.Unmarked.forKey? (h : (Rule.nested rules).Unmarked)
    (hr : Rule.forKey? rules k = some r) : FilterTree.isMarked k = false ∧ r.Unmarked := by
  obtain ⟨name, hname, hfind⟩ := Option.bind_eq_some_iff.mp hr
  obtain ⟨listed, hlisted, hmem⟩ := Entries.mem_of_find hfind
  obtain ⟨hmarked, hunmarked⟩ := h.of_mem hmem
  refine ⟨?_, hunmarked⟩
  rw [FilterTree.isMarked, hlisted] at hmarked
  rw [FilterTree.isMarked, hname, hmarked]

end

theorem Sanitize.isCondition_fields {rules : Entries Rule} (h : (Rule.nested rules).Unmarked)
    (es : Fields) : isCondition (fields rules es) = false := by
  cases hkept : fields rules es with
  | nil => rfl
  | cons e rest =>
    have hmem : e ∈ fields rules es := by
      rw [hkept]
      exact List.mem_cons_self
    obtain ⟨rule, hrule⟩ := rule_of_mem_fields hmem
    obtain ⟨hmarked, -⟩ := h.forKey? hrule
    simp [isCondition, Reading.operator?_eq_none hmarked]

/-! ## Paths -/

namespace Leads

variable {stops : Fields → Bool} {es c d : Fields} {path : List String}

theorem exists_name (h : Leads stops es path c) : ∃ name rest, path = name :: rest := by
  cases h with
  | last => exact ⟨_, _, rfl⟩
  | through => exact ⟨_, _, rfl⟩

theorem unique (hc : Leads stops es path c) (hd : Leads stops es path d) : d = c := by
  induction hc with
  | last found =>
    cases hd with
    | last found' => exact Value.map.inj (Option.some.inj (found'.symm.trans found))
    | through _ _ leads' =>
      obtain ⟨_, _, hpath⟩ := leads'.exists_name
      cases hpath
  | through found _ leads ih =>
    cases hd with
    | last =>
      obtain ⟨_, _, hpath⟩ := leads.exists_name
      cases hpath
    | through found' _ leads' =>
      obtain rfl := Value.map.inj (Option.some.inj (found'.symm.trans found))
      exact ih leads'

end Leads

/-- The native form of what a rule has left of a filter. -/
def Rule.native : Rule → Fields → Fields
  | .operators _, c => condition c
  | .nested _, inner => ofFilters inner

theorem Rule.ofFilter_field {r : Rule} {v : Value} (h : r.Unmarked)
    (hne : Sanitize.field r v ≠ []) :
    ofFilter (.map (Sanitize.field r v)) = .map (r.native (Sanitize.field r v)) := by
  cases r with
  | operators ops => exact ofFilter_condition ((Sanitize.heldTo_field ops v).isCondition hne)
  | nested rules =>
    cases v with
    | map es => exact ofFilter_relation (Sanitize.isCondition_fields h es)
    | _ => exact absurd rfl hne

/-- A path in sanitized filters is one in their predicate, to the native form of what stands there. -/
theorem Leads.native {kept c : Fields} {path : List String}
    (h : Leads (fun _ => false) kept path c) {rules : Entries Rule} {es : Fields} {r : Rule}
    (hkept : kept = Sanitize.fields rules es) (hnames : (Rule.nested rules).Unmarked)
    (hrule : (Rule.nested rules).follow path = some r) :
    Leads (fun _ => false) (Predicate.ofFilters kept) path (r.native c) := by
  refine h.rule_induction (motive := fun rules kept path r c => (Rule.nested rules).Unmarked →
    Leads (fun _ => false) (Predicate.ofFilters kept) path (r.native c)) ?_ ?_ hkept hrule hnames
  · intro rules kept name r v hfind found hne hnames
    obtain ⟨-, hunmarked⟩ := hnames.forKey? (k := .text name) hfind
    refine .last ?_
    rw [find_ofFilters, found, Option.map_some, r.ofFilter_field hunmarked hne]
  · intro rules kept name related es rest r c hfind found _ ih hnames
    obtain ⟨-, hunmarked⟩ := hnames.forKey? (k := .text name) hfind
    refine .through ?_ rfl (ih hunmarked)
    rw [find_ofFilters, found, Option.map_some,
      ofFilter_relation (Sanitize.isCondition_fields hunmarked es)]

/-! ## What the stores take a mapping for -/

/-- What a predicate says of the value of a relation: null satisfies none, of a collection one item is
enough, and a scalar leads nowhere. -/
def carriedOn (actual : Value) (es : Fields) : Except Failure Bool :=
  if isNull actual then .ok false
  else match items? actual with
    | some xs => anyOf (fun x => holds x es) xs
    | none =>
      if isScalar actual then throw (.unsupportedPredicate (foreignKey es) "InMemoryStore")
      else holds actual es

/-- To the stores, a mapping under a key is a predicate on what a relation leads to. -/
structure ReadAsRelation (k : Key) (es : Fields) : Prop where
  name : junction? k = none
  relation : isNativeCondition es = false
  /-- A store in memory carries it on to the value of the relation. -/
  memory : ∀ record actual, record.get k = .ok actual →
    entryHolds record k (.map es) = carriedOn actual es
  /-- A store over a database makes a clause of it over the target of the relation. -/
  database : ∀ (schema : Schema) registry (m target : Model) r,
    k.name?.bind m.relation? = some r → schema.model? r.target = some target →
    predicatePart schema registry m k (.map es) = do
      return .clause (.related r
        (Clause.conjunction (← predicateParts schema registry target es)))

/-- To the stores, a mapping under a key is a condition on a field. -/
structure ReadAsCondition (k : Key) (es : Fields) : Prop where
  name : junction? k = none
  condition : isNativeCondition es = true
  /-- A store in memory tests it on the value of the field. -/
  memory : ∀ record actual, record.get k = .ok actual →
    entryHolds record k (.map es) = satisfies actual es
  /-- A store over a database makes a clause of it on the term of the field. -/
  database : ∀ (schema : Schema) registry (m : Model) t,
    k.name?.bind m.relation? = none → k.name?.bind m.term? = some t →
    predicatePart schema registry m k (.map es) = do
      return .clause (← compileCondition registry m t es)
  /-- A store over a database has none for a relation. -/
  rejected : ∀ (schema : Schema) registry (m target : Model) r,
    k.name?.bind m.relation? = some r → schema.model? r.target = some target →
    predicatePart schema registry m k (.map es) = .error (m.unsupported k)

section

variable {k : Key} {es inner : Fields}

theorem readAsRelation_iff :
    ReadAsRelation k es ↔ junction? k = none ∧ isNativeCondition es = false := by
  refine ⟨fun h => ⟨h.name, h.relation⟩, fun ⟨hk, h⟩ => ⟨hk, h, ?_, ?_⟩⟩
  · intro record actual hget
    exact entryHolds_of_get hk hget h
  · intro schema registry m target r hrelation htarget
    rw [predicatePart_relation hk hrelation htarget, h]
    rfl

theorem readAsCondition_iff :
    ReadAsCondition k es ↔ junction? k = none ∧ isNativeCondition es = true := by
  refine ⟨fun h => ⟨h.name, h.condition⟩, fun ⟨hk, h⟩ => ⟨hk, h, ?_, ?_, ?_⟩⟩
  · intro record actual hget
    rw [Reading.entryHolds_map hk, hget, h]
    rfl
  · intro schema registry m t hrelation hterm
    rw [predicatePart_term hk hrelation hterm, if_pos h]
  · intro schema registry m target r hrelation htarget
    rw [predicatePart_relation hk hrelation htarget, if_pos h]

theorem readAsRelation_ofFilters_iff : ReadAsRelation k (ofFilters inner) ↔
    junction? k = none ∧ ∃ e ∈ inner, isNativeKey e.1 = false := by
  rw [readAsRelation_iff, isNativeCondition_ofFilters, List.all_eq_false]
  simp only [Bool.not_eq_true]

theorem readAsCondition_ofFilters_iff : ReadAsCondition k (ofFilters inner) ↔
    junction? k = none ∧ ∀ e ∈ inner, isNativeKey e.1 = true := by
  rw [readAsCondition_iff, isNativeCondition_ofFilters, List.all_eq_true]

end

/-! ## Sanitized filters -/

section

variable (policy : FieldPolicy) (filters : Value) (path : List String) (kept : Fields)

/-- **Relations told from conditions.** At a path that sanitizing has left, the predicate holds the native
form of what stands there. Under a key that joins nothing, stores take that of a field for a condition, and
that of a relation for a predicate on what it leads to exactly if one of the related fields is not named
like a native key; otherwise they take it for a condition too. -/
theorem relation_told_from_condition (hnames : (Rule.nested policy.filterable).Unmarked)
    (hkept : Leads (fun _ => false) (policy.sanitizeFilters filters.asFields) path kept) :
    (∀ related, (Rule.nested policy.filterable).follow path = some (.nested related) →
      (∀ es, Leads (fun _ => false) (ofFilters (policy.sanitizeFilters filters.asFields)) path es ↔
        es = ofFilters kept) ∧
      ∀ k, (ReadAsRelation k (ofFilters kept) ↔
          junction? k = none ∧ ∃ e ∈ kept, isNativeKey e.1 = false) ∧
        (ReadAsCondition k (ofFilters kept) ↔
          junction? k = none ∧ ∀ e ∈ kept, isNativeKey e.1 = true)) ∧
    ∀ ops, (Rule.nested policy.filterable).follow path = some (.operators ops) →
      (∀ es, Leads (fun _ => false) (ofFilters (policy.sanitizeFilters filters.asFields)) path es ↔
        es = condition kept) ∧
      ∀ k, ReadAsCondition k (condition kept) ↔ junction? k = none := by
  have hnative : ∀ r, (Rule.nested policy.filterable).follow path = some r → ∀ es,
      Leads (fun _ => false) (ofFilters (policy.sanitizeFilters filters.asFields)) path es ↔
        es = r.native kept := by
    intro r hrule es
    have hleads := hkept.native rfl hnames hrule
    refine ⟨hleads.unique, ?_⟩
    rintro rfl
    exact hleads
  refine ⟨fun related hrule => ⟨hnative _ hrule, fun k => ?_⟩,
    fun ops hrule => ⟨hnative _ hrule, fun k => ?_⟩⟩
  · exact ⟨readAsRelation_ofFilters_iff, readAsCondition_ofFilters_iff⟩
  · rw [readAsCondition_iff]
    exact and_iff_left (isNativeCondition_condition kept)

end

/-- A policy on the mode and the maker of a device, the first of which is named like a native key. -/
def devicePolicy : FieldPolicy where
  filterable := [(.text "device", .nested
    [(.text "mode", .operators [.eq]), (.text "maker", .operators [.eq])])]

/-- The condition of being equal to a text, as clients write it. -/
def equalTo (s : String) : Value := .map [(.text Operator.eq.token, .text s)]

theorem device_told_from_condition :
    (Rule.nested devicePolicy.filterable).Unmarked ∧
      Leads (fun _ => false) (devicePolicy.sanitizeFilters
          [(.text "device", .map [(.text "mode", equalTo "auto"), (.text "maker", equalTo "acme")])])
        ["device"] [(.text "mode", equalTo "auto"), (.text "maker", equalTo "acme")] ∧
      ReadAsRelation (.text "device")
        (ofFilters [(.text "mode", equalTo "auto"), (.text "maker", equalTo "acme")]) := by
  have hnames : (Rule.nested devicePolicy.filterable).Unmarked :=
    ⟨rfl, ⟨rfl, trivial, rfl, trivial, trivial⟩, trivial⟩
  have hkept : Leads (fun _ => false) (devicePolicy.sanitizeFilters
      [(.text "device", .map [(.text "mode", equalTo "auto"), (.text "maker", equalTo "acme")])])
      ["device"] [(.text "mode", equalTo "auto"), (.text "maker", equalTo "acme")] := .last rfl
  refine ⟨hnames, hkept, ?_⟩
  obtain ⟨-, hread⟩ := (relation_told_from_condition devicePolicy
    (.map [(.text "device", .map [(.text "mode", equalTo "auto"), (.text "maker", equalTo "acme")])])
    ["device"] _ hnames hkept).1 _ rfl
  exact (hread (.text "device")).1.mpr ⟨rfl, (.text "maker", equalTo "acme"), by simp, rfl⟩

/-- **The slip.** Filters on the mode of a device alone are taken for a condition: a device in another
mode passes them, and a relation to devices is rejected. -/
theorem device_mode_read_as_condition :
    (Rule.nested devicePolicy.filterable).Unmarked ∧
      (Rule.nested devicePolicy.filterable).follow ["device"] =
        some (.nested [(.text "mode", .operators [.eq]), (.text "maker", .operators [.eq])]) ∧
      Leads (fun _ => false) (ofFilters (devicePolicy.sanitizeFilters
          [(.text "device", .map [(.text "mode", equalTo "auto")])]))
        ["device"] (ofFilters [(.text "mode", equalTo "auto")]) ∧
      isNativeCondition (ofFilters [(.text "mode", equalTo "auto")]) = true ∧
      valueHolds (.map [(.text "device", .map [(.text "mode", .text "manual")])])
        (.map (ofFilters (devicePolicy.sanitizeFilters
          [(.text "device", .map [(.text "mode", equalTo "auto")])]))) = .ok true ∧
      ∀ (schema : Schema) registry (m target : Model) r, m.relation? "device" = some r →
        schema.model? r.target = some target →
        predicatePart schema registry m (.text "device")
          (.map (ofFilters [(.text "mode", equalTo "auto")])) = .error (m.unsupported (.text "device")) := by
  refine ⟨⟨rfl, ⟨rfl, trivial, rfl, trivial, trivial⟩, trivial⟩, rfl, .last rfl, rfl, rfl, ?_⟩
  intro schema registry m target r hrelation htarget
  have hcondition : ReadAsCondition (.text "device") (ofFilters [(.text "mode", equalTo "auto")]) :=
    readAsCondition_iff.mpr ⟨rfl, rfl⟩
  exact hcondition.rejected schema registry m target r hrelation htarget

end Listing
