import Listing.Params.Parse
import Listing.Proofs.Number.Grammar
import Listing.Proofs.Outcome

/-!
# Which queries can be parsed

Parsing pairs of texts gives parameters, whatever stands in them, with one exception: an operand under
a bracketed key of the filters that looks like a decimal and has an information separator among the
blanks at its ends.
-/

namespace Listing

open Outcome Text Numeral

/-! ## Operands -/

namespace Operand

/-- A text that looks like a decimal, and like no integer, between blanks that no number may have at
its ends. -/
def Refused (s : String) : Prop :=
  Surrounded isBlank IsDecimal s.toList ∧ ¬Surrounded isBlank IsInteger s.toList ∧
    ¬Surrounded isNumberBlank IsDecimal s.toList

theorem lower_separator {n : Nat} (hn : 28 ≤ n ∧ n ≤ 31) {c : Char} (hc : c.toNat = n) :
    lowerChar c = [c] ∧ c ∉ "true".toList ∧ c ∉ "false".toList := by
  have hchar : c = Char.ofNat n := by rw [← hc, Char.ofNat_toNat]
  obtain rfl | rfl | rfl | rfl : n = 28 ∨ n = 29 ∨ n = 30 ∨ n = 31 := by omega
  all_goals
    subst hchar
    decide

theorem mem_lowerAfter {c : Char} (hsigma : c ≠ 'Σ') (hlower : lowerChar c = [c]) {cs : List Char}
    (hc : c ∈ cs) (before : List Char) : c ∈ lowerAfter before cs := by
  induction cs generalizing before with
  | nil => simp at hc
  | cons d cs ih =>
    rw [lowerAfter, List.mem_append]
    rcases List.mem_cons.mp hc with rfl | hc
    · rw [if_neg hsigma, hlower]
      exact .inl List.mem_cons_self
    · exact .inr (ih hc _)

theorem mem_lower {c : Char} (hsigma : c ≠ 'Σ') (hlower : lowerChar c = [c]) {s : String}
    (hc : c ∈ s.toList) : c ∈ (lower s).toList := by
  rw [lower, String.toList_ofList]
  exact mem_lowerAfter hsigma hlower hc []

theorem Refused.exists_separator {s : String} (h : Refused s) :
    ∃ c ∈ s.toList, 28 ≤ c.toNat ∧ c.toNat ≤ 31 := by
  obtain ⟨⟨left, body, right, hleft, hright, hbody, hcs⟩, -, hnarrow⟩ := h
  by_contra hnone
  simp only [not_exists, not_and] at hnone
  have hblank : ∀ c ∈ s.toList, isBlank c = true → isNumberBlank c = true := by
    intro c hc hb
    have := hnone c hc
    rw [isNumberBlank, hb, Bool.true_and, Bool.not_eq_true', Bool.and_eq_false_iff,
      decide_eq_false_iff_not, decide_eq_false_iff_not]
    omega
  refine hnarrow ⟨left, body, right, fun c hc => ?_, fun c hc => ?_, hbody, hcs⟩
  · exact hblank c (by simp [hcs, hc]) (hleft c hc)
  · exact hblank c (by simp [hcs, hc]) (hright c hc)

theorem Refused.lower_ne {s : String} (h : Refused s) : lower s ≠ "true" ∧ lower s ≠ "false" := by
  obtain ⟨c, hc, hseparator⟩ := h.exists_separator
  obtain ⟨hlower, htrue, hfalse⟩ := lower_separator hseparator rfl
  have hsigma : c ≠ 'Σ' := by
    rintro rfl
    exact absurd hseparator (by decide)
  have hmem := mem_lower hsigma hlower hc
  constructor
  · intro heq
    exact htrue (heq ▸ hmem)
  · intro heq
    exact hfalse (heq ▸ hmem)

theorem refused_iff {s : String} :
    Refused s ↔ integer s.toList = .absent ∧ decimal s.toList = .refused := by
  rw [integer_eq_absent_iff, decimal_eq_refused_iff,
    ← surrounded_iff (fun _ h => h) tight_isInteger]
  exact and_left_comm

theorem scalar_ok_iff {s : String} : (∃ v, scalar s = .ok v) ↔ ¬Refused s := by
  by_cases hword : lower s = "true" ∨ lower s = "false"
  · have hrefused : ¬Refused s := fun h => hword.elim h.lower_ne.1 h.lower_ne.2
    refine iff_of_true ?_ hrefused
    unfold scalar
    rcases hword with hword | hword
    · exact ⟨_, if_pos hword⟩
    · exact ⟨_, (if_neg (by rw [hword]; decide)).trans (if_pos hword)⟩
  · obtain ⟨htrue, hfalse⟩ := not_or.mp hword
    rw [refused_iff]
    unfold scalar
    simp only [htrue, hfalse, if_false]
    split
    · next hread => simp [hread]
    · next hread => simp [hread]
    · next hread =>
      split
      · next hdecimal => simp [hdecimal]
      · next hdecimal => simp [hread, hdecimal]
      · next hdecimal => simp [hdecimal]

theorem not_refused_of_trimmed (cs : List Char) : ¬Refused (String.ofList (trimBy isBlank cs)) := by
  rintro ⟨⟨left, body, right, hleft, hright, hbody, hcs⟩, -, hnarrow⟩
  rw [String.toList_ofList] at hcs hnarrow
  obtain ⟨left', right', hleft', hright', hall⟩ := exists_trim isBlank cs
  obtain ⟨hne, hnot⟩ := tight_isDecimal body hbody
  have htrim : trimBy isBlank cs = body := by
    have hbefore : ∀ c ∈ left' ++ left, isBlank c = true :=
      List.forall_mem_append.mpr ⟨hleft', hleft⟩
    have hafter : ∀ c ∈ right ++ right', isBlank c = true :=
      List.forall_mem_append.mpr ⟨hright, hright'⟩
    rw [← trimBy_append hbefore hafter hne hnot, hall, hcs]
    simp only [List.append_assoc]
  exact hnarrow ⟨[], body, [], by simp, by simp, hbody, by simp [htrim]⟩

/-- An operand has a value unless it is a refused one of an operator that takes a single value. -/
theorem coerce_ok_iff {op : Operator} {s : String} :
    (∃ v, coerce op s = .ok v) ↔ ¬(op.isSet = false ∧ Refused s) := by
  unfold coerce
  cases hop : op.isSet with
  | false => simpa using scalar_ok_iff
  | true =>
    refine iff_of_true ?_ (by simp)
    have hparts : ∀ part ∈ splitAt ',' s.toList,
        ∃ v, scalar (String.ofList (trimBy isBlank part)) = .ok v :=
      fun part _ => scalar_ok_iff.mpr (not_refused_of_trimmed part)
    obtain ⟨values, hvalues⟩ := exists_mapM_eq_ok_iff.mpr hparts
    exact ⟨.list values, by simp only [if_true, hvalues]; rfl⟩

end Operand

/-! ## Pairs of texts -/

/-- The pairs of texts that a query decodes to. -/
def textPairs (pairs : List (String × String)) : List (Value × Value) :=
  pairs.map fun (k, v) => (.text k, .text v)

/-- A value of a bracketed key whose operand is refused under its operator. -/
def Operand.Unreadable (s : String) : Prop :=
  (splitOperator s).1.isSet = false ∧ Refused (splitOperator s).2

theorem FilterTree.bracketed?_text (label k v : String) :
    bracketed? label (.text k, .text v) =
      match BracketKey.read? label k with
      | none => .ok none
      | some path => do
        return some ⟨path, (Operand.splitOperator v).1,
          ← Operand.coerce (Operand.splitOperator v).1 (Operand.splitOperator v).2⟩ := rfl

theorem FilterTree.bracketed?_ok_iff {label k v : String} :
    (∃ b, bracketed? label (.text k, .text v) = .ok b) ↔
      ∀ path, BracketKey.read? label k = some path → ¬Operand.Unreadable v := by
  rw [bracketed?_text]
  cases hread : BracketKey.read? label k with
  | none => simp
  | some path =>
    dsimp only
    rw [exists_bind_pure_eq_ok, Operand.coerce_ok_iff]
    simp [Operand.Unreadable]

theorem FilterTree.ofBrackets_ok_iff {label : String} {pairs : List (String × String)} :
    (∃ es, ofBrackets label (textPairs pairs) = .ok es) ↔
      ∀ k v, (k, v) ∈ pairs → ∀ path, BracketKey.read? label k = some path →
        ¬Operand.Unreadable v := by
  unfold ofBrackets
  rw [exists_bind_pure_eq_ok, exists_mapM_eq_ok_iff]
  simp only [textPairs, List.forall_mem_map, Prod.forall, bracketed?_ok_iff]

namespace QueryParams

theorem sortItem?_text (label k v : String) :
    sortItem? label (.text k, .text v) =
      match BracketKey.read? label k with
      | some [name] => .ok (some (.text name, .text (lower v)))
      | _ => .ok none := rfl

theorem exists_parseSort (config : Config) (pairs : List (String × String)) :
    ∃ es, parseSort config (textPairs pairs) = .ok es := by
  unfold parseSort
  split
  · exact ⟨_, rfl⟩
  · rw [exists_bind_pure_eq_ok, exists_mapM_eq_ok_iff]
    simp only [textPairs, List.forall_mem_map, Prod.forall]
    intro k v _
    rw [sortItem?_text]
    split
    · exact ⟨_, rfl⟩
    · exact ⟨_, rfl⟩

theorem first?_textPairs (pairs : List (String × String)) (name : String) :
    Source.first? (textPairs pairs) name = none ∨
      ∃ s, Source.first? (textPairs pairs) name = some (.text s) := by
  unfold Source.first? textPairs
  rw [List.find?_map]
  cases List.find? _ pairs with
  | none => exact .inl rfl
  | some e => exact .inr ⟨e.2, rfl⟩

theorem integer_text (default : Int) (s : String) :
    integer default (some (.text s)) =
      match leadingInteger s.toList with
      | .read n => .ok n
      | _ => .ok default := rfl

theorem exists_integer (default : Int) (pairs : List (String × String)) (name : String) :
    ∃ n, integer default (Source.first? (textPairs pairs) name) = .ok n := by
  rcases first?_textPairs pairs name with h | ⟨s, h⟩
  · exact ⟨default, by rw [h]; rfl⟩
  · rw [h, integer_text]
    split
    · exact ⟨_, rfl⟩
    · exact ⟨_, rfl⟩

theorem exists_parseSearch (pairs : List (String × String)) (name : String) :
    ∃ s, parseSearch (Source.first? (textPairs pairs) name) = .ok s := by
  rcases first?_textPairs pairs name with h | ⟨s, h⟩
  · exact ⟨none, by rw [h]; rfl⟩
  · rw [h, parseSearch]
    split
    · exact ⟨some s, rfl⟩
    · exact ⟨none, rfl⟩

theorem parseFilters_ok_iff {config : Config} {pairs : List (String × String)} :
    (∃ es, parseFilters config (textPairs pairs) = .ok es) ↔
      (∃ es, (ObjectParam.ofParam? (Source.first? (textPairs pairs) config.filtersKey)).fields? =
        some es) ∨
      ∀ k v, (k, v) ∈ pairs → ∀ path, BracketKey.read? config.filtersKey k = some path →
        ¬Operand.Unreadable v := by
  rw [← FilterTree.ofBrackets_ok_iff]
  unfold parseFilters
  split
  · next es hes => simp [hes]
  · next hnone => simp [hnone]

theorem parse_list (config : Config) (pairs : List (String × String)) :
    parse config (.list (pairs.map fun (k, v) => .tuple [.text k, .text v])) =
      parse config (.items (textPairs pairs)) := by
  have hpairs : (pairs.map fun (k, v) => Value.tuple [.text k, .text v]).mapM Source.pair? =
      .ok (textPairs pairs) := by
    rw [mapM_eq_ok, textPairs, List.forall₂_map_left_iff, List.forall₂_map_right_iff]
    exact List.forall₂_same.mpr fun _ _ => rfl
  unfold parse
  exact congrArg (· >>= ofPairs config) hpairs

theorem ofPairs_eq_ok {config : Config} {pairs : List (Value × Value)} {q : QueryParams} :
    ofPairs config pairs = .ok q ↔
      ∃ filters sort, parseFilters config pairs = .ok filters ∧ parseSort config pairs = .ok sort ∧
        integer config.defaultPage (Source.first? pairs config.pageKey) = .ok q.page ∧
        integer config.defaultItemsPerPage (Source.first? pairs config.itemsPerPageKey) =
          .ok q.itemsPerPage ∧
        parseSearch (Source.first? pairs config.searchKey) = .ok q.search ∧
        q.filters = nonempty? filters ∧ q.sort = nonempty? sort := by
  unfold ofPairs
  simp only [bind_eq_ok, pure_eq_ok]
  constructor
  · rintro ⟨filters, hfilters, sort, hsort, page, hpage, size, hsize, search, hsearch, rfl⟩
    exact ⟨filters, sort, hfilters, hsort, hpage, hsize, hsearch, rfl, rfl⟩
  · rintro ⟨filters, sort, hfilters, hsort, hpage, hsize, hsearch, hqfilters, hqsort⟩
    refine ⟨filters, hfilters, sort, hsort, q.page, hpage, q.itemsPerPage, hsize, q.search, hsearch,
      ?_⟩
    rw [← hqfilters, ← hqsort]

/-- **Parsing.** Pairs of texts, as a list or as a query object, are parsed, whatever the configuration,
exactly if the filters are a usable JSON object or no bracketed key of the filters has an operand that is
refused. -/
theorem parse_ok_iff (config : Config) (pairs : List (String × String)) :
    parse config (.list (pairs.map fun (k, v) => .tuple [.text k, .text v])) =
        parse config (.items (textPairs pairs)) ∧
      ((∃ q, parse config (.items (textPairs pairs)) = .ok q) ↔
        (∃ es, (ObjectParam.ofParam?
          (Source.first? (textPairs pairs) config.filtersKey)).fields? = some es) ∨
        ∀ k v, (k, v) ∈ pairs → ∀ path, BracketKey.read? config.filtersKey k = some path →
          ¬Operand.Unreadable v) := by
  refine ⟨parse_list config pairs, ?_⟩
  rw [← parseFilters_ok_iff]
  obtain ⟨sort, hsort⟩ := exists_parseSort config pairs
  obtain ⟨page, hpage⟩ := exists_integer config.defaultPage pairs config.pageKey
  obtain ⟨size, hsize⟩ := exists_integer config.defaultItemsPerPage pairs config.itemsPerPageKey
  obtain ⟨search, hsearch⟩ := exists_parseSearch pairs config.searchKey
  have hparse : parse config (.items (textPairs pairs)) = ofPairs config (textPairs pairs) := rfl
  rw [hparse]
  unfold ofPairs
  simp only [hsort, hpage, hsize, hsearch]
  exact exists_bind_pure_eq_ok

/-- **The failure.** A decimal after an information separator cannot be parsed. -/
theorem separator_before_decimal :
    parse {} (.items (textPairs [("filters[score]", "\x1c1.5")])) =
      .error (.floatText (quoted "\x1c1.5")) := rfl

end QueryParams
end Listing
