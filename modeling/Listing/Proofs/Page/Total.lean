import Listing.Proofs.Memory.Total
import Listing.Proofs.Number.Quotient
import Listing.Proofs.Page.Walk
import Listing.Proofs.Predicate.Total

/-!
# Pages of any parameters

Over a store in memory every parsed request is served: whatever its filters, search, sort and numbers
are, each stage gives a result. The policy must take no junction for a field, the records must hold what
the policy leads to, and no integer in the filters may have more digits than a text may have; one that
has more, searched for in a text, is a failure.
-/

namespace Listing

open Outcome Predicate
open Value (ShortEntries shortEntries_iff)

/-- Whether no name that a policy lets clients filter or search by is taken for a junction. -/
def FieldPolicy.FreeNames (policy : FieldPolicy) : Prop :=
  (Rule.nested policy.filterable).Names FreeName ∧ ∀ name ∈ policy.searchable, FreeName name

/-- Whether a record holds what a policy leads to: integers that have a text, records or rows of them
where the policy lists a relation, and sortable values where it lets clients sort. -/
structure FieldPolicy.Fits (policy : FieldPolicy) (record : Value) : Prop where
  short : record.Short
  related : Rule.FitsAll policy.filterable record
  sortable : ∀ name rule, policy.sortable.find name = some rule →
    (Reading.valueAt record (.text name)).isSortable = true

/-- Whether a base query can be evaluated on records: what it demands gives an answer on each, and what
it selects can be selected from each. -/
structure PageRequest.Evaluates (base : Fields) (records : List Value) : Prop where
  demand : Answers records ((base.find "where").getD .none)
  selection : ∀ record ∈ records,
    Succeeds (MemoryStore.projected (.map (PageRequest.options base)) [record])

variable {s : MemoryStore} {base : Fields} {policy : FieldPolicy} {q : QueryParams}

/-! ## The predicate -/

theorem predicate_succeeds (hpolicy : policy.FreeNames)
    (hrecords : ∀ record ∈ s.records, policy.Fits record)
    (hbase : PageRequest.Evaluates base s.records)
    (hfilters : ∀ es, q.filters = some es → ShortEntries es) :
    ∃ es, q.toRequest.predicate base policy = .ok es ∧
      ∀ record ∈ s.records, Succeeds (holds record es) := by
  have hasFields : ShortEntries q.toRequest.filters.asFields := by
    have hrequest : q.toRequest.filters = q.filters.elim .none .map := rfl
    rw [hrequest]
    cases hq : q.filters with
    | none => exact trivial
    | some es => exact hfilters es hq
  have hallowed : ∀ record ∈ s.records,
      Succeeds (holds record (ofFilters (q.toRequest.allowedFilters policy))) := by
    intro record hrecord
    have hfit := hrecords record hrecord
    exact holds_sanitized _ hpolicy.1 hasFields hfit.short hfit.related
  have hsearched : ∀ record ∈ s.records,
      Succeeds (holds record (q.toRequest.searchPredicate policy)) := by
    intro record hrecord
    rw [q.searchPredicate_eq]
    split
    · exact search_succeeds (hrecords record hrecord).short _ hpolicy.2
    · exact ⟨_, rfl⟩
  refine conjunction_succeeds ?_
  simp only [List.forall_mem_cons]
  exact ⟨hbase.demand, fun _ => ⟨_, rfl, hallowed⟩, fun _ => ⟨_, rfl, hsearched⟩, by simp⟩

/-! ## The records -/

theorem givenOrder_succeeds {rows : List Value} (hrows : ∀ record ∈ rows, policy.Fits record)
    (r : PageRequest) : Succeeds (MemoryStore.ordered (r.givenOrder policy) rows) := by
  have hsort := r.getD_allowedSort policy
  unfold PageRequest.givenOrder
  cases hallowed : r.allowedSort policy with
  | none => exact ⟨rows, rfl⟩
  | some order =>
    obtain rfl : order = policy.sanitizeSort r.sort.asFields := by rw [← hsort, hallowed]; rfl
    refine .ite (Memory.sortAll_succeeds fun record hrecord => ?_) ⟨rows, rfl⟩
    rw [List.forall_mem_map]
    intro e he
    obtain ⟨name, rule, hname, hfind⟩ := FieldPolicy.find_of_mem_sanitizeSort he
    obtain ⟨v, hget, -, rfl⟩ := Value.get_succeeds hname (hrows record hrecord).short
    exact ⟨_, hget, (hrows record hrecord).sortable name rule hfind⟩

theorem projected_succeeds {options : Fields} {rows : List Value}
    (h : ∀ record ∈ rows, Succeeds (MemoryStore.projected (.map options) [record])) :
    Succeeds (MemoryStore.projected (.map options) rows) := by
  obtain ⟨f, hf⟩ := MemoryStore.projected_eq_mapM options
  simp only [hf] at h ⊢
  refine .mapM fun record hrecord => ?_
  exact exists_mapM_eq_ok_iff.mp (h record hrecord) record List.mem_cons_self

/-! ## The page -/

theorem infoFields_succeeds (policy : FieldPolicy) (q : QueryParams) (current take pages total : Int) :
    Succeeds (PageInfo.ofFields
      (q.toRequest.infoFields policy (.whole current) (.whole take) pages total)) := by
  obtain ⟨filters, hfilters⟩ : Succeeds (PageInfo.entries (.text "filters") .ok
      (.map (q.toRequest.allowedFilters policy))) := by
    refine PageInfo.entries_succeeds (fun e he => ?_) fun e _ => ⟨e.2, rfl⟩
    obtain ⟨rule, hrule⟩ := Sanitize.rule_of_mem_fields he
    obtain ⟨name, hname, -⟩ := Option.bind_eq_some_iff.mp hrule
    exact ⟨name, hname⟩
  obtain ⟨sorts, hsorts⟩ : Succeeds (PageInfo.entries (.text "sorts") PageInfo.string
      (.map (((q.toRequest.allowedSort policy).getD []).map fun e => (e.1, .text e.2.word)))) := by
    rw [PageRequest.getD_allowedSort]
    refine PageInfo.entries_succeeds ?_ ?_ <;> rw [List.forall_mem_map] <;> intro e he
    · obtain ⟨name, -, hname, -⟩ := FieldPolicy.find_of_mem_sanitizeSort he
      exact ⟨name, hname⟩
    · exact ⟨e.2.word, rfl⟩
  have hsearch : PageInfo.string q.toRequest.searchText = .ok q.searched := by
    rw [q.searchText_eq]
    rfl
  exact ⟨⟨current, take, pages, total, filters, sorts, q.searched⟩,
    PageInfo.ofFields_eq_ok.mpr ⟨rfl, rfl, rfl, rfl, hfilters, hsorts, hsearch⟩⟩

/-- **No parameters fail.** Over a store in memory whose records hold what the policy leads to, under a
base query that can be evaluated on them, every parsed request is served with a page, as long as its
filters hold no longer integers. -/
theorem paginate_never_fails (config : Config) (hlength : s.records.length < 2 ^ 63)
    (hpolicy : policy.FreeNames) (hrecords : ∀ record ∈ s.records, policy.Fits record)
    (hbase : PageRequest.Evaluates base s.records)
    (hfilters : ∀ es, q.filters = some es → ShortEntries es) :
    ∃ page, paginate s.toPageStore config (.map base) policy q.toRequest = .ok page := by
  have hnumbers := @PageRequest.numbers_int config q.toRequest q.page q.itemsPerPage rfl rfl
  obtain ⟨predicate, hpredicate, hholds⟩ := predicate_succeeds hpolicy hrecords hbase hfilters
  -- what one stage gives is made of stored records, which is all that the next stage asks
  obtain ⟨matched, hmatched⟩ : Succeeds (MemoryStore.matching (.map predicate) s.records) :=
    MemoryStore.matching_succeeds hholds
  have hstored : ∀ record ∈ matched, record ∈ s.records := by
    rw [MemoryStore.matching_eq_filter hmatched]
    exact fun record hrecord => List.mem_of_mem_filter hrecord
  have hfits : ∀ record ∈ matched, policy.Fits record :=
    fun record hrecord => hrecords record (hstored record hrecord)
  obtain ⟨sorted, hsorted⟩ := givenOrder_succeeds hfits q.toRequest
  have hperm := MemoryStore.ordered_perm hsorted
  obtain ⟨rows, hrows⟩ : ∃ rows, Window.slice (.int ((max 1 q.page - 1) * config.clamp q.itemsPerPage))
      (.int (config.clamp q.itemsPerPage)) sorted = .ok rows := ⟨_, rfl⟩
  have hselected : ∀ record ∈ rows,
      Succeeds (MemoryStore.projected (.map (PageRequest.options base)) [record]) :=
    fun record hrecord => hbase.selection record
      (hstored record (hperm.mem_iff.mp ((Window.slice_sublist hrows).mem hrecord)))
  obtain ⟨records, hshown⟩ := projected_succeeds hselected
  have htotal : matched.length < 2 ^ 63 := by
    refine lt_of_le_of_lt ?_ hlength
    rw [MemoryStore.matching_eq_filter hmatched]
    exact List.length_filter_le _ _
  obtain ⟨pages, hpages⟩ := Quantity.pages_succeeds htotal (config.clamp q.itemsPerPage)
  obtain ⟨info, hinfo⟩ := infoFields_succeeds policy q (max 1 q.page) (config.clamp q.itemsPerPage)
    pages matched.length
  refine ⟨⟨records, info⟩, paginate_eq_ok.mpr ⟨⟨_, _, _, predicate, matched, sorted, rows, pages,
    hnumbers, hpredicate, hmatched, hsorted, hrows, hshown, hpages, hinfo⟩⟩⟩

/-! ## A crew -/

/-- Members by what their name holds and by the name of their team, sorted by age. -/
def crewPolicy : FieldPolicy where
  filterable := [(.text "name", .operators [.contains]),
    (.text "team", .nested [(.text "name", .operators [.eq])])]
  searchable := ["name"]
  sortable := [(.text "age", .allowed true)]

/-- A member of an age, with what its team leads to. -/
def crewRecord (age team : Value) : Value :=
  .map [(.text "name", .text "Ada"), (.text "age", age), (.text "team", team)]

/-- Members whose ages are of several kinds, one without a team and one with two. -/
def crewStore : MemoryStore where
  records := [crewRecord (.float .nan) .none,
    crewRecord (.int 36) (.map [(.text "name", .text "Core")]),
    crewRecord (.text "old") (.list [.map [(.text "name", .bool true)], .map []])]

/-- The members whose name holds an operand, on a page far behind the last. -/
def crewHolding (operand : Value) : QueryParams where
  page := 1000000
  itemsPerPage := -1
  filters := some [(.text "name", .map [(.text Operator.contains.token, operand)]),
    (.text "team", .map [(.text "name", .list [.none])])]
  search := some "d"
  sort := some [(.text "age", .text "desc")]

theorem freeNames_crewPolicy : crewPolicy.FreeNames := by
  have hfree : ∀ s ∈ ["name", "team"], ∀ name, (Key.text s).name? = some name → FreeName name := by
    intro s hs name hname
    rw [← Option.some.inj hname]
    simp only [List.mem_cons, List.not_mem_nil, or_false] at hs
    rcases hs with rfl | rfl <;> simp [FreeName]
  refine ⟨⟨hfree _ (by simp), trivial, hfree _ (by simp), ⟨hfree _ (by simp), trivial, trivial⟩, trivial⟩,
    fun name hname => ?_⟩
  obtain rfl := List.mem_singleton.mp hname
  exact hfree "name" (by simp) "name" rfl

theorem fits_crewPolicy : ∀ record ∈ crewStore.records, crewPolicy.Fits record := by
  have hsortable : ∀ name rule, crewPolicy.sortable.find name = some rule → name = "age" := by
    intro name rule hrule
    obtain ⟨k, hk, hmem⟩ := Entries.mem_of_find hrule
    obtain ⟨rfl, -⟩ := Prod.mk.inj (List.mem_singleton.mp hmem)
    exact (Option.some.inj hk).symm
  have hage : ∀ record ∈ crewStore.records,
      (Reading.valueAt record (.text "age")).isSortable = true := by decide
  have hteam : ∀ record ∈ crewStore.records,
      isScalar (Reading.valueAt record (.text "team")) = false := by decide
  have hint : ShortInt 36 := by decide
  have hshort : ∀ record ∈ crewStore.records, record.Short := by
    simp [crewStore, crewRecord, Value.Short, Value.ShortEntries, Value.ShortAll, Key.Short, hint]
  intro record hrecord
  refine ⟨hshort record hrecord, ⟨fun _ _ => trivial, ?_, trivial⟩, ?_⟩
  · intro name hname
    rw [← Option.some.inj hname]
    exact ⟨hteam record hrecord, fun x _ => ⟨fun _ _ => trivial, trivial⟩⟩
  · intro name rule hrule
    rw [hsortable name rule hrule]
    exact hage record hrecord

theorem paginate_never_fails_crew :
    ∃ page, paginate crewStore.toPageStore {} (.map []) crewPolicy
      (crewHolding (.map [(.text "a", .list [.int 1, .none])])).toRequest = .ok page := by
  refine paginate_never_fails {} (by decide) freeNames_crewPolicy fits_crewPolicy ⟨?_, ?_⟩ ?_
  · exact fun h => nomatch h
  · exact fun record _ => ⟨[record], rfl⟩
  · intro es hes
    rw [← Option.some.inj hes]
    have hone : ShortInt 1 := by decide
    simp [ShortEntries, Value.Short, Value.ShortAll, Key.Short, hone]

theorem long_operand_fails {n : Int} (h : ¬ShortInt n) :
    paginate crewStore.toPageStore {} (.map []) crewPolicy (crewHolding (.int n)).toRequest =
      .error .longInteger := by
  have hwrite : Value.writeInteger n = .error .longInteger := if_pos (Nat.lt_of_not_le h)
  have hname : entryHolds (crewRecord (.float .nan) .none) (.text "name")
      (.map [(.text NativeKey.contains.name, .int n)]) = .error .longInteger := by
    have htext : entryHolds (crewRecord (.float .nan) .none) (.text "name")
        (.map [(.text NativeKey.contains.name, .int n)]) =
          ((Value.writeInteger n >>= fun text =>
              pure (Text.occurs text.toList "Ada".toList)) >>= fun passed =>
            if passed then pure true else pure false) := rfl
    rw [htext, hwrite]
    rfl
  obtain ⟨plan, hplan, related, search, hpredicate⟩ : ∃ plan,
      (crewHolding (.int n)).toRequest.plan {} (.map []) crewPolicy = .ok plan ∧ ∃ related search,
        plan.fetch.predicate = [(.text Junction.all.key, .list [
          .map [(.text "name", .map [(.text NativeKey.contains.name, .int n)]), related], search])] :=
    ⟨_, rfl, _, _, rfl⟩
  have hholds : holds (crewRecord (.float .nan) .none) plan.fetch.predicate =
      .error .longInteger := by
    rw [hpredicate, holds, entryHolds_all, allHold, valueHolds, holds, holds, hname]
    rfl
  have hcount : crewStore.toPageStore.count plan.fetch.predicate = .error .longInteger := by
    show ((MemoryStore.matching (.map plan.fetch.predicate) crewStore.records >>= _) >>= _) = _
    rw [crewStore, MemoryStore.matching, valueHolds, hholds]
    rfl
  unfold paginate
  rw [ofExcept_eq, hplan]
  show (crewStore.toPageStore.count plan.fetch.predicate >>= _) = _
  rw [hcount]
  rfl

/-- Ten to the power of the most digits that a text may have is one. -/
theorem power_operand_fails :
    paginate crewStore.toPageStore {} (.map []) crewPolicy
      (crewHolding (.int (10 ^ digitLimit : Nat))).toRequest = .error .longInteger := by
  refine long_operand_fails fun hshort => ?_
  rw [ShortInt, Int.natAbs_natCast] at hshort
  have hlimit : 0 < digitLimit := by decide
  exact Nat.lt_irrefl _ ((Nat.length_repr_le_iff hlimit).mp hshort)

end Listing
