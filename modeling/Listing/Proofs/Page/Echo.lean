import Listing.Proofs.Page.Alike
import Listing.Proofs.Page.Walk
import Listing.Proofs.Params.Encodings
import Listing.Proofs.Policy.Names
import Listing.Proofs.Policy.Narrower

/-!
# Sending page information back

What is told about a page can be sent back as the parameters of a request. Each stage leaves what it
has made before as it is: sanitized filters read as themselves and are sanitized to themselves, the sort
and the clamped numbers likewise. So the request asks for the page that was told about.
-/

namespace Listing

open Outcome

/-! ## Sanitized filters -/

/-- A name that is not empty and not marked as an operator. -/
def PlainName (name : String) : Prop := name ≠ "" ∧ FilterTree.isMarked (.text name) = false

namespace FilterTree

theorem knownOperators_of_heldTo {ops : List Operator} {es : Fields} (h : HeldTo ops es) :
    knownOperators es = es := by
  induction h with
  | nil => rfl
  | cons op v rest _ _ _ _ _ ih =>
    have hfirst : knownOperators ((.text op.token, v) :: rest) =
        (.text op.token, v) :: knownOperators rest := by simp [knownOperators]
    rw [hfirst, ih]

theorem isMarked_any_of_heldTo {ops : List Operator} {es : Fields} (h : HeldTo ops es)
    (hne : es ≠ []) : es.any (isMarked ·.1) = true := by
  obtain ⟨e, he⟩ := List.exists_mem_of_ne_nil es hne
  obtain ⟨op, -, hkey⟩ := h.mem he
  exact List.any_eq_true.mpr ⟨e, he, by rw [hkey]; exact Node.isMarked_token op⟩

theorem isMarked_of_name {k : Key} {name : String} (h : k.name? = some name) :
    isMarked k = isMarked (.text name) := by
  rw [isMarked, isMarked, h, Key.name?_text]

theorem ofJsonValue_of_heldTo {ops : List Operator} {es : Fields} (h : HeldTo ops es) (hne : es ≠ [])
    (k : Key) : ofJsonValue k (.map es) = [(k, .map es)] := by
  rw [ofJsonValue, if_pos (isMarked_any_of_heldTo h hne), knownOperators_of_heldTo h,
    Node.entry_of_ne_nil hne]

theorem isMarked_any_related {rules : Entries Rule} (h : (Rule.nested rules).Names PlainName)
    (v : Value) : (Sanitize.field (.nested rules) v).any (isMarked ·.1) = false := by
  cases v with
  | map es =>
    rw [List.any_eq_false]
    intro e he
    obtain ⟨rule, hrule⟩ := Sanitize.rule_of_mem_fields he
    obtain ⟨⟨name, hname, hplain⟩, -⟩ := h.forKey? hrule
    rw [isMarked_of_name hname, hplain.2]
    exact Bool.false_ne_true
  | _ => rfl

mutual

/-- Sanitized filters, read as a JSON object, are themselves. -/
theorem ofJson_sanitized {rules : Entries Rule} (h : (Rule.nested rules).Names PlainName) :
    ∀ es, ofJson (Sanitize.fields rules es) = Sanitize.fields rules es
  | [] => rfl
  | (k, v) :: rest => by
    have hrest := ofJson_sanitized h rest
    rcases Sanitize.fields_cons rules k v rest with hskip | ⟨rule, hrule, hne, hkeep⟩
    · rw [hskip, hrest]
    · obtain ⟨⟨name, hname, hplain⟩, hnames⟩ := h.forKey? hrule
      have hisName : isName k = true := by simp [isName, hname, hplain.1]
      rw [hkeep, ofJson, if_pos hisName, hrest]
      cases rule with
      | operators ops =>
        rw [ofJsonValue_of_heldTo (Sanitize.heldTo_field ops v) hne]
        rfl
      | nested related =>
        rw [ofJsonValue, isMarked_any_related hnames v, if_neg Bool.false_ne_true,
          ofJson_related hnames v, Node.entry_of_ne_nil hne]
        rfl

theorem ofJson_related {rules : Entries Rule} (h : (Rule.nested rules).Names PlainName) :
    ∀ v, ofJson (Sanitize.field (.nested rules) v) = Sanitize.field (.nested rules) v
  | .map es => ofJson_sanitized h es
  | .none | .bool _ | .int _ | .float _ | .text _ | .bytes _ | .operator _ | .direction _ | .list _
  | .tuple _ | .set _ | .object _ _ | .items _ | .rule _ | .policy _ => rfl

end
end FilterTree

/-! ## A sanitized sort -/

theorem Direction.ofWord?_word (d : Direction) : Direction.ofWord? d.word = some d := by
  cases d <;> rfl

theorem FieldPolicy.judgeSort_word {p : FieldPolicy} {k : Key} {v : Value} {d : Direction}
    (h : p.judgeSort k v = .sorted d) : p.judgeSort k (.text d.word) = .sorted d := by
  have hword : Direction.ofValue? (.text d.word) = some d := by
    rw [Direction.ofValue?, Value.text?, Option.bind_some, Direction.ofWord?_word]
  unfold judgeSort at h ⊢
  split at h
  · next hrule => exact h
  · next hrule => rw [hword]
  · cases h

theorem FieldPolicy.sanitizeSort_words (p : FieldPolicy) (sort : Fields) :
    p.sanitizeSort ((p.sanitizeSort sort).map fun e => (e.1, .text e.2.word)) = p.sanitizeSort sort := by
  unfold sanitizeSort
  induction sort with
  | nil => rfl
  | cons e rest ih =>
    obtain ⟨k, v⟩ := e
    rw [List.filterMap_cons]
    cases hverdict : p.judgeSort k v with
    | sorted d =>
      dsimp only
      rw [hverdict]
      dsimp only
      rw [List.map_cons, List.filterMap_cons]
      dsimp only
      rw [judgeSort_word hverdict]
      exact congrArg _ ih
    | unsortable | undirected =>
      dsimp only
      rw [hverdict]
      exact ih

variable {config : Config} {policy : FieldPolicy} {base : Value} {q : QueryParams} {page : Page}

/-! ## What is told of a page -/

/-- What is told of the page of parsed parameters. -/
structure Told (config : Config) (policy : FieldPolicy) (q : QueryParams) (info : PageInfo) : Prop where
  page : info.currentPage = max 1 q.page
  size : info.itemsPerPage = config.clamp q.itemsPerPage
  filters : info.filters = q.toRequest.allowedFilters policy
  sorts : (info.sorts.map fun e => (e.1, Value.text e.2)) =
    (policy.sanitizeSort q.toRequest.sort.asFields).map fun e => (e.1, .text e.2.word)
  search : info.search = q.searched

theorem told_of_paginate {store : PageStore (Except Failure)}
    (h : paginate store config base policy q.toRequest = .ok page) :
    Told config policy q page.info := by
  unfold paginate at h
  rw [ofExcept_eq, PageRequest.plan_base] at h
  obtain ⟨plan, hplan, h⟩ := bind_eq_ok.mp h
  obtain ⟨es, -, hplan⟩ := bind_eq_ok.mp hplan
  obtain ⟨current, take, skip, predicate, hnumbers, -, rfl⟩ := PageRequest.plan_eq_ok.mp hplan
  obtain ⟨total, -, h⟩ := bind_eq_ok.mp h
  obtain ⟨records, -, h⟩ := bind_eq_ok.mp h
  rw [ofExcept_eq] at h
  obtain ⟨pages, -, h⟩ := bind_eq_ok.mp h
  obtain ⟨info, hinfo, h⟩ := bind_eq_ok.mp h
  obtain rfl := pure_eq_ok.mp h
  rw [PageRequest.numbers_int rfl rfl] at hnumbers
  obtain ⟨rfl, rfl, rfl⟩ := by simpa using Except.ok.inj hnumbers
  obtain ⟨hcurrent, hsize, -, -, hfilters, hsorts, hsearch⟩ := PageInfo.ofFields_eq_ok.mp hinfo
  refine ⟨(Except.ok.inj hcurrent).symm, (Except.ok.inj hsize).symm, ?_, ?_, ?_⟩
  · have heq := PageInfo.eq_map_of_read hfilters (f := id) fun e _ a ha => Except.ok.inj ha
    simpa using heq.symm
  · have hwords : ∀ e ∈ ((policy.sanitizeSort q.toRequest.sort.asFields).map fun e =>
        (e.1, Value.text e.2.word)), ∀ s, PageInfo.string e.2 = .ok s → e.2 = .text s := by
      rw [List.forall_mem_map]
      intro e _ s hs
      rw [← Except.ok.inj hs]
    rw [PageRequest.getD_allowedSort] at hsorts
    exact (PageInfo.eq_map_of_read hsorts hwords).symm
  · rw [q.searchText_eq] at hsearch
    exact (Except.ok.inj hsearch).symm

/-! ## Sending it back -/

/-- What is told of a page, as the parameters of a request. -/
def PageInfo.echo (info : PageInfo) : Value :=
  .map [(.text "page", .int info.currentPage), (.text "itemsPerPage", .int info.itemsPerPage),
    (.text "filters", .map info.filters),
    (.text "sort", .map (info.sorts.map fun e => (e.1, .text e.2))), (.text "search", .text info.search)]

def PageInfo.params (info : PageInfo) : QueryParams where
  page := info.currentPage
  itemsPerPage := info.itemsPerPage
  filters := QueryParams.nonempty? (FilterTree.ofJson info.filters)
  search := if info.search = "" then none else some info.search
  sort := QueryParams.nonempty?
    ((info.sorts.map fun e => (e.1, Value.text e.2)).filter fun e => FilterTree.isName e.1)

theorem fields?_of_not_deeper {es : Fields} (h : Value.deeper maxFilterDepth (.map es) = false) :
    (ObjectParam.ofParam? (some (.map es))).fields? = some es := by
  rw [ObjectParam.ofParam?, ObjectParam.ofValue, h]
  rfl

theorem deeper_sorts (sorts : List (Key × String)) :
    Value.deeper maxFilterDepth (.map (sorts.map fun e => (e.1, .text e.2))) = false := by
  have hdepth : Value.depthEntries (sorts.map fun e => (e.1, Value.text e.2)) ≤ 1 := by
    rw [Value.depthEntries_le_iff, List.forall_mem_map]
    intro e _
    exact Nat.le_refl 1
  rw [Value.deeper_eq, decide_eq_false_iff_not, Value.depth, maxFilterDepth]
  omega

theorem parse_echo (hnames : config.DefaultNames) {info : PageInfo}
    (hdepth : Value.deeper maxFilterDepth (.map info.filters) = false) :
    QueryParams.parse config info.echo = .ok info.params := by
  obtain ⟨pairs, hpairs, hpage, hsize, hfilters, hsort, hsearch⟩ : ∃ pairs,
      Source.pairs info.echo = .ok pairs ∧
      Source.first? pairs "page" = some (.int info.currentPage) ∧
      Source.first? pairs "itemsPerPage" = some (.int info.itemsPerPage) ∧
      Source.first? pairs "filters" = some (.map info.filters) ∧
      Source.first? pairs "sort" = some (.map (info.sorts.map fun e => (e.1, .text e.2))) ∧
      Source.first? pairs "search" = some (.text info.search) :=
    ⟨_, rfl, rfl, rfl, rfl, rfl, rfl⟩
  have hparse : QueryParams.parse config info.echo = QueryParams.ofPairs config pairs := by
    rw [QueryParams.parse, hpairs]
    rfl
  rw [hparse, QueryParams.ofPairs_eq_ok, hnames.page, hnames.itemsPerPage, hnames.search, hpage, hsize,
    hsearch]
  refine ⟨FilterTree.ofJson info.filters, _, ?_, ?_, rfl, rfl, ?_, rfl, rfl⟩
  · rw [QueryParams.parseFilters, hnames.filters, hfilters, fields?_of_not_deeper hdepth]
  · rw [QueryParams.parseSort, hnames.sort, hsort, fields?_of_not_deeper (deeper_sorts info.sorts)]
  · rw [QueryParams.parseSearch, PageInfo.params]
    by_cases hempty : info.search = ""
    · rw [hempty]
      rfl
    · have htrue : (Value.text info.search).isTrue = true := by simpa [Value.isTrue] using hempty
      rw [if_pos htrue, if_neg hempty]
      rfl

/-- Whether every name that a policy lets clients filter or sort by is plain. -/
def FieldPolicy.PlainNames (policy : FieldPolicy) : Prop :=
  (Rule.nested policy.filterable).Names PlainName ∧
    ∀ name rule, policy.sortable.find name = some rule → PlainName name

/-- The parameters sent back make the request that the page was told of. -/
theorem Told.alike {info : PageInfo} (h : Told config policy q info) (hpolicy : policy.PlainNames) :
    info.params.toRequest.Alike config policy q.toRequest := by
  have hfilters : info.params.toRequest.allowedFilters policy = q.toRequest.allowedFilters policy := by
    have hself : FilterTree.ofJson info.filters = info.filters := by
      rw [h.filters]
      exact FilterTree.ofJson_sanitized hpolicy.1 _
    have hasFields : info.params.toRequest.filters.asFields = info.filters :=
      (QueryParams.asFields_nonempty? _).trans hself
    rw [PageRequest.allowedFilters, hasFields, h.filters]
    exact policy.sanitizeFilters_idem _
  -- a sort told of is in words, which name the directions that they are the words of
  have hsort : policy.sanitizeSort info.params.toRequest.sort.asFields =
      policy.sanitizeSort q.toRequest.sort.asFields := by
    have hself : (info.sorts.map fun e => (e.1, Value.text e.2)).filter
        (fun e => FilterTree.isName e.1) = info.sorts.map fun e => (e.1, Value.text e.2) := by
      rw [h.sorts, List.filter_eq_self, List.forall_mem_map]
      intro e he
      obtain ⟨name, rule, hname, hfind⟩ := FieldPolicy.find_of_mem_sanitizeSort he
      simp [FilterTree.isName, hname, (hpolicy.2 name rule hfind).1]
    have hasFields : info.params.toRequest.sort.asFields =
        info.sorts.map fun e => (e.1, Value.text e.2) :=
      (QueryParams.asFields_nonempty? _).trans hself
    rw [hasFields, h.sorts, policy.sanitizeSort_words]
  have hsearched : info.params.searched = q.searched := by
    rw [← h.search, QueryParams.searched, PageInfo.params]
    by_cases hempty : info.search = ""
    · simp [hempty]
    · simp [hempty]
  refine ⟨?_, hfilters, ?_, ?_, ?_⟩
  · rw [PageRequest.numbers_int rfl rfl, PageRequest.numbers_int rfl rfl]
    simp only [PageInfo.params, h.page, h.size, Config.clamp_clamp, max_eq_right (le_max_left 1 q.page)]
  · rw [PageRequest.allowedSort, hsort, PageRequest.allowedSort]
  · rw [QueryParams.searchText_eq, QueryParams.searchText_eq, hsearched]
  · rw [QueryParams.searchPredicate_eq, QueryParams.searchPredicate_eq, hsearched]

/-- **What is told reproduces the page.** Where a page is served, under names that are plain, what is told
of it is parsed to parameters that are planned as those of the page: any store is asked for the same,
and if it answers the same it makes the same page. -/
theorem echo_reproduces (config : Config) (hnames : config.DefaultNames) (base : Value)
    (policy : FieldPolicy) (hpolicy : policy.PlainNames) (q : QueryParams)
    (store : PageStore (Except Failure)) (page : Page)
    (hpage : paginate store config base policy q.toRequest = .ok page)
    (hdepth : Value.deeper maxFilterDepth (.map page.info.filters) = false) :
    ∃ q', QueryParams.parse config page.info.echo = .ok q' ∧
      q'.toRequest.plan config base policy = q.toRequest.plan config base policy ∧
      paginate store config base policy q'.toRequest = .ok page ∧
      ∀ (m : Type → Type) [Monad m] [MonadExceptOf Failure m] (store : PageStore m),
        paginate store config base policy q'.toRequest =
          paginate store config base policy q.toRequest := by
  have halike := (told_of_paginate hpage).alike hpolicy
  refine ⟨page.info.params, parse_echo hnames hdepth, halike.plan_eq base, ?_, ?_⟩
  · rw [halike.paginate_eq, hpage]
  · intro m _ _ store
    exact halike.paginate_eq store base

/-! ## A page of members -/

/-- Members by what their name is not, by the name of their team, and by age. -/
def rosterPolicy : FieldPolicy where
  filterable := [(.text "name", .operators [.eq, .not]),
    (.text "team", .nested [(.text "name", .operators [.isIn])])]
  searchable := ["name"]
  sortable := [(.text "age", .allowed true), (.text "name", .forced .asc)]

/-- A page before the first, larger than allowed, with a field and a direction that are not. -/
def rosterQuery : QueryParams where
  page := -3
  itemsPerPage := 500
  filters := some [(.text "name",
      .map [(.text Operator.not.token, .map [(.text Operator.eq.token, .text "Bob")])]),
    (.text "secret", .int 1),
    (.text "team", .map [(.text "name", .map [(.text Operator.isIn.token, .list [.text "Core"])])])]
  search := some "a"
  sort := some [(.text "name", .text "desc"), (.text "age", .text " Descending")]

/-- A store with three records, none of which it shows. -/
def rosterStore : PageStore (Except Failure) where
  count _ := .ok (.int 3)
  fetch _ := .ok []

theorem plainNames_rosterPolicy : rosterPolicy.PlainNames := by
  have hplain : ∀ name ∈ ["name", "team", "age"], PlainName name := by
    unfold PlainName
    decide
  have hkey : ∀ s ∈ ["name", "team", "age"], ∀ name, (Key.text s).name? = some name →
      PlainName name := by
    intro s hs name hname
    rw [← Option.some.inj hname]
    exact hplain s hs
  refine ⟨⟨hkey _ (by simp), trivial, hkey _ (by simp), ⟨hkey _ (by simp), trivial, trivial⟩,
    trivial⟩, fun name rule hrule => ?_⟩
  obtain ⟨k, hk, hmem⟩ := Entries.mem_of_find hrule
  have hlisted : ∀ e ∈ rosterPolicy.sortable, ∃ s ∈ ["name", "team", "age"], e.1 = .text s := by decide
  obtain ⟨s, hs, hkeys⟩ := hlisted _ hmem
  exact hkey s hs name (by rw [← hk, ← hkeys])

theorem echo_reproduces_roster :
    ∃ page q', paginate rosterStore { maxItemsPerPage := some 20 } .none rosterPolicy
        rosterQuery.toRequest = .ok page ∧
      QueryParams.parse { maxItemsPerPage := some 20 } page.info.echo = .ok q' ∧
      paginate rosterStore { maxItemsPerPage := some 20 } .none rosterPolicy q'.toRequest =
        .ok page := by
  obtain ⟨page, hpage⟩ : ∃ page, paginate rosterStore { maxItemsPerPage := some 20 } .none rosterPolicy
      rosterQuery.toRequest = .ok page := ⟨_, rfl⟩
  have hdepth : Value.deeper maxFilterDepth (.map page.info.filters) = false := by
    rw [(told_of_paginate hpage).filters, Value.deeper_eq]
    decide
  obtain ⟨q', hparse, -, hagain, -⟩ := echo_reproduces { maxItemsPerPage := some 20 }
    ⟨rfl, rfl, rfl, rfl, rfl⟩ .none rosterPolicy plainNames_rosterPolicy rosterQuery rosterStore page
    hpage hdepth
  exact ⟨page, q', hpage, hparse, hagain⟩

end Listing
